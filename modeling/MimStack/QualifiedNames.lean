import MimStack.Core

/-!
Qualified names read from URIs and written as URIs. The empty segments of a path are
dropped only after the path is found not to be empty, and a URI is trimmed as it is
read, so a name comes back when its path has a segment and ends in a visible character.
-/
namespace MimCore
open RustText

def MimQualifiedName.asUri (name : MimQualifiedName) : MimUri :=
  ⟨mimBaseUrl ++ "/" ++ name.version ++ "/" ++ name.path⟩

def MimUri.qualifiedName (uri : MimUri) : Except MimError MimQualifiedName :=
  MimQualifiedName.parse uri.inner

section Segments

def pathSegments (path : String) : List String :=
  (split (· == '/') path).filter fun segment => !isEmpty segment

theorem pathSegments_chars (path : String) :
    (pathSegments path).flatMap String.toList = path.toList.filter (· != '/') := by
  have whole := splitOnP_flatten (· == '/') path.toList
  have parts : ∀ parts : List (List Char),
      ((parts.map String.ofList).filter fun s => !isEmpty s).flatMap String.toList =
        parts.flatten := by
    intro parts
    induction parts with
    | nil => rfl
    | cons part rest ih =>
      rw [List.map_cons, List.filter_cons, List.flatten_cons, ← ih]
      cases part with
      | nil => rfl
      | cons c more =>
        rw [isEmpty, String.toList_ofList]
        exact congrArg (· ++ _) String.toList_ofList
  rw [pathSegments, split, parts, whole]
  rfl

theorem pathSegments_segment {path segment : String} (mem : segment ∈ pathSegments path) :
    segment.toList ≠ [] ∧ '/' ∉ segment.toList := by
  constructor
  · intro empty
    have filled := (List.mem_filter.mp mem).2
    rw [isEmpty, empty] at filled
    cases filled
  · intro slash
    have listed : '/' ∈ (pathSegments path).flatMap String.toList :=
      List.mem_flatMap.mpr ⟨segment, mem, slash⟩
    rw [pathSegments_chars] at listed
    exact absurd (List.mem_filter.mp listed).2 (by decide)

theorem join_chars {segments : List String} (slashless : ∀ s ∈ segments, '/' ∉ s.toList) :
    (join "/" segments).toList.filter (· != '/') = segments.flatMap String.toList := by
  have kept : ∀ s : String, '/' ∉ s.toList → s.toList.filter (· != '/') = s.toList := by
    intro s absent
    apply List.filter_eq_self.mpr
    intro c mem
    rw [bne_iff_ne]
    intro same
    exact absent (same ▸ mem)
  induction segments with
  | nil => rfl
  | cons first rest ih =>
    have own := kept first (slashless first List.mem_cons_self)
    have later := ih fun s mem => slashless s (List.mem_cons_of_mem first mem)
    cases rest with
    | nil => rw [join, own, List.flatMap_singleton]
    | cons second more =>
      have joined : join "/" (first :: second :: more) =
          first ++ "/" ++ join "/" (second :: more) := rfl
      have slash : "/".toList.filter (· != '/') = [] := by decide
      rw [joined, String.toList_append, String.toList_append, List.filter_append,
        List.filter_append, own, later, slash, List.append_nil]
      rfl

theorem join_last {segments : List String}
    (named : ∀ s ∈ segments, s.toList ≠ [] ∧ '/' ∉ s.toList) :
    ∀ c ∈ (join "/" segments).toList.getLast?, c ≠ '/' := by
  induction segments with
  | nil =>
    intro c last
    cases last
  | cons first rest ih =>
    intro c last same
    cases rest with
    | nil =>
      rw [join] at last
      exact (named first List.mem_cons_self).2 (same ▸ List.mem_of_mem_getLast? last)
    | cons second more =>
      have later : ∀ s ∈ second :: more, s.toList ≠ [] ∧ '/' ∉ s.toList :=
        fun s mem => named s (List.mem_cons_of_mem first mem)
      have filled : (join "/" (second :: more)).toList ≠ [] := by
        intro empty
        have chars := join_chars fun s mem => (later s mem).2
        rw [empty, List.flatMap_cons] at chars
        exact (later second List.mem_cons_self).1 (List.append_eq_nil_iff.mp chars.symm).1
      have joined : join "/" (first :: second :: more) =
          first ++ "/" ++ join "/" (second :: more) := rfl
      rw [joined, String.toList_append, List.getLast?_append_of_ne_nil _ filled] at last
      exact ih later c last same

theorem normalizePath_join (path : String) :
    MimQualifiedName.normalizePath path = join "/" (pathSegments path) := rfl

theorem normalizePath_chars (path : String) :
    (MimQualifiedName.normalizePath path).toList.filter (· != '/') =
      path.toList.filter (· != '/') := by
  rw [← pathSegments_chars path, normalizePath_join]
  exact join_chars fun s mem => (pathSegments_segment mem).2

theorem normalizePath_last (path : String) :
    (MimQualifiedName.normalizePath path).toList.getLast? =
      (path.toList.filter (· != '/')).getLast? := by
  have ending : ∀ c ∈ (join "/" (pathSegments path)).toList.getLast?, c ≠ '/' :=
    join_last fun s mem => pathSegments_segment mem
  rw [← normalizePath_chars]
  rcases List.eq_nil_or_concat (MimQualifiedName.normalizePath path).toList with empty | split
  · rw [empty]
    rfl
  · obtain ⟨start, c, shape⟩ := split
    rw [List.concat_eq_append] at shape
    have visible : c ≠ '/' := by
      apply ending
      rw [← normalizePath_join, shape, List.getLast?_concat]
      exact rfl
    rw [shape, List.filter_append, List.filter_singleton, bne_iff_ne.mpr visible, cond_true,
      List.getLast?_concat, List.getLast?_concat]

theorem normalizePath_normal (path : String) :
    MimQualifiedName.normalizePath (MimQualifiedName.normalizePath path) =
      MimQualifiedName.normalizePath path := by
  have rejoin : ∀ segments : List String, (∀ s ∈ segments, s.toList ≠ [] ∧ '/' ∉ s.toList) →
      pathSegments (join "/" segments) = segments := by
    intro segments named
    have kept : segments.filter (fun s => !isEmpty s) = segments := by
      apply List.filter_eq_self.mpr
      intro s mem
      rw [isEmpty, List.isEmpty_eq_false_iff.mpr (named s mem).1]
      rfl
    have whole : segments.flatMap (split (· == '/')) = segments := by
      clear kept
      induction segments with
      | nil => rfl
      | cons s rest ih =>
        have unbroken : ∀ c ∈ s.toList, (c == '/') = false := by
          intro c mem
          rw [beq_eq_false_iff_ne]
          intro same
          exact (named s List.mem_cons_self).2 (same ▸ mem)
        rw [List.flatMap_cons, split_whole unbroken,
          ih fun t mem => named t (List.mem_cons_of_mem s mem)]
        rfl
    cases segments with
    | nil => rfl
    | cons first rest =>
      have parts := split_join (p := (· == '/')) (c := '/') (by decide) first rest
      rw [whole] at parts
      have slash : "/" = String.singleton '/' := by decide
      rw [pathSegments, slash, parts, kept]
  rw [normalizePath_join path, normalizePath_join,
    rejoin (pathSegments path) fun s mem => pathSegments_segment mem]

end Segments

section Texts

def uriText (version path : List Char) : String :=
  mimBaseUrl ++ "/" ++ .ofList (version ++ '/' :: path)

theorem uriText_path {version path other : List Char}
    (same : uriText version path = uriText version other) : path = other := by
  have chars := congrArg String.toList same
  simp only [uriText, String.toList_append, String.toList_ofList, List.append_cancel_left_eq,
    List.cons.injEq, true_and] at chars
  exact chars

theorem trim_uriText (version path : List Char) :
    trim (uriText version path) = uriText version (path.rdropWhile isWhitespace) := by
  have head : (mimBaseUrl ++ "/").toList.head? = some 'h' := by decide
  obtain ⟨start, base⟩ := List.head?_eq_some_iff.mp head
  have shape : ∀ tail, uriText version tail = .ofList ('h' :: (start ++ version) ++ '/' :: tail) := by
    intro tail
    rw [uriText, ← String.toList_inj, String.toList_append, base, String.toList_ofList,
      String.toList_ofList, List.cons_append, List.cons_append, List.append_assoc]
  rw [shape, shape]
  exact trim_visible _ _ (by decide) (by decide)

theorem parse_uriText {version : List Char} (path : List Char) (slashless : '/' ∉ version)
    (named : version ≠ []) : MimQualifiedName.parse (uriText version path) =
      if (path.rdropWhile isWhitespace).isEmpty then
        .error (.invalidUri (uriText version (path.rdropWhile isWhitespace)))
      else .ok ⟨.ofList version,
        MimQualifiedName.normalizePath (.ofList (path.rdropWhile isWhitespace))⟩ := by
  unfold MimQualifiedName.parse
  dsimp only
  rw [trim_uriText]
  generalize path.rdropWhile isWhitespace = kept
  have stripped : stripPrefix (mimBaseUrl ++ "/") (uriText version kept) =
      some (.ofList (version ++ '/' :: kept)) := (stripPrefix_some_iff _ _ _).mpr rfl
  rw [stripped]
  dsimp only
  rw [splitAtChar_append slashless]
  dsimp only
  rw [String.toList_ofList, List.drop_one, List.tail_cons]
  have version' : isEmpty (.ofList version) = false := by
    rw [isEmpty, String.toList_ofList]
    exact List.isEmpty_eq_false_iff.mpr named
  rw [version', Bool.false_or, isEmpty, String.toList_ofList]

theorem uri_parse_text {version : List Char} (path : List Char) (slashless : '/' ∉ version)
    (named : version ≠ []) : MimUri.parse (uriText version path) =
      if (path.rdropWhile isWhitespace).isEmpty then
        .error (.invalidUri (uriText version (path.rdropWhile isWhitespace)))
      else .ok ⟨uriText version (path.rdropWhile isWhitespace)⟩ := by
  have based : ∀ kept, startsWith mimBaseUrl (uriText version kept) = true := by
    intro kept
    rw [startsWith, List.isPrefixOf_iff_prefix, uriText, String.toList_append,
      String.toList_append, List.append_assoc]
    exact List.prefix_append _ _
  unfold MimUri.parse
  dsimp only
  rw [trim_uriText, based, parse_uriText _ slashless named, List.rdropWhile_idempotent]
  cases (path.rdropWhile isWhitespace).isEmpty with
  | true => rfl
  | false => rfl

theorem uri_parse_trim (value : String) : MimUri.parse value = MimUri.parse (trim value) := by
  unfold MimUri.parse
  rw [trim_trim]

theorem accepted_text {value : String} {uri : MimUri} (accepted : MimUri.parse value = .ok uri) :
    ∃ version path, '/' ∉ version ∧ version ≠ [] ∧ path ≠ [] ∧
      path.rdropWhile isWhitespace = path ∧ trim value = uriText version path ∧
      uri = ⟨uriText version path⟩ := by
  unfold MimUri.parse at accepted
  dsimp only at accepted
  split at accepted
  · cases accepted
  · cases named : MimQualifiedName.parse (trim value) with
    | error e =>
      rw [named] at accepted
      cases accepted
    | ok name =>
      rw [named] at accepted
      obtain rfl := Except.ok.inj accepted
      unfold MimQualifiedName.parse at named
      dsimp only at named
      rw [trim_trim] at named
      cases stripped : stripPrefix (mimBaseUrl ++ "/") (trim value) with
      | none =>
        rw [stripped] at named
        cases named
      | some body =>
        rw [stripped] at named
        dsimp only at named
        by_cases slash : '/' ∈ body.toList
        · obtain ⟨version, path, shape, slashless⟩ := List.eq_append_cons_of_mem slash
          have whole : body = .ofList (version ++ '/' :: path) := by
            rw [← shape, String.ofList_toList]
          have text : trim value = uriText version path := by
            rw [(stripPrefix_some_iff _ _ _).mp stripped, whole, uriText]
          rw [whole, splitAtChar_append slashless] at named
          simp only [isEmpty, String.toList_ofList, List.drop_one, List.tail_cons] at named
          split at named
          · cases named
          · rename_i filled
            rw [Bool.or_eq_true, not_or, List.isEmpty_iff, List.isEmpty_iff] at filled
            refine ⟨version, path, slashless, filled.1, filled.2, ?_, text, by rw [text]⟩
            have trimmed := trim_trim value
            rw [text, trim_uriText] at trimmed
            exact uriText_path trimmed
        · rw [splitAtChar_absent slash] at named
          cases named

end Texts

def writtenPath (value : String) : List Char :=
  ((trim value).toList.drop (mimBaseUrl ++ "/").toList.length).dropWhile (· != '/')

/-- The path has a segment, and the last one ends in a visible character. -/
def EndsVisibly (value : String) : Prop :=
  ∃ c ∈ ((writtenPath value).filter (· != '/')).getLast?, isWhitespace c = false

/-- The name of a URI makes a URI that is accepted and has the same name. -/
def RoundTrips (uri : MimUri) : Prop :=
  ∃ name, uri.qualifiedName = .ok name ∧
    ∃ again, MimUri.parse name.asUri.inner = .ok again ∧ again.qualifiedName = .ok name

theorem writtenPath_text {value : String} {version path : List Char}
    (slashless : '/' ∉ version) (text : trim value = uriText version path) :
    writtenPath value = '/' :: path := by
  have before : ∀ c ∈ version, (c != '/') = true := by
    intro c mem
    rw [bne_iff_ne]
    intro same
    exact slashless (same ▸ mem)
  have chars : (uriText version path).toList =
      (mimBaseUrl ++ "/").toList ++ (version ++ '/' :: path) := by
    rw [uriText, String.toList_append, String.toList_ofList]
  rw [writtenPath, text, chars, List.drop_left, List.dropWhile_append_of_pos before,
    List.dropWhile_cons_of_neg (by decide)]

theorem trimmed_path_iff {path : String} {chars : List Char}
    (normal : (MimQualifiedName.normalizePath path).toList = chars) :
    chars.rdropWhile isWhitespace ≠ [] ∧
        MimQualifiedName.normalizePath (.ofList (chars.rdropWhile isWhitespace)) =
          MimQualifiedName.normalizePath path ↔
      ∃ c ∈ chars.getLast?, isWhitespace c = false := by
  constructor
  · intro both
    obtain ⟨filled, same⟩ := both
    have segments : (chars.rdropWhile isWhitespace).filter (· != '/') =
        chars.filter (· != '/') := by
      rw [← normal, ← same, normalizePath_chars, String.toList_ofList, same, normal]
    have whole : chars.rdropWhile isWhitespace ++ chars.rtakeWhile isWhitespace = chars :=
      List.rdropWhile_append_rtakeWhile
    have parts : chars.filter (· != '/') = (chars.rdropWhile isWhitespace).filter (· != '/') ++
        (chars.rtakeWhile isWhitespace).filter (· != '/') := by
      rw [← List.filter_append, whole]
    have white : (chars.rtakeWhile isWhitespace).filter (· != '/') =
        chars.rtakeWhile isWhitespace := by
      apply List.filter_eq_self.mpr
      intro c mem
      have blank := List.mem_rtakeWhile_imp mem
      rw [bne_iff_ne]
      intro slash
      rw [slash] at blank
      exact absurd blank (by decide)
    rw [segments, white] at parts
    have none : chars.rtakeWhile isWhitespace = [] := List.self_eq_append_right.mp parts
    rw [none, List.append_nil] at whole
    have visible := (rdropWhile_whole_iff isWhitespace chars).mp whole
    rw [whole] at filled
    obtain ⟨c, last⟩ := Option.ne_none_iff_exists'.mp (mt List.getLast?_eq_none_iff.mp filled)
    exact ⟨c, last, visible c last⟩
  · intro seen
    obtain ⟨c, last, visible⟩ := seen
    have whole : chars.rdropWhile isWhitespace = chars := by
      rw [rdropWhile_whole_iff]
      intro d also
      rw [Option.mem_unique also last]
      exact visible
    rw [whole]
    constructor
    · intro empty
      rw [empty] at last
      cases last
    · rw [← normal, String.ofList_toList]
      exact normalizePath_normal path

/-- Which URIs come back from their names. -/
theorem uri_round_trip_iff (value : String) (uri : MimUri)
    (accepted : MimUri.parse value = .ok uri) : RoundTrips uri ↔ EndsVisibly value := by
  obtain ⟨version, path, slashless, named, filled, whole, text, rfl⟩ := accepted_text accepted
  have own : MimQualifiedName.parse (uriText version path) =
      .ok ⟨.ofList version, MimQualifiedName.normalizePath (.ofList path)⟩ := by
    rw [parse_uriText path slashless named, whole, List.isEmpty_eq_false_iff.mpr filled]
    rfl
  have last : ((writtenPath value).filter (· != '/')).getLast? =
      (MimQualifiedName.normalizePath (.ofList path)).toList.getLast? := by
    rw [writtenPath_text slashless text, normalizePath_last, String.toList_ofList,
      List.filter_cons_of_neg (by decide)]
  rw [EndsVisibly, last, ← trimmed_path_iff rfl]
  generalize chars : (MimQualifiedName.normalizePath (.ofList path)).toList = normal
  have made : MimQualifiedName.normalizePath (.ofList path) = .ofList normal := by
    rw [← chars, String.ofList_toList]
  have uri : (MimQualifiedName.asUri ⟨.ofList version, .ofList normal⟩).inner =
      uriText version normal := by
    rw [MimQualifiedName.asUri, uriText, ← String.toList_inj]
    simp
  rw [made] at own ⊢
  constructor
  · intro returns
    obtain ⟨name, read, again, accepted', same⟩ := returns
    obtain rfl := Except.ok.inj (own.symm.trans read)
    rw [uri, uri_parse_text normal slashless named] at accepted'
    cases empty : (normal.rdropWhile isWhitespace).isEmpty with
    | true =>
      rw [empty] at accepted'
      cases accepted'
    | false =>
      rw [empty] at accepted'
      obtain rfl := Except.ok.inj accepted'
      rw [MimUri.qualifiedName, parse_uriText _ slashless named, List.rdropWhile_idempotent,
        empty] at same
      obtain ⟨_, path'⟩ := MimQualifiedName.mk.inj (Except.ok.inj same)
      exact ⟨List.isEmpty_eq_false_iff.mp empty, path'⟩
  · intro both
    obtain ⟨left, same⟩ := both
    have empty := List.isEmpty_eq_false_iff.mpr left
    refine ⟨_, own, ⟨uriText version (normal.rdropWhile isWhitespace)⟩, ?_, ?_⟩
    · rw [uri, uri_parse_text normal slashless named, empty]
      rfl
    · rw [MimUri.qualifiedName, parse_uriText _ slashless named, List.rdropWhile_idempotent, empty,
        same]
      rfl

/-- A path of slashes is no path any more when it is written. -/
theorem slashes_lost : ∃ uri name,
    MimUri.parse "https://www.mimworld.org/mim/5.1.0//" = .ok uri ∧
    uri.qualifiedName = .ok name ∧ name.asUri.inner = "https://www.mimworld.org/mim/5.1.0/" ∧
    (∀ again, MimUri.parse name.asUri.inner ≠ .ok again) ∧ ¬ RoundTrips uri := by
  have version : '/' ∉ "5.1.0".toList ∧ "5.1.0".toList ≠ [] := by decide
  have text : uriText "5.1.0".toList ['/'] = "https://www.mimworld.org/mim/5.1.0//" := by decide
  have rest : uriText "5.1.0".toList [] = "https://www.mimworld.org/mim/5.1.0/" := by decide
  have accepted := uri_parse_text ['/'] version.1 version.2
  have named := parse_uriText ['/'] version.1 version.2
  have refused : ∀ again, MimUri.parse "https://www.mimworld.org/mim/5.1.0/" ≠ .ok again := by
    intro again
    rw [← rest, uri_parse_text [] version.1 version.2]
    intro same
    cases same
  have kept : (['/'] : List Char).rdropWhile isWhitespace = ['/'] := by decide
  rw [kept, text] at accepted named
  have uri : MimQualifiedName.normalizePath (.ofList ['/']) = "" := by decide
  have inner : (MimQualifiedName.asUri ⟨.ofList "5.1.0".toList, ""⟩).inner =
      "https://www.mimworld.org/mim/5.1.0/" := by decide
  rw [uri] at named
  refine ⟨_, _, accepted, named, inner, ?_, ?_⟩
  · rw [inner]
    exact refused
  · intro returns
    obtain ⟨name, read, again, accepted', _⟩ := returns
    obtain rfl := Except.ok.inj (Eq.trans (Eq.symm named) read)
    rw [inner] at accepted'
    exact refused again accepted'

theorem line_returns : ∃ uri, MimUri.parse
    " https://www.mimworld.org/mim/4.0.1//Classifiers/Location//Line/" = .ok uri ∧ RoundTrips uri := by
  have accepted : MimUri.parse " https://www.mimworld.org/mim/4.0.1//Classifiers/Location//Line/" =
      .ok ⟨"https://www.mimworld.org/mim/4.0.1//Classifiers/Location//Line/"⟩ := by
    have trimmed : trim " https://www.mimworld.org/mim/4.0.1//Classifiers/Location//Line/" =
        "https://www.mimworld.org/mim/4.0.1//Classifiers/Location//Line/" := by decide
    have text : uriText "4.0.1".toList "/Classifiers/Location//Line/".toList =
        "https://www.mimworld.org/mim/4.0.1//Classifiers/Location//Line/" := by decide
    have kept : "/Classifiers/Location//Line/".toList.rdropWhile isWhitespace =
        "/Classifiers/Location//Line/".toList := by decide
    rw [uri_parse_trim, trimmed, ← text, uri_parse_text _ (by decide) (by decide), kept]
    rfl
  refine ⟨_, accepted, (uri_round_trip_iff _ _ accepted).mpr ?_⟩
  exact ⟨'e', by decide, by decide⟩

end MimCore
