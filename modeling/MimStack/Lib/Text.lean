import Mathlib.Data.List.DropRight
import Mathlib.Data.List.Induction
import Mathlib.Data.List.Infix

/-!
Operations on Unicode strings as the Rust standard library documents them, read
off the list of scalar values. ASCII case mapping leaves every other character
alone. The full Unicode case table is not reproduced: `UnicodeCase` is any
upper-case mapping that agrees with ASCII on ASCII.
-/
namespace RustText

def isWhitespace (c : Char) : Bool :=
  let n := c.toNat
  (9 ≤ n && n ≤ 13) || n == 0x20 || n == 0x85 || n == 0xA0 || n == 0x1680 ||
    (0x2000 ≤ n && n ≤ 0x200A) || n == 0x2028 || n == 0x2029 || n == 0x202F ||
    n == 0x205F || n == 0x3000

def trimStartMatches (p : Char → Bool) (s : String) : String :=
  .ofList (s.toList.dropWhile p)

def trimEndMatches (p : Char → Bool) (s : String) : String :=
  .ofList (s.toList.rdropWhile p)

def trimMatches (p : Char → Bool) (s : String) : String :=
  trimEndMatches p (trimStartMatches p s)

def trim (s : String) : String := trimMatches isWhitespace s

theorem trimStartMatches_kept {p : Char → Bool} {s : String} {first : Char} {rest : List Char}
    (begun : s.toList = first :: rest) (kept : p first = false) : trimStartMatches p s = s := by
  rw [trimStartMatches, begun, List.dropWhile_cons_of_neg (by simp [kept]), ← begun,
    String.ofList_toList]

theorem trimStartMatches_marker {c first : Char} (other : first ≠ c) (rest : List Char) :
    trimStartMatches (· == c) (.ofList (c :: first :: rest)) = .ofList (first :: rest) := by
  have marker : (c == c) = true := beq_self_eq_true c
  have next : (first == c) = false := beq_eq_false_iff_ne.mpr other
  rw [trimStartMatches, String.toList_ofList, List.dropWhile_cons, marker, if_pos rfl,
    List.dropWhile_cons, next]
  rfl

theorem rdropWhile_whole_iff (p : Char → Bool) (chars : List Char) :
    chars.rdropWhile p = chars ↔ ∀ c ∈ chars.getLast?, p c = false := by
  rw [List.rdropWhile_eq_self_iff]
  constructor
  · intro kept c last
    obtain ⟨filled, rfl⟩ := List.mem_getLast?_eq_getLast last
    exact Bool.eq_false_iff.mpr (kept filled)
  · intro kept filled
    exact Bool.eq_false_iff.mp (kept _ (List.getLast_mem_getLast? filled))

theorem rdropWhile_append_cons (p : Char → Bool) (start rest : List Char) {c : Char}
    (kept : p c = false) : (start ++ c :: rest).rdropWhile p = start ++ c :: rest.rdropWhile p := by
  induction rest using List.reverseRecOn with
  | nil =>
    rw [List.rdropWhile_concat_neg _ _ _ (by simp [kept])]
    rfl
  | append_singleton rest d ih =>
    have shape : start ++ c :: (rest ++ [d]) = start ++ c :: rest ++ [d] := by
      rw [List.append_assoc, List.cons_append]
    rw [shape, List.rdropWhile_concat, List.rdropWhile_concat, ih]
    split
    · rfl
    · rw [shape]

theorem trim_visible {first c : Char} (start rest : List Char) (head : isWhitespace first = false)
    (visible : isWhitespace c = false) :
    trim (.ofList (first :: start ++ c :: rest)) =
      .ofList (first :: start ++ c :: rest.rdropWhile isWhitespace) := by
  have begun : (first :: start ++ c :: rest).dropWhile isWhitespace = first :: start ++ c :: rest :=
    List.dropWhile_cons_of_neg (by simp [head])
  rw [trim, trimMatches, trimStartMatches, String.toList_ofList, begun, trimEndMatches,
    String.toList_ofList, rdropWhile_append_cons isWhitespace _ _ visible]

theorem trim_ofList (chars : List Char) : trim (.ofList chars) =
    .ofList ((chars.dropWhile isWhitespace).rdropWhile isWhitespace) := by
  rw [trim, trimMatches, trimStartMatches, trimEndMatches, String.toList_ofList,
    String.toList_ofList]

theorem trim_within (s : String) : (trim s).toList <:+: s.toList := by
  rw [trim, trimMatches, trimEndMatches, trimStartMatches, String.toList_ofList,
    String.toList_ofList]
  exact (List.rdropWhile_prefix _ _).isInfix.trans (List.dropWhile_suffix _).isInfix

theorem trim_around (s : String) : ∃ before after, s.toList = before ++ (trim s).toList ++ after ∧
    (∀ c ∈ before, isWhitespace c = true) ∧ ∀ c ∈ after, isWhitespace c = true := by
  refine ⟨s.toList.takeWhile isWhitespace,
    (s.toList.dropWhile isWhitespace).rtakeWhile isWhitespace, ?_,
    fun c mem => List.mem_takeWhile_imp mem, fun c mem => List.mem_rtakeWhile_imp mem⟩
  have kept : (trim s).toList = (s.toList.dropWhile isWhitespace).rdropWhile isWhitespace := by
    rw [trim, trimMatches, trimEndMatches, trimStartMatches, String.toList_ofList,
      String.toList_ofList]
  rw [kept, List.append_assoc, List.rdropWhile_append_rtakeWhile, List.takeWhile_append_dropWhile]

theorem trim_whole_iff (s : String) : trim s = s ↔
    (∀ c ∈ s.toList.head?, isWhitespace c = false) ∧
      ∀ c ∈ s.toList.getLast?, isWhitespace c = false := by
  obtain ⟨chars, rfl⟩ : ∃ chars, s = .ofList chars := ⟨s.toList, s.ofList_toList.symm⟩
  rw [trim_ofList, ← String.toList_inj, String.toList_ofList, String.toList_ofList]
  have start : chars.dropWhile isWhitespace = chars ↔
      ∀ c ∈ chars.head?, isWhitespace c = false := by
    cases chars with
    | nil => simp
    | cons c rest =>
      cases white : isWhitespace c with
      | false => simp [white]
      | true =>
        have shorter := (List.dropWhile_suffix isWhitespace (l := rest)).length_le
        simp only [List.dropWhile_cons, white, if_true, List.head?_cons, Option.mem_some_iff,
          forall_eq', Bool.true_eq_false, iff_false]
        intro same
        have := congrArg List.length same
        rw [List.length_cons] at this
        omega
  constructor
  · intro same
    have within := (List.rdropWhile_prefix isWhitespace (chars.dropWhile isWhitespace)).length_le
    have whole : chars.dropWhile isWhitespace = chars := by
      apply (List.dropWhile_suffix isWhitespace).eq_of_length_le
      rw [same] at within
      exact within
    rw [whole] at same
    exact ⟨start.mp whole, (rdropWhile_whole_iff _ _).mp same⟩
  · intro visible
    rw [start.mpr visible.1]
    exact (rdropWhile_whole_iff _ _).mpr visible.2

theorem trim_trim (s : String) : trim (trim s) = trim s := by
  have text : trim s = .ofList ((s.toList.dropWhile isWhitespace).rdropWhile isWhitespace) := by
    rw [← trim_ofList, String.ofList_toList]
  rw [trim_whole_iff, text, String.toList_ofList, ← rdropWhile_whole_iff]
  refine ⟨?_, List.rdropWhile_idempotent _ _⟩
  intro c first
  obtain ⟨rest, whole⟩ := List.rdropWhile_prefix isWhitespace (s.toList.dropWhile isWhitespace)
  have begun : (s.toList.dropWhile isWhitespace).head? = some c := by
    rw [← whole, List.head?_append, Option.mem_def.mp first]
    rfl
  have visible := List.head?_dropWhile_not isWhitespace s.toList
  rw [begun] at visible
  exact visible

def isEmpty (s : String) : Bool := s.toList.isEmpty

theorem trim_begun {s : String} {first : Char} {rest : List Char} (begun : s.toList = first :: rest)
    (head : isWhitespace first = false) : isEmpty (trim s) = false := by
  have start : (first :: rest).dropWhile isWhitespace = first :: rest :=
    List.dropWhile_cons_of_neg (by simp [head])
  have kept : (first :: rest).rdropWhile isWhitespace = first :: rest.rdropWhile isWhitespace :=
    rdropWhile_append_cons isWhitespace [] rest head
  rw [isEmpty, trim, trimMatches, trimStartMatches, begun, start, trimEndMatches,
    String.toList_ofList, String.toList_ofList, kept]
  rfl

theorem trim_nonempty_iff (s : String) :
    isEmpty (trim s) = false ↔ ∃ c ∈ s.toList, isWhitespace c = false := by
  have text : trim s = .ofList ((s.toList.dropWhile isWhitespace).rdropWhile isWhitespace) := by
    rw [← trim_ofList, String.ofList_toList]
  rw [isEmpty, text, String.toList_ofList, List.isEmpty_eq_false_iff]
  constructor
  · intro filled
    by_contra unseen
    have blank : ∀ c ∈ s.toList, isWhitespace c = true := by
      intro c mem
      by_contra visible
      exact unseen ⟨c, mem, Bool.eq_false_iff.mpr visible⟩
    rw [List.dropWhile_eq_nil_iff.mpr blank] at filled
    exact filled rfl
  · intro seen blank
    obtain ⟨c, mem, visible⟩ := seen
    have rest : ∀ d ∈ s.toList.dropWhile isWhitespace, isWhitespace d = true :=
      List.rdropWhile_eq_nil_iff.mp blank
    have whole : ∀ d ∈ s.toList, isWhitespace d = true := by
      intro d listed
      rw [← List.takeWhile_append_dropWhile (p := isWhitespace) (l := s.toList)] at listed
      rcases List.mem_append.mp listed with before | after
      · exact List.mem_takeWhile_imp before
      · exact rest d after
    rw [whole c mem] at visible
    cases visible

def toAsciiUppercase (s : String) : String := .ofList (s.toList.map Char.toUpper)

def toAsciiLowercase (s : String) : String := .ofList (s.toList.map Char.toLower)

def eqIgnoreAsciiCase (a b : String) : Bool := toAsciiLowercase a == toAsciiLowercase b

theorem eqIgnoreAsciiCase_iff {a b : String} :
    eqIgnoreAsciiCase a b = true ↔ toAsciiLowercase a = toAsciiLowercase b :=
  beq_iff_eq

theorem eqIgnoreAsciiCase_self (a : String) : eqIgnoreAsciiCase a a = true := beq_self_eq_true _

theorem eqIgnoreAsciiCase_comm (a b : String) : eqIgnoreAsciiCase a b = eqIgnoreAsciiCase b a := by
  rw [Bool.eq_iff_iff, eqIgnoreAsciiCase_iff, eqIgnoreAsciiCase_iff]
  exact eq_comm

theorem eqIgnoreAsciiCase_congr {a b : String} (same : eqIgnoreAsciiCase a b = true) (c : String) :
    eqIgnoreAsciiCase c a = eqIgnoreAsciiCase c b := by
  have lower := eqIgnoreAsciiCase_iff.mp same
  unfold eqIgnoreAsciiCase
  rw [lower]

theorem exists_unlisted (texts : List String) : ∃ s, s ∉ texts := by
  have longer : ∃ n, ∀ t ∈ texts, t.toList.length < n := by
    induction texts with
    | nil => exact ⟨0, by simp⟩
    | cons t rest ih =>
      obtain ⟨n, bound⟩ := ih
      refine ⟨max n (t.toList.length + 1), ?_⟩
      intro u mem
      rcases List.mem_cons.mp mem with here | later
      · rw [here]
        omega
      · have := bound u later
        omega
  obtain ⟨n, bound⟩ := longer
  refine ⟨.ofList (List.replicate n 'x'), ?_⟩
  intro mem
  have size := bound _ mem
  rw [String.toList_ofList, List.length_replicate] at size
  omega

def startsWith (pre s : String) : Bool := pre.toList.isPrefixOf s.toList

def endsWith (suf s : String) : Bool := suf.toList.isSuffixOf s.toList

def contains (part s : String) : Bool := decide (part.toList <:+: s.toList)

def stripPrefix (pre s : String) : Option String :=
  if startsWith pre s then some (.ofList (s.toList.drop pre.toList.length)) else none

def stripSuffix (suf s : String) : Option String :=
  if endsWith suf s then
    some (.ofList (s.toList.take (s.toList.length - suf.toList.length)))
  else none

theorem stripPrefix_some_iff (pre s text : String) :
    stripPrefix pre s = some text ↔ s = pre ++ text := by
  have texts : s = pre ++ text ↔ s.toList = pre.toList ++ text.toList := by
    rw [← String.toList_inj, String.toList_append]
  rw [texts]
  unfold stripPrefix startsWith
  split
  · rename_i found
    obtain ⟨rest, whole⟩ := List.isPrefixOf_iff_prefix.mp found
    rw [← whole, List.drop_left, Option.some.injEq, List.append_cancel_left_eq]
    constructor
    · intro same
      rw [← same, String.toList_ofList]
    · intro same
      rw [same, String.ofList_toList]
  · rename_i missing
    constructor
    · intro same
      cases same
    · intro whole
      exact absurd (List.isPrefixOf_iff_prefix.mpr (whole ▸ List.prefix_append _ _)) missing

theorem stripSuffix_append (text suf : String) : stripSuffix suf (text ++ suf) = some text := by
  have found : endsWith suf (text ++ suf) = true := by
    rw [endsWith, List.isSuffixOf_iff_suffix, String.toList_append]
    exact List.suffix_append _ _
  rw [stripSuffix, if_pos found, String.toList_append, List.length_append, Nat.add_sub_cancel,
    List.take_left', String.ofList_toList]
  rfl

def splitAtChar (c : Char) (s : String) : Option (String × String) :=
  if c ∈ s.toList then
    some (.ofList (s.toList.takeWhile (· != c)), .ofList (s.toList.dropWhile (· != c)))
  else none

theorem splitAtChar_append {c : Char} {start : List Char} (absent : c ∉ start)
    (rest : List Char) : splitAtChar c (.ofList (start ++ c :: rest)) =
      some (.ofList start, .ofList (c :: rest)) := by
  have before : ∀ d ∈ start, (d != c) = true := by
    intro d mem
    rw [bne_iff_ne]
    intro same
    exact absent (same ▸ mem)
  rw [splitAtChar, String.toList_ofList, if_pos (by simp),
    List.takeWhile_append_of_pos before, List.dropWhile_append_of_pos before]
  simp

theorem splitAtChar_absent {c : Char} {s : String} (absent : c ∉ s.toList) :
    splitAtChar c s = none := by
  rw [splitAtChar, if_neg absent]

def replaceChars (pattern into : List Char) : Nat → List Char → List Char
  | _, [] => []
  | passed + 1, _ :: rest => replaceChars pattern into passed rest
  | 0, c :: rest =>
    if pattern.isPrefixOf (c :: rest) then into ++ replaceChars pattern into (pattern.length - 1) rest
    else c :: replaceChars pattern into 0 rest

def replace (pattern into s : String) : String :=
  .ofList (replaceChars pattern.toList into.toList 0 s.toList)

theorem replaceChars_absent (first : Char) (pattern into start rest : List Char)
    (absent : first ∉ start) : replaceChars (first :: pattern) into 0 (start ++ rest) =
      start ++ replaceChars (first :: pattern) into 0 rest := by
  induction start with
  | nil => rfl
  | cons c start ih =>
    rw [List.mem_cons, not_or] at absent
    have apart : ¬ (first :: pattern).isPrefixOf (c :: (start ++ rest)) = true := by
      simp [absent.1]
    rw [List.cons_append, replaceChars, if_neg apart, ih absent.2]
    rfl

theorem replaceChars_passed (pattern into skipped rest : List Char) :
    replaceChars pattern into skipped.length (skipped ++ rest) = replaceChars pattern into 0 rest := by
  induction skipped with
  | nil => rfl
  | cons c skipped ih => exact ih

theorem replace_once {pattern : List Char} {first : Char} {start rest : List Char}
    (before : first ∉ start) (after : first ∉ rest) (into : String) :
    replace (.ofList (first :: pattern)) into (.ofList (start ++ first :: pattern ++ rest)) =
      .ofList (start ++ into.toList ++ rest) := by
  have met : (first :: pattern).isPrefixOf (first :: (pattern ++ rest)) = true :=
    List.isPrefixOf_iff_prefix.mpr (List.prefix_append (first :: pattern) rest)
  have unchanged := replaceChars_absent first pattern into.toList rest [] after
  rw [List.append_nil] at unchanged
  rw [replace, String.toList_ofList, String.toList_ofList, List.append_assoc,
    replaceChars_absent first pattern into.toList start _ before, List.cons_append, replaceChars,
    if_pos met, List.length_cons, Nat.add_sub_cancel, replaceChars_passed, unchanged, replaceChars,
    List.append_nil, List.append_assoc]

def afterLast (c : Char) (s : String) : Option String :=
  if c ∈ s.toList then some (.ofList (s.toList.rtakeWhile (· != c))) else none

def split (p : Char → Bool) (s : String) : List String :=
  (s.toList.splitOnP p).map .ofList

theorem split_head (p : Char → Bool) (s fallback : String) :
    (split p s).headD fallback = .ofList (s.toList.takeWhile fun c => !p c) := by
  have first : ∀ chars : List Char, ∃ rest,
      chars.splitOnP p = chars.takeWhile (fun c => !p c) :: rest := by
    intro chars
    induction chars with
    | nil => exact ⟨[], rfl⟩
    | cons c chars ih =>
      obtain ⟨rest, later⟩ := ih
      rw [List.splitOnP_cons_eq_if_modifyHead, List.takeWhile_cons, later]
      cases p c
      · exact ⟨rest, rfl⟩
      · exact ⟨_, rfl⟩
  obtain ⟨rest, parts⟩ := first s.toList
  rw [split, parts]
  rfl

theorem split_whole {p : Char → Bool} {s : String} (unbroken : ∀ c ∈ s.toList, p c = false) :
    split p s = [s] := by
  rw [split, List.splitOnP_eq_singleton fun c mem => by simp [unbroken c mem]]
  rw [List.map_singleton, String.ofList_toList]

theorem splitOnP_flatten (p : Char → Bool) (chars : List Char) :
    (chars.splitOnP p).flatten = chars.filter fun c => !p c := by
  induction chars with
  | nil => rfl
  | cons c rest ih =>
    rw [List.splitOnP_cons_eq_if_modifyHead, List.filter_cons]
    cases p c with
    | true => exact ih
    | false =>
      obtain ⟨part, parts, shape⟩ := List.exists_cons_of_ne_nil (List.splitOnP_ne_nil p rest)
      rw [shape] at ih ⊢
      exact congrArg (c :: ·) ih

theorem split_unbroken {p : Char → Bool} {s part : String} (mem : part ∈ split p s) :
    ∀ c ∈ part.toList, p c = false := by
  obtain ⟨chars, listed, rfl⟩ := List.mem_map.mp mem
  intro c inside
  rw [String.toList_ofList] at inside
  have kept : c ∈ (s.toList.splitOnP p).flatten := List.mem_flatten.mpr ⟨chars, listed, inside⟩
  rw [splitOnP_flatten] at kept
  exact (Bool.not_eq_true' _).mp (List.mem_filter.mp kept).2

def join (sep : String) : List String → String
  | [] => ""
  | [s] => s
  | s :: rest => s ++ sep ++ join sep rest

theorem join_empty_chars (parts : List String) :
    (join "" parts).toList = parts.flatMap String.toList := by
  induction parts with
  | nil => rfl
  | cons first rest ih =>
    cases rest with
    | nil => exact (List.flatMap_singleton _ _).symm
    | cons second more =>
      have joined : join "" (first :: second :: more) =
          first ++ "" ++ join "" (second :: more) := rfl
      rw [joined, String.toList_append, String.append_empty, ih]
      rfl

theorem split_join {p : Char → Bool} {c : Char} (separates : p c = true) (first : String)
    (rest : List String) :
    split p (join (.singleton c) (first :: rest)) = (first :: rest).flatMap (split p) := by
  induction rest generalizing first with
  | nil => simp [join]
  | cons second rest ih =>
    have joined : (join (.singleton c) (first :: second :: rest)).toList =
        first.toList ++ c :: (join (.singleton c) (second :: rest)).toList := by
      simp [join]
    rw [List.flatMap_cons, ← ih second, split, joined,
      List.splitOnP_append_cons _ _ separates, List.map_append]
    rfl

class UnicodeCase where
  upper : Char → List Char
  upper_ascii : ∀ c : Char, c.toNat < 128 → upper c = [c.toUpper]

def toUppercase [UnicodeCase] (s : String) : String :=
  .ofList (s.toList.flatMap UnicodeCase.upper)

@[reducible] def asciiCase : UnicodeCase where
  upper c := [c.toUpper]
  upper_ascii _ _ := rfl

example : trim "  a b\t" = "a b" := by decide
example : split (· == ',') "USA,,GBR" = ["USA", "", "GBR"] := by decide

end RustText
