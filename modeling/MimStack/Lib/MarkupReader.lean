import Mathlib.Data.List.DropRight
import MimStack.Lib.Markup

/-!
Markup as a pull parser hands it out: tags and the text between them, attributes
and text still escaped, text trimmed and left out where it is blank. The reader at
the end gives back every document a streaming writer puts out.
-/
namespace MarkupText

inductive Token where
  | start (name : String) (attributes : List (String × String))
  | text (raw : String)
  | finish (name : String)
  | other
  deriving DecidableEq

def isBlank (c : Char) : Bool := c == ' ' || c == '\t' || c == '\r' || c == '\n'

def trimBlank (chars : List Char) : List Char := (chars.dropWhile isBlank).rdropWhile isBlank

def textTokens (raw : List Char) : List Token :=
  if (trimBlank raw).isEmpty then [] else [.text (.ofList (trimBlank raw))]

/-- A pull parser: the tokens up to the end of the text or up to an error, and its unescaping. -/
structure MarkupReader where
  read : String → List Token × Option String
  unescape : String → Except String String

theorem trimBlank_eq {chars : List Char} (first : ∀ c ∈ chars.head?, isBlank c = false)
    (last : ∀ c ∈ chars.getLast?, isBlank c = false) : trimBlank chars = chars := by
  have started : chars.dropWhile isBlank = chars := by
    cases chars with
    | nil => rfl
    | cons c rest => exact List.dropWhile_cons_of_neg (by simp [first c rfl])
  rw [trimBlank, started, List.rdropWhile_eq_self_iff]
  intro filled
  simp [last _ (List.getLast_mem_getLast? filled)]

section Entities

/-- The characters that have an entity. -/
def Special (s : String) : Prop := ∃ c ∈ s.toList, c ∈ entities.map Prod.fst

instance (s : String) : Decidable (Special s) :=
  List.decidableBEx _ s.toList

theorem entityOf_ordinary {c : Char} (ordinary : c ∉ entities.map Prod.fst) : entityOf c = [c] := by
  rcases entityOf_cases c with listed | ⟨_, self⟩
  · exact absurd (List.mem_map_of_mem (f := Prod.fst) listed) ordinary
  · exact self

theorem entityOf_length (c : Char) : 1 ≤ (entityOf c).length ∧
    (c ∈ entities.map Prod.fst → 2 ≤ (entityOf c).length) := by
  have codes : ∀ e ∈ entities, 2 ≤ e.2.length := by decide
  rcases entityOf_cases c with listed | ⟨plain, self⟩
  · exact ⟨Nat.le_of_succ_le (codes _ listed), fun _ => codes _ listed⟩
  · rw [self]
    exact ⟨Nat.le_refl 1, fun special => absurd special plain⟩

theorem entities_length (chars : List Char) : chars.length ≤ (chars.flatMap entityOf).length ∧
    ((∃ c ∈ chars, c ∈ entities.map Prod.fst) → chars.length < (chars.flatMap entityOf).length) := by
  induction chars with
  | nil => simp
  | cons c rest ih =>
    obtain ⟨one, two⟩ := entityOf_length c
    obtain ⟨all, more⟩ := ih
    rw [List.flatMap_cons, List.length_append, List.length_cons]
    refine ⟨by omega, ?_⟩
    intro held
    obtain ⟨d, member, special⟩ := held
    rcases List.mem_cons.mp member with rfl | later
    · have := two special
      omega
    · have := more ⟨d, later, special⟩
      omega

theorem entityEscape_self_iff (s : String) : entityEscape.escape s = s ↔ ¬ Special s := by
  have chars : (entityEscape.escape s).toList = s.toList.flatMap entityOf := String.toList_ofList
  constructor
  · intro same special
    have longer := (entities_length s.toList).2 special
    rw [← chars, same] at longer
    exact absurd longer (Nat.lt_irrefl _)
  · intro ordinary
    apply String.toList_inj.mp
    rw [chars]
    have each : ∀ rest : List Char, (∀ c ∈ rest, c ∈ s.toList) → rest.flatMap entityOf = rest := by
      intro rest among
      induction rest with
      | nil => rfl
      | cons c rest ih =>
        have here : c ∉ entities.map Prod.fst := fun special =>
          ordinary ⟨c, among c List.mem_cons_self, special⟩
        rw [List.flatMap_cons, entityOf_ordinary here, ih fun d mem => among d (List.mem_cons_of_mem c mem)]
        rfl
    exact each s.toList fun _ mem => mem

theorem entityOf_ends (c : Char) (visible : isBlank c = false) :
    (∀ d ∈ (entityOf c).head?, isBlank d = false) ∧ ∀ d ∈ (entityOf c).getLast?, isBlank d = false := by
  have codes : ∀ e ∈ entities, e.2.head?.all (!isBlank ·) = true ∧
      e.2.getLast?.all (!isBlank ·) = true := by decide
  rcases entityOf_cases c with listed | ⟨_, self⟩
  · obtain ⟨first, last⟩ := codes _ listed
    exact ⟨fun d mem => by simpa using (Option.all_eq_true _ _).mp first d mem,
      fun d mem => by simpa using (Option.all_eq_true _ _).mp last d mem⟩
  · rw [self]
    constructor
    · intro d same
      obtain rfl := Option.some.inj same
      exact visible
    · intro d same
      obtain rfl := Option.some.inj same
      exact visible

def unescapeEntities : List Char → Option (List Char)
  | [] => some []
  | '&' :: 'l' :: 't' :: ';' :: rest => (unescapeEntities rest).map ('<' :: ·)
  | '&' :: 'g' :: 't' :: ';' :: rest => (unescapeEntities rest).map ('>' :: ·)
  | '&' :: 'a' :: 'm' :: 'p' :: ';' :: rest => (unescapeEntities rest).map ('&' :: ·)
  | '&' :: 'q' :: 'u' :: 'o' :: 't' :: ';' :: rest => (unescapeEntities rest).map ('"' :: ·)
  | '&' :: 'a' :: 'p' :: 'o' :: 's' :: ';' :: rest => (unescapeEntities rest).map (apostrophe :: ·)
  | '&' :: _ => none
  | c :: rest => (unescapeEntities rest).map (c :: ·)

theorem unescapeEntities_ordinary {c : Char} (ordinary : c ≠ '&') (rest : List Char) :
    unescapeEntities (c :: rest) = (unescapeEntities rest).map (c :: ·) := by
  rw [unescapeEntities.eq_def]
  split <;> simp_all

theorem unescapeEntities_entities (chars : List Char) :
    unescapeEntities (chars.flatMap entityOf) = some chars := by
  induction chars with
  | nil => rfl
  | cons c rest ih =>
    rw [List.flatMap_cons]
    rcases entityOf_cases c with listed | ⟨plain, self⟩
    · have step : ∀ e ∈ entities, ∀ later, unescapeEntities (e.2 ++ later) =
          (unescapeEntities later).map (e.1 :: ·) := by
        intro e mem later
        simp only [entities, List.mem_cons, List.not_mem_nil, or_false] at mem
        rcases mem with rfl | rfl | rfl | rfl | rfl <;> rfl
      rw [step _ listed, ih]
      rfl
    · have ordinary : c ≠ '&' := by
        rintro rfl
        exact plain (by decide)
      rw [self, List.singleton_append, unescapeEntities_ordinary ordinary, ih]
      rfl

end Entities

section Reading

mutual

def scanText : List Char → List Char × List Segment
  | [] => ([], [])
  | c :: rest =>
    if c = '<' then ([], [(scanTag rest).1] ++ (scanTag rest).2)
    else (c :: (scanText rest).1, (scanText rest).2)

def scanTag : List Char → Segment × List Segment
  | [] => (⟨[], []⟩, [])
  | c :: rest =>
    if c = '>' then (⟨[], (scanText rest).1⟩, (scanText rest).2)
    else (⟨c :: (scanTag rest).1.tag, (scanTag rest).1.text⟩, (scanTag rest).2)

end

theorem scanTag_render (tag rest : List Char) (free : '>' ∉ tag) :
    scanTag (tag ++ '>' :: rest) = (⟨tag, (scanText rest).1⟩, (scanText rest).2) := by
  induction tag with
  | nil => simp [scanTag]
  | cons c tag ih =>
    obtain ⟨other, later⟩ := not_or.mp (List.mem_cons.not.mp free)
    rw [List.cons_append, scanTag, if_neg (Ne.symm other), ih later]

theorem scanText_render (lead : List Char) (segments : List Segment) (free : '<' ∉ lead)
    (clean : ∀ s ∈ segments, s.Clean) :
    scanText (lead ++ renderSegments segments) = (lead, segments) := by
  induction segments generalizing lead with
  | nil =>
    rw [renderSegments, List.flatMap_nil, List.append_nil]
    induction lead with
    | nil => rfl
    | cons c lead ih =>
      obtain ⟨other, later⟩ := not_or.mp (List.mem_cons.not.mp free)
      rw [scanText, if_neg (Ne.symm other), ih later]
  | cons s segments ih =>
    obtain ⟨tagFree, textFree⟩ := clean s List.mem_cons_self
    have here := ih s.text textFree fun t mem => clean t (List.mem_cons_of_mem s mem)
    have shape : renderSegments (s :: segments) =
        '<' :: (s.tag ++ '>' :: (s.text ++ renderSegments segments)) := by
      simp [renderSegments, Segment.render]
    rw [shape]
    induction lead with
    | nil =>
      rw [List.nil_append, scanText, if_pos rfl, scanTag_render _ _ tagFree, here]
      rfl
    | cons c lead ihLead =>
      obtain ⟨other, later⟩ := not_or.mp (List.mem_cons.not.mp free)
      rw [List.cons_append, scanText, if_neg (Ne.symm other), ihLead later]

def scanAttributes : Nat → List Char → List (String × String)
  | 0, _ => []
  | fuel + 1, chars =>
    let key := chars.tail.takeWhile (· ≠ '=')
    let value := (chars.tail.dropWhile (· ≠ '=')).drop 2
    if chars.isEmpty then []
    else (.ofList key, .ofList (value.takeWhile (· ≠ '"'))) ::
      scanAttributes fuel (value.dropWhile (· ≠ '"')).tail

def tagToken (tag : List Char) : Token :=
  match tag with
  | '/' :: name => .finish (.ofList name)
  | '?' :: _ => .other
  | '!' :: _ => .other
  | _ =>
    if tag.getLast? = some '/' then .other
    else .start (.ofList (tag.takeWhile (· ≠ ' ')))
      (scanAttributes tag.length (tag.dropWhile (· ≠ ' ')))

def segmentTokens (s : Segment) : List Token := tagToken s.tag :: textTokens s.text

def tokens (chars : List Char) : List Token :=
  textTokens (scanText chars).1 ++ (scanText chars).2.flatMap segmentTokens

theorem takeWhile_cut {p : Char → Bool} {s : Char} (chars rest : List Char)
    (inside : ∀ c ∈ chars, p c = true) (outside : p s = false) :
    (chars ++ s :: rest).takeWhile p = chars ∧ (chars ++ s :: rest).dropWhile p = s :: rest := by
  constructor
  · rw [List.takeWhile_append_of_pos inside, List.takeWhile_cons_of_neg (by simp [outside]),
      List.append_nil]
  · rw [List.dropWhile_append_of_pos inside, List.dropWhile_cons_of_neg (by simp [outside])]

end Reading

section RoundTrip

variable [MarkupEscape]

def readBack : Event → List Token
  | .decl _ _ => [.other]
  | .start name attributes => [.start name (attributes.map fun a => (a.1, MarkupEscape.escape a.2))]
  | .empty _ _ => [.other]
  | .text s => textTokens (MarkupEscape.escape s).toList
  | .finish name => [.finish name]

/-- The reader gives back what is written of these events. -/
structure MarkupReader.ReadsBack (R : MarkupReader) (events : List Event) : Prop where
  document : R.read (.ofList (renderEvents events)) = (events.flatMap readBack, none)
  unescapes : ∀ s, R.unescape (MarkupEscape.escape s) = .ok s

def Event.Named : Event → Prop
  | .start name attributes =>
    ' ' ∉ name.toList ∧ (∀ c ∈ name.toList.head?, c ∉ ['/', '?', '!']) ∧
      (∀ c ∈ name.toList.getLast?, c ≠ '/') ∧ name ≠ "" ∧ ∀ a ∈ attributes, '=' ∉ a.1.toList
  | .empty name _ => ∃ c rest, name.toList = c :: rest ∧ c ∉ ['/', '?', '!']
  | _ => True

instance (e : Event) : Decidable e.Plain :=
  inferInstanceAs (Decidable (∀ tag ∈ e.tag, '>' ∉ tag))

instance (e : Event) : Decidable e.Named :=
  match e with
  | .start name attributes =>
    @instDecidableAnd (' ' ∉ name.toList) _ inferInstance
      (@instDecidableAnd _ _ (Option.decidableForallMem _)
        (@instDecidableAnd _ _ (Option.decidableForallMem _)
          (inferInstanceAs (Decidable (name ≠ "" ∧ ∀ a ∈ attributes, '=' ∉ a.1.toList)))))
  | .empty name _ =>
    match begun : name.toList with
    | [] => .isFalse fun named => by
      obtain ⟨c, rest, shape, _⟩ := named
      cases begun.symm.trans shape
    | c :: rest => decidable_of_iff (c ∉ ['/', '?', '!']) ⟨fun other => ⟨c, rest, begun, other⟩, by
      intro held
      obtain ⟨d, later, shape, other⟩ := held
      exact (List.cons.inj (begun.symm.trans shape)).1 ▸ other⟩
  | .decl _ _ => .isTrue trivial
  | .text _ => .isTrue trivial
  | .finish _ => .isTrue trivial

omit [MarkupEscape] in
theorem named_start {name : String} (bare : (Event.start name []).Named)
    {attributes : List (String × String)} (keys : ∀ a ∈ attributes, '=' ∉ a.1.toList) :
    (Event.start name attributes).Named :=
  ⟨bare.1, bare.2.1, bare.2.2.1, bare.2.2.2.1, keys⟩

def Spaced : List Event → Prop
  | [] => True
  | .text _ :: rest => Bounded rest ∧ Spaced rest
  | _ :: rest => Spaced rest

instance decideSpaced : ∀ events, Decidable (Spaced events)
  | [] => .isTrue trivial
  | .text _ :: rest => @instDecidableAnd (Bounded rest) (Spaced rest)
    (inferInstanceAs (Decidable ((segmentsOf rest).1 = []))) (decideSpaced rest)
  | .decl _ _ :: rest => decideSpaced rest
  | .start _ _ :: rest => decideSpaced rest
  | .empty _ _ :: rest => decideSpaced rest
  | .finish _ :: rest => decideSpaced rest

theorem spaced_append {xs ys : List Event} (first : Spaced xs) (second : Spaced ys)
    (bounded : Bounded ys) : Spaced (xs ++ ys) := by
  induction xs with
  | nil => exact second
  | cons e rest ih =>
    cases e with
    | text s =>
      obtain ⟨apart, later⟩ := first
      exact ⟨bounded_append apart bounded, ih later⟩
    | decl version encoding => exact ih first
    | start name attributes => exact ih first
    | empty name attributes => exact ih first
    | finish name => exact ih first

theorem spaced_flatMap {α : Type} (f : α → List Event) (items : List α)
    (each : ∀ a, Spaced (f a) ∧ Bounded (f a)) : Spaced (items.flatMap f) := by
  induction items with
  | nil => trivial
  | cons a rest ih =>
    exact spaced_append (each a).1 ih (bounded_flatMap f rest fun b => (each b).2)

theorem scanAttributes_texts (attributes : List (String × String))
    (named : ∀ a ∈ attributes, '=' ∉ a.1.toList) (fuel : Nat) (enough : attributes.length ≤ fuel) :
    scanAttributes fuel (attributes.flatMap attributeText) =
      attributes.map fun a => (a.1, MarkupEscape.escape a.2) := by
  induction attributes generalizing fuel with
  | nil => cases fuel <;> rfl
  | cons a rest ih =>
    cases fuel with
    | zero => exact absurd enough (Nat.not_succ_le_zero _)
    | succ fuel =>
      have key := takeWhile_cut (p := (· ≠ '=')) (s := '=') a.1.toList
        ('"' :: ((MarkupEscape.escape a.2).toList ++ '"' :: rest.flatMap attributeText))
        (fun c mem => by
          have other : c ≠ '=' := fun same => named a List.mem_cons_self (same ▸ mem)
          simpa using other) (by decide)
      have value := takeWhile_cut (p := (· ≠ '"')) (s := '"') (MarkupEscape.escape a.2).toList
        (rest.flatMap attributeText)
        (fun c mem => by
          have other : c ≠ '"' := (MarkupEscape.plain a.2 c mem).2.2
          simpa using other) (by decide)
      have shape : (a :: rest).flatMap attributeText = ' ' :: (a.1.toList ++ '=' ::
          '"' :: ((MarkupEscape.escape a.2).toList ++ '"' :: rest.flatMap attributeText)) := by
        simp [attributeText]
      have later := ih (fun b mem => named b (List.mem_cons_of_mem a mem)) fuel
        (Nat.le_of_succ_le_succ enough)
      rw [shape, scanAttributes]
      simp only [List.tail_cons, List.isEmpty_cons, Bool.false_eq_true, if_false, key.1, key.2,
        List.drop_succ_cons, List.drop_zero, value.1, value.2, later, String.ofList_toList,
        List.map_cons]

theorem attributes_length (attributes : List (String × String)) :
    attributes.length ≤ (attributes.flatMap attributeText).length := by
  induction attributes with
  | nil => exact Nat.le_refl 0
  | cons a rest ih =>
    rw [List.flatMap_cons, List.length_append, List.length_cons]
    simp only [attributeText, List.cons_append, List.length_cons]
    omega

theorem startTag_cut (name : String) (attributes : List (String × String))
    (unspaced : ' ' ∉ name.toList) :
    (name.toList ++ attributes.flatMap attributeText).takeWhile (· ≠ ' ') = name.toList ∧
      (name.toList ++ attributes.flatMap attributeText).dropWhile (· ≠ ' ') =
        attributes.flatMap attributeText := by
  have inside : ∀ d ∈ name.toList, (decide (d ≠ ' ')) = true := by
    intro d mem
    have other : d ≠ ' ' := fun same => unspaced (same ▸ mem)
    simpa using other
  cases attributes with
  | nil =>
    rw [List.flatMap_nil, List.append_nil, List.takeWhile_eq_self_iff, List.dropWhile_eq_nil_iff]
    exact ⟨inside, inside⟩
  | cons a others => exact takeWhile_cut name.toList _ inside (by decide)

theorem startTag_open (name : String) (attributes : List (String × String))
    (last : ∀ c ∈ name.toList.getLast?, c ≠ '/') :
    (name.toList ++ attributes.flatMap attributeText).getLast? ≠ some '/' := by
  cases attributes using List.reverseRecOn with
  | nil =>
    rw [List.flatMap_nil, List.append_nil]
    exact fun slash => last '/' (by rw [slash]; rfl) rfl
  | append_singleton others a =>
    have quoted : name.toList ++ (others ++ [a]).flatMap attributeText =
        name.toList ++ others.flatMap attributeText ++
          (' ' :: a.1.toList ++ '=' :: '"' :: (MarkupEscape.escape a.2).toList) ++ ['"'] := by
      simp [attributeText]
    rw [quoted, List.getLast?_concat]
    decide

omit [MarkupEscape] in
theorem tagToken_open {c : Char} {tag : List Char} (opening : c ∉ ['/', '?', '!'])
    (begins : tag.head? = some c) (ends : tag.getLast? ≠ some '/') :
    tagToken tag = .start (.ofList (tag.takeWhile (· ≠ ' ')))
      (scanAttributes tag.length (tag.dropWhile (· ≠ ' '))) := by
  simp only [List.mem_cons, List.not_mem_nil, or_false, not_or] at opening
  rw [tagToken.eq_def]
  split
  · exact absurd (Option.some.inj begins).symm opening.1
  · exact absurd (Option.some.inj begins).symm opening.2.1
  · exact absurd (Option.some.inj begins).symm opening.2.2
  · rw [if_neg ends]

theorem tagToken_start (name : String) (attributes : List (String × String))
    (named : (Event.start name attributes).Named) :
    tagToken (name.toList ++ attributes.flatMap attributeText) =
      .start name (attributes.map fun a => (a.1, MarkupEscape.escape a.2)) := by
  obtain ⟨unspaced, first, last, filled, keys⟩ := named
  obtain ⟨c, rest, shape⟩ : ∃ c rest, name.toList = c :: rest :=
    List.exists_cons_of_ne_nil fun empty => filled (String.toList_inj.mp empty)
  have opening : c ∉ ['/', '?', '!'] := first c (by rw [shape]; rfl)
  have begins : (name.toList ++ attributes.flatMap attributeText).head? = some c := by
    rw [shape]
    rfl
  have enough : attributes.length ≤ (name.toList ++ attributes.flatMap attributeText).length := by
    rw [List.length_append]
    exact Nat.le_add_left_of_le (attributes_length attributes)
  obtain ⟨before, after⟩ := startTag_cut name attributes unspaced
  rw [tagToken_open opening begins (startTag_open name attributes last), before, after,
    scanAttributes_texts _ keys _ enough, String.ofList_toList]

theorem tagToken_tag {e : Event} {tag : List Char} (tagged : e.tag = some tag) (named : e.Named) :
    [tagToken tag] = readBack e := by
  cases e with
  | text s => cases tagged
  | decl version encoding =>
    obtain rfl := Option.some.inj tagged
    rfl
  | finish name =>
    obtain rfl := Option.some.inj tagged
    simp [tagToken, readBack]
  | start name attributes =>
    obtain rfl := Option.some.inj tagged
    rw [tagToken_start name attributes named, readBack]
  | empty name attributes =>
    obtain rfl := Option.some.inj tagged
    obtain ⟨c, rest, shape, opening⟩ := named
    simp only [List.mem_cons, List.not_mem_nil, or_false, not_or] at opening
    rw [shape, tagToken.eq_def]
    split
    · rename_i same
      exact absurd (List.cons.inj same).1 opening.1
    · rename_i same
      exact absurd (List.cons.inj same).1 opening.2.1
    · rfl
    · rw [if_pos List.getLast?_concat]
      rfl

theorem tokens_segments (events : List Event) (named : ∀ e ∈ events, e.Named)
    (spaced : Spaced events) :
    textTokens (segmentsOf events).1 ++ (segmentsOf events).2.flatMap segmentTokens =
      events.flatMap readBack := by
  have blank : textTokens [] = [] := rfl
  induction events with
  | nil => rfl
  | cons e rest ih =>
    have later := ih fun f mem => named f (List.mem_cons_of_mem e mem)
    have tagged : ∀ tag, e.tag = some tag → Spaced rest →
        textTokens [] ++ (Segment.mk tag (segmentsOf rest).1 :: (segmentsOf rest).2).flatMap
          segmentTokens = (e :: rest).flatMap readBack := by
      intro tag own apart
      rw [List.flatMap_cons, List.flatMap_cons, ← later apart,
        ← tagToken_tag own (named e List.mem_cons_self), segmentTokens, blank]
      simp
    cases e with
    | text s =>
      obtain ⟨bounded, apart⟩ := spaced
      have lead : (segmentsOf rest).1 = [] := bounded
      have tail := later apart
      rw [lead, blank, List.nil_append] at tail
      rw [List.flatMap_cons, ← tail, segmentsOf, lead, List.append_nil]
      rfl
    | decl version encoding => exact tagged _ rfl spaced
    | start name attributes => exact tagged _ rfl spaced
    | empty name attributes => exact tagged _ rfl spaced
    | finish name => exact tagged _ rfl spaced

theorem tokens_renderEvents (events : List Event) (plain : ∀ e ∈ events, e.Plain)
    (named : ∀ e ∈ events, e.Named) (spaced : Spaced events) :
    tokens (renderEvents events) = events.flatMap readBack := by
  obtain ⟨lead, clean⟩ := segmentsOf_clean events plain
  rw [tokens, renderEvents_eq, scanText_render _ _ lead clean]
  exact tokens_segments events named spaced

end RoundTrip

def entityReader : MarkupReader where
  read data := (tokens data.toList, none)
  unescape raw :=
    match unescapeEntities raw.toList with
    | some chars => .ok (.ofList chars)
    | none => .error "Cannot find `;` after `&`"

theorem entityReader_readsBack (events : List Event) : letI := entityEscape
    (∀ e ∈ events, e.Plain) → (∀ e ∈ events, e.Named) → Spaced events →
      entityReader.ReadsBack events := by
  let : MarkupEscape := entityEscape
  intro plain named spaced
  refine ⟨?_, fun s => ?_⟩
  · rw [entityReader]
    simp only [String.toList_ofList, tokens_renderEvents events plain named spaced]
  · have chars : (entityEscape.escape s).toList = s.toList.flatMap entityOf := String.toList_ofList
    simp only [entityReader, chars, unescapeEntities_entities, String.ofList_toList]

end MarkupText
