import Mathlib.Data.List.Basic

/-!
Markup as a streaming writer puts it out: tags, text and attributes, the latter
two escaped. A written document is a sequence of tags, each with the text that
follows it, and that sequence can be read off the characters again.
-/
namespace MarkupText

class MarkupEscape where
  escape : String → String
  injective : ∀ s t, escape s = escape t → s = t
  plain : ∀ s, ∀ c ∈ (escape s).toList, c ≠ '<' ∧ c ≠ '>' ∧ c ≠ '"'

section Cut

variable {α : Type}

theorem cut_at {c : α} {a b r s : List α} (freeA : c ∉ a) (freeB : c ∉ b)
    (same : a ++ c :: r = b ++ c :: s) : a = b ∧ r = s := by
  induction a generalizing b with
  | nil =>
    cases b with
    | nil =>
      simp only [List.nil_append, List.cons.injEq, true_and] at same
      exact ⟨rfl, same⟩
    | cons d b =>
      simp only [List.nil_append, List.cons_append, List.cons.injEq] at same
      exact absurd (same.1 ▸ List.mem_cons_self) freeB
  | cons d a ih =>
    cases b with
    | nil =>
      simp only [List.nil_append, List.cons_append, List.cons.injEq] at same
      exact absurd (same.1 ▸ List.mem_cons_self) freeA
    | cons e b =>
      simp only [List.cons_append, List.cons.injEq] at same
      have rest := ih (fun mem => freeA (List.mem_cons_of_mem _ mem))
        (fun mem => freeB (List.mem_cons_of_mem _ mem)) same.2
      exact ⟨by rw [same.1, rest.1], rest.2⟩

theorem skip_prefix {skipped : α → Prop} {a b r s : List α} {x y : α}
    (insideA : ∀ e ∈ a, skipped e) (insideB : ∀ e ∈ b, skipped e) (outX : ¬ skipped x)
    (outY : ¬ skipped y) (same : a ++ x :: r = b ++ y :: s) : x :: r = y :: s := by
  induction a generalizing b with
  | nil =>
    cases b with
    | nil => exact same
    | cons d b =>
      simp only [List.nil_append, List.cons_append, List.cons.injEq] at same
      exact absurd (same.1 ▸ insideB d List.mem_cons_self) outX
  | cons d a ih =>
    cases b with
    | nil =>
      simp only [List.nil_append, List.cons_append, List.cons.injEq] at same
      exact absurd (same.1 ▸ insideA d List.mem_cons_self) outY
    | cons e b =>
      simp only [List.cons_append, List.cons.injEq] at same
      exact ih (fun f mem => insideA f (List.mem_cons_of_mem _ mem))
        (fun f mem => insideB f (List.mem_cons_of_mem _ mem)) same.2

end Cut

structure Segment where
  tag : List Char
  text : List Char

def Segment.render (s : Segment) : List Char := '<' :: s.tag ++ '>' :: s.text

def renderSegments (segments : List Segment) : List Char := segments.flatMap Segment.render

def Segment.Clean (s : Segment) : Prop := '>' ∉ s.tag ∧ '<' ∉ s.text

theorem renderSegments_head (segments : List Segment) :
    renderSegments segments = [] ∨ ∃ r, renderSegments segments = '<' :: r := by
  cases segments with
  | nil => exact .inl rfl
  | cons s rest => exact .inr ⟨_, rfl⟩

theorem text_cut {t u : List Char} {xs ys : List Segment} (freeT : '<' ∉ t) (freeU : '<' ∉ u)
    (same : t ++ renderSegments xs = u ++ renderSegments ys) :
    t = u ∧ renderSegments xs = renderSegments ys := by
  have opener : ∀ {v w r : List Char}, '<' ∉ w → v ++ '<' :: r ≠ w := by
    intro v w r free equal
    exact free (equal ▸ List.mem_append_right _ List.mem_cons_self)
  rcases renderSegments_head xs with emptyX | ⟨r, headX⟩
  · rcases renderSegments_head ys with emptyY | ⟨s, headY⟩
    · rw [emptyX, emptyY, List.append_nil, List.append_nil] at same
      exact ⟨same, by rw [emptyX, emptyY]⟩
    · rw [emptyX, headY, List.append_nil] at same
      exact absurd same.symm (opener freeT)
  · rcases renderSegments_head ys with emptyY | ⟨s, headY⟩
    · rw [emptyY, headX, List.append_nil] at same
      exact absurd same (opener freeU)
    · rw [headX, headY] at same ⊢
      obtain ⟨texts, rests⟩ := cut_at freeT freeU same
      exact ⟨texts, by rw [rests]⟩

theorem renderSegments_injective {xs ys : List Segment} (cleanX : ∀ s ∈ xs, s.Clean)
    (cleanY : ∀ s ∈ ys, s.Clean) (same : renderSegments xs = renderSegments ys) : xs = ys := by
  induction xs generalizing ys with
  | nil =>
    cases ys with
    | nil => rfl
    | cons y ys => simp [renderSegments, Segment.render] at same
  | cons x xs ih =>
    cases ys with
    | nil => simp [renderSegments, Segment.render] at same
    | cons y ys =>
      have hereX := cleanX x List.mem_cons_self
      have hereY := cleanY y List.mem_cons_self
      have tails : x.tag ++ '>' :: (x.text ++ renderSegments xs) =
          y.tag ++ '>' :: (y.text ++ renderSegments ys) := by
        simpa [renderSegments, Segment.render] using same
      obtain ⟨tags, rest⟩ := cut_at hereX.1 hereY.1 tails
      obtain ⟨texts, remaining⟩ := text_cut hereX.2 hereY.2 rest
      rw [ih (fun s mem => cleanX s (List.mem_cons_of_mem _ mem))
        (fun s mem => cleanY s (List.mem_cons_of_mem _ mem)) remaining]
      cases x
      cases y
      simp only at tags texts
      rw [tags, texts]

section Entities

def apostrophe : Char := Char.ofNat 39

/-- The five predefined entities. -/
def entities : List (Char × List Char) :=
  [('<', "&lt;".toList), ('>', "&gt;".toList), ('&', "&amp;".toList), ('"', "&quot;".toList),
    (apostrophe, "&apos;".toList)]

def entityOf (c : Char) : List Char :=
  match entities.find? fun e => e.1 == c with
  | some e => e.2
  | none => [c]

theorem flatMap_injective {α β : Type} (f : α → List β) (nonempty : ∀ a, f a ≠ [])
    (determined : ∀ a b r s, f a ++ r = f b ++ s → a = b) (xs ys : List α)
    (same : xs.flatMap f = ys.flatMap f) : xs = ys := by
  induction xs generalizing ys with
  | nil =>
    cases ys with
    | nil => rfl
    | cons y ys =>
      simp only [List.flatMap_nil, List.flatMap_cons] at same
      exact absurd (List.append_eq_nil_iff.mp same.symm).1 (nonempty y)
  | cons x xs ih =>
    cases ys with
    | nil =>
      simp only [List.flatMap_nil, List.flatMap_cons] at same
      exact absurd (List.append_eq_nil_iff.mp same).1 (nonempty x)
    | cons y ys =>
      simp only [List.flatMap_cons] at same
      obtain rfl := determined x y _ _ same
      rw [ih ys (List.append_cancel_left same)]

theorem entityOf_cases (c : Char) :
    (c, entityOf c) ∈ entities ∨ c ∉ entities.map Prod.fst ∧ entityOf c = [c] := by
  unfold entityOf
  cases found : entities.find? fun e => e.1 == c with
  | some e =>
    have hit : e.1 = c := by simpa using List.find?_some found
    exact .inl (hit ▸ List.mem_of_find?_eq_some found)
  | none =>
    refine .inr ⟨fun mem => ?_, rfl⟩
    obtain ⟨e, listed, same⟩ := List.mem_map.mp mem
    have := List.find?_eq_none.mp found e listed
    simp [same] at this

theorem entityOf_nonempty (c : Char) : entityOf c ≠ [] := by
  have coded : ∀ e ∈ entities, e.2 ≠ [] := by decide
  rcases entityOf_cases c with listed | ⟨_, self⟩
  · exact coded _ listed
  · rw [self]
    exact List.cons_ne_nil _ _

theorem entityOf_determined (a b : Char) (r s : List Char)
    (same : entityOf a ++ r = entityOf b ++ s) : a = b := by
  have codes : ∀ e ∈ entities, e.2.head? = some '&' ∧ 3 ≤ e.2.length := by decide
  have distinct : ∀ e ∈ entities, ∀ f ∈ entities, e.2.take 3 = f.2.take 3 → e.1 = f.1 := by decide
  have ampersand : ∀ c d u v, (c, entityOf c) ∈ entities → d ∉ entities.map Prod.fst →
      entityOf c ++ u ≠ d :: v := by
    intro c d u v listed plain equal
    have first : (entityOf c ++ u).head? = some '&' := by
      rw [List.head?_append, (codes _ listed).1]
      rfl
    rw [equal, List.head?_cons, Option.some.injEq] at first
    exact plain (first ▸ by decide)
  rcases entityOf_cases a with codeA | ⟨plainA, selfA⟩
  · rcases entityOf_cases b with codeB | ⟨plainB, selfB⟩
    · refine distinct _ codeA _ codeB ?_
      have prefixes := congrArg (List.take 3) same
      rwa [List.take_append_of_le_length (codes _ codeA).2,
        List.take_append_of_le_length (codes _ codeB).2] at prefixes
    · rw [selfB] at same
      exact absurd same (ampersand a b r s codeA plainB)
  · rcases entityOf_cases b with codeB | ⟨plainB, selfB⟩
    · rw [selfA] at same
      exact absurd same.symm (ampersand b a s r codeB plainA)
    · rw [selfA, selfB] at same
      exact (List.cons.inj same).1

theorem entityOf_plain (c d : Char) (mem : d ∈ entityOf c) : d ≠ '<' ∧ d ≠ '>' ∧ d ≠ '"' := by
  have checked : entities.all (fun e => e.2.all fun d => d ≠ '<' ∧ d ≠ '>' ∧ d ≠ '"') = true := by
    decide
  have coded : ∀ e ∈ entities, ∀ d ∈ e.2, d ≠ '<' ∧ d ≠ '>' ∧ d ≠ '"' := by
    simpa using checked
  rcases entityOf_cases c with listed | ⟨plain, self⟩
  · exact coded _ listed d mem
  · rw [self, List.mem_singleton] at mem
    rw [mem]
    refine ⟨?_, ?_, ?_⟩ <;> rintro rfl <;> exact plain (by decide)

@[reducible] def entityEscape : MarkupEscape where
  escape s := .ofList (s.toList.flatMap entityOf)
  injective := by
    intro s t same
    have chars := congrArg String.toList same
    rw [String.toList_ofList, String.toList_ofList] at chars
    exact String.toList_inj.mp
      (flatMap_injective entityOf entityOf_nonempty entityOf_determined _ _ chars)
  plain := by
    intro s c mem
    rw [String.toList_ofList, List.mem_flatMap] at mem
    obtain ⟨d, _, inside⟩ := mem
    exact entityOf_plain d c inside

end Entities

variable [MarkupEscape]

/-- What is handed to the writer. -/
inductive Event where
  | decl (version encoding : String)
  | start (name : String) (attributes : List (String × String))
  | empty (name : String) (attributes : List (String × String))
  | text (s : String)
  | finish (name : String)

def attributeText (a : String × String) : List Char :=
  ' ' :: a.1.toList ++ '=' :: '"' :: (MarkupEscape.escape a.2).toList ++ ['"']

def Event.tag : Event → Option (List Char)
  | .decl version encoding => some ("?xml version=\"".toList ++ version.toList ++
      "\" encoding=\"".toList ++ encoding.toList ++ "\"?".toList)
  | .start name attributes => some (name.toList ++ attributes.flatMap attributeText)
  | .empty name attributes => some (name.toList ++ attributes.flatMap attributeText ++ ['/'])
  | .text _ => none
  | .finish name => some ('/' :: name.toList)

def Event.render (e : Event) : List Char :=
  match e with
  | .text s => (MarkupEscape.escape s).toList
  | _ => '<' :: e.tag.getD [] ++ ['>']

def renderEvents (events : List Event) : List Char := events.flatMap Event.render

def segmentsOf : List Event → List Char × List Segment
  | [] => ([], [])
  | .text s :: rest => ((MarkupEscape.escape s).toList ++ (segmentsOf rest).1, (segmentsOf rest).2)
  | e :: rest => ([], ⟨e.tag.getD [], (segmentsOf rest).1⟩ :: (segmentsOf rest).2)

theorem renderEvents_eq (events : List Event) :
    renderEvents events = (segmentsOf events).1 ++ renderSegments (segmentsOf events).2 := by
  induction events with
  | nil => rfl
  | cons e rest ih =>
    have split : renderEvents (e :: rest) = e.render ++ renderEvents rest := rfl
    rw [split, ih]
    cases e <;> simp [segmentsOf, Event.render, renderSegments, Segment.render]

theorem escape_free (s : String) : '<' ∉ (MarkupEscape.escape s).toList := fun mem =>
  (MarkupEscape.plain s _ mem).1 rfl

def Event.Plain (e : Event) : Prop := ∀ tag, e.tag = some tag → '>' ∉ tag

theorem segmentsOf_clean (events : List Event) (plain : ∀ e ∈ events, e.Plain) :
    '<' ∉ (segmentsOf events).1 ∧ ∀ s ∈ (segmentsOf events).2, s.Clean := by
  induction events with
  | nil => exact ⟨List.not_mem_nil, fun s mem => absurd mem List.not_mem_nil⟩
  | cons e rest ih =>
    obtain ⟨lead, later⟩ := ih fun f mem => plain f (List.mem_cons_of_mem _ mem)
    have here := plain e List.mem_cons_self
    have tagged : ∀ tag, e.tag = some tag → '<' ∉ ([] : List Char) ∧
        ∀ s ∈ Segment.mk tag (segmentsOf rest).1 :: (segmentsOf rest).2, s.Clean := by
      intro tag same
      refine ⟨List.not_mem_nil, fun s mem => ?_⟩
      rcases List.mem_cons.mp mem with rfl | mem
      · exact ⟨here tag same, lead⟩
      · exact later s mem
    cases e with
    | text s =>
      refine ⟨fun mem => ?_, later⟩
      rcases List.mem_append.mp mem with own | after
      · exact escape_free s own
      · exact lead after
    | decl version encoding => exact tagged _ rfl
    | start name attributes => exact tagged _ rfl
    | empty name attributes => exact tagged _ rfl
    | finish name => exact tagged _ rfl

theorem segments_of_same_text {xs ys : List Event} (plainX : ∀ e ∈ xs, e.Plain)
    (plainY : ∀ e ∈ ys, e.Plain) (same : renderEvents xs = renderEvents ys) :
    segmentsOf xs = segmentsOf ys := by
  obtain ⟨leadX, cleanX⟩ := segmentsOf_clean xs plainX
  obtain ⟨leadY, cleanY⟩ := segmentsOf_clean ys plainY
  rw [renderEvents_eq, renderEvents_eq] at same
  obtain ⟨leads, rests⟩ := text_cut leadX leadY same
  exact Prod.ext leads (renderSegments_injective cleanX cleanY rests)

theorem segmentsOf_append (xs ys : List Event) (bounded : (segmentsOf ys).1 = []) :
    segmentsOf (xs ++ ys) = ((segmentsOf xs).1, (segmentsOf xs).2 ++ (segmentsOf ys).2) := by
  induction xs with
  | nil => simp [segmentsOf, ← bounded]
  | cons e rest ih => cases e <;> simp [segmentsOf, ih]

def Bounded (events : List Event) : Prop := (segmentsOf events).1 = []

theorem bounded_append {xs ys : List Event} (first : Bounded xs) (second : Bounded ys) :
    Bounded (xs ++ ys) := by
  unfold Bounded at *
  rw [segmentsOf_append xs ys second]
  exact first

theorem bounded_flatMap {α : Type} (f : α → List Event) (items : List α)
    (each : ∀ a, Bounded (f a)) : Bounded (items.flatMap f) := by
  induction items with
  | nil => rfl
  | cons a rest ih => exact bounded_append (each a) ih

theorem segmentsOf_flatMap {α : Type} (f : α → List Event) (items : List α)
    (each : ∀ a, Bounded (f a)) :
    (segmentsOf (items.flatMap f)).2 = items.flatMap fun a => (segmentsOf (f a)).2 := by
  induction items with
  | nil => rfl
  | cons a rest ih =>
    rw [List.flatMap_cons, segmentsOf_append _ _ (bounded_flatMap f rest each), List.flatMap_cons,
      ← ih]

theorem plain_start (name : String) (attributes : List (String × String))
    (free : '>' ∉ name.toList) (freeNames : ∀ a ∈ attributes, '>' ∉ a.1.toList) :
    (Event.start name attributes).Plain := by
  intro tag same
  obtain rfl := Option.some.inj same
  intro mem
  rcases List.mem_append.mp mem with own | inAttributes
  · exact free own
  · obtain ⟨a, listed, inside⟩ := List.mem_flatMap.mp inAttributes
    have value : '>' ∉ (MarkupEscape.escape a.2).toList := fun mem =>
      (MarkupEscape.plain a.2 _ mem).2.1 rfl
    simp [attributeText, freeNames a listed, value] at inside

theorem plain_finish (name : String) (free : '>' ∉ name.toList) : (Event.finish name).Plain := by
  intro tag same
  obtain rfl := Option.some.inj same
  simpa using free

theorem plain_text (s : String) : (Event.text s).Plain := by
  intro tag same
  cases same

theorem escape_toList_injective {s t : String}
    (same : (MarkupEscape.escape s).toList = (MarkupEscape.escape t).toList) : s = t :=
  MarkupEscape.injective s t (String.toList_inj.mp same)

end MarkupText
