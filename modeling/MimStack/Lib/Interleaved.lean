import Mathlib.Data.List.Basic

/-!
Values said one after another, some in places of their own and some by what stands
between these places. What is said first, or last, is said in a place of its own unless
it is what something in between says first, or last.
-/
namespace Interleaved

variable {α : Type}

theorem getLast_filterMap_cons {β : Type} (say : β → Option α) (item : β) (rest : List β)
    (before : Option α) : ((item :: rest).filterMap say).getLast?.or before =
      (rest.filterMap say).getLast?.or ((say item).or before) := by
  rw [List.filterMap_cons]
  cases say item with
  | none => rfl
  | some said =>
    rw [List.getLast?_cons]
    cases (rest.filterMap say).getLast? with
    | none => rfl
    | some last => rfl

/-- Everything that is said: first what is in front, then each thing in between with the place
after it. -/
def allSaid (lead : List α) (parts : List (List α × List α)) : List α :=
  lead ++ parts.flatMap fun part => part.1 ++ part.2

def ownSaid (lead : List α) (parts : List (List α × List α)) : List α :=
  lead ++ parts.flatMap Prod.snd

theorem parts_head (parts : List (List α × List α)) :
    (parts.flatMap fun part => part.1 ++ part.2).head? = (parts.flatMap Prod.snd).head? ∨
      ∃ part ∈ parts, ∃ said, part.1.head? = some said ∧
        (parts.flatMap fun part => part.1 ++ part.2).head? = some said := by
  induction parts with
  | nil => exact Or.inl rfl
  | cons part rest ih =>
    obtain ⟨between, place⟩ := part
    rw [List.flatMap_cons, List.flatMap_cons]
    cases between with
    | cons said more => exact Or.inr ⟨_, List.mem_cons_self, said, rfl, rfl⟩
    | nil =>
      cases place with
      | cons said more => exact Or.inl rfl
      | nil =>
        rcases ih with same | other
        · exact Or.inl same
        · obtain ⟨later, mem, said, first, head⟩ := other
          exact Or.inr ⟨later, List.mem_cons_of_mem _ mem, said, first, head⟩

theorem parts_getLast (parts : List (List α × List α)) :
    (parts.flatMap fun part => part.1 ++ part.2).getLast? = (parts.flatMap Prod.snd).getLast? ∨
      ∃ part ∈ parts, ∃ said, part.1.getLast? = some said ∧
        (parts.flatMap fun part => part.1 ++ part.2).getLast? = some said := by
  induction parts with
  | nil => exact Or.inl rfl
  | cons part rest ih =>
    obtain ⟨between, place⟩ := part
    simp only [List.flatMap_cons, List.getLast?_append]
    rcases ih with same | other
    · rw [same]
      cases (rest.flatMap Prod.snd).getLast? with
      | some said => exact Or.inl rfl
      | none =>
        cases place.getLast? with
        | some said => exact Or.inl rfl
        | none =>
          cases last : between.getLast? with
          | none => exact Or.inl rfl
          | some said => exact Or.inr ⟨_, List.mem_cons_self, said, last, rfl⟩
    · obtain ⟨later, mem, said, last, all⟩ := other
      rw [all]
      exact Or.inr ⟨later, List.mem_cons_of_mem _ mem, said, last, rfl⟩

theorem head_allSaid {lead : List α} {parts : List (List α × List α)}
    (first : lead ≠ [] ∨ ∀ part ∈ parts, ∀ said, part.1.head? = some said →
      (ownSaid lead parts).head? = some said) :
    (allSaid lead parts).head? = (ownSaid lead parts).head? := by
  cases lead with
  | cons said more => rfl
  | nil =>
    rcases first with spoken | agreed
    · exact absurd rfl spoken
    · rcases parts_head parts with same | other
      · exact same
      · obtain ⟨part, mem, said, between, all⟩ := other
        exact all.trans (agreed part mem said between).symm

theorem head_of_between {between place : List α} {rest : List (List α × List α)} {said : α}
    (first : between.head? = some said) :
    (allSaid [] ((between, place) :: rest)).head? = some said := by
  rw [allSaid, List.nil_append, List.flatMap_cons, List.append_assoc, List.head?_append, first]
  rfl

theorem getLast_of_between {lead between : List α} {before : List (List α × List α)} {said : α}
    (last : between.getLast? = some said) :
    (allSaid lead (before ++ [(between, [])])).getLast? = some said := by
  rw [allSaid, List.flatMap_append, List.flatMap_singleton, List.append_nil, List.getLast?_append,
    List.getLast?_append, last]
  rfl

/-- The place at the end. -/
def trail (lead : List α) (parts : List (List α × List α)) : List α :=
  (parts.getLast?.map Prod.snd).getD lead

theorem getLast_trail {lead : List α} {parts : List (List α × List α)}
    (spoken : trail lead parts ≠ []) :
    (allSaid lead parts).getLast? = (trail lead parts).getLast? ∧
      (ownSaid lead parts).getLast? = (trail lead parts).getLast? := by
  rcases List.eq_nil_or_concat parts with rfl | split
  · rw [allSaid, ownSaid, trail]
    simp only [List.flatMap_nil, List.append_nil, List.getLast?_nil, Option.map_none,
      Option.getD_none, and_self]
  · obtain ⟨before, part, rfl⟩ := split
    rw [List.concat_eq_append]
    rw [List.concat_eq_append, trail, List.getLast?_concat, Option.map_some,
      Option.getD_some] at spoken
    rw [trail, List.getLast?_concat, Option.map_some, Option.getD_some]
    rw [allSaid, ownSaid, List.flatMap_append, List.flatMap_append, List.flatMap_singleton,
      List.flatMap_singleton]
    constructor
    · rw [← List.append_assoc, ← List.append_assoc]
      exact List.getLast?_append_of_ne_nil _ spoken
    · rw [← List.append_assoc]
      exact List.getLast?_append_of_ne_nil _ spoken

theorem getLast_allSaid {lead : List α} {parts : List (List α × List α)}
    (last : trail lead parts ≠ [] ∨ ∀ part ∈ parts, ∀ said, part.1.getLast? = some said →
      (ownSaid lead parts).getLast? = some said) :
    (allSaid lead parts).getLast? = (ownSaid lead parts).getLast? := by
  rcases last with spoken | agreed
  · obtain ⟨all, own⟩ := getLast_trail spoken
    exact all.trans own.symm
  · rcases parts_getLast parts with same | other
    · rw [allSaid, ownSaid, List.getLast?_append, List.getLast?_append, same]
    · obtain ⟨part, mem, said, between, all⟩ := other
      rw [agreed part mem said between, allSaid, List.getLast?_append, all]
      rfl

end Interleaved
