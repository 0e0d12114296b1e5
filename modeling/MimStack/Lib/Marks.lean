import Mathlib.Data.List.Infix

/-!
Sequences cut at a marker of several symbols, from left to right: what stands before the
first occurrence, and after each occurrence what stands before the next. The marker is
not empty.
-/
namespace Marks

variable {α : Type}

def Quiet (marker start rest : List α) : Prop :=
  ∀ part, part ≠ [] → part <:+ start → ¬ marker <+: part ++ rest

theorem quiet_append {marker start more rest : List α} (first : Quiet marker start (more ++ rest))
    (second : Quiet marker more rest) : Quiet marker (start ++ more) rest := by
  intro part filled ends
  rcases List.suffix_or_suffix_of_suffix ends (List.suffix_append start more) with inside | beyond
  · exact second part filled inside
  · obtain ⟨before, rfl⟩ := beyond
    have ends : before <:+ start := List.suffix_append_self_iff.mp ends
    rw [List.append_assoc]
    by_cases empty : before = []
    · rw [empty] at filled ⊢
      exact second more filled (List.suffix_refl more)
    · exact first before empty ends

theorem quiet_absent {first : α} {marker start : List α} (absent : first ∉ start)
    (rest : List α) : Quiet (first :: marker) start rest := by
  intro part filled ends begins
  obtain ⟨c, part, rfl⟩ := List.exists_cons_of_ne_nil filled
  obtain ⟨same, _⟩ := List.cons_prefix_cons.mp begins
  exact absent (same ▸ ends.subset List.mem_cons_self)

theorem quiet_foreign {marker start : List α} {c : α} (foreign : c ∉ marker)
    (short : start.length < marker.length) (rest : List α) : Quiet marker (start ++ [c]) rest := by
  intro part filled ends begins
  have size : part.length ≤ marker.length := by
    have fits := ends.length_le
    rw [List.length_append, List.length_singleton] at fits
    omega
  have inside : part <+: marker :=
    List.prefix_of_prefix_length_le (List.prefix_append part rest) begins size
  have last : c ∈ part := by
    obtain ⟨before, whole⟩ := ends
    have shown : (before ++ part).getLast? = some c := by
      rw [whole, List.getLast?_concat]
    rw [List.getLast?_append_of_ne_nil before filled] at shown
    exact List.mem_of_getLast? shown
  exact foreign (inside.subset last)

def Calm (marker part : List α) : Prop := ∀ rest, Quiet marker part rest

variable [DecidableEq α]

def cuts (marker : List α) : Nat → List α → List (List α)
  | _, [] => [[]]
  | passed + 1, _ :: rest => cuts marker passed rest
  | 0, c :: rest =>
    if marker.isPrefixOf (c :: rest) then [] :: cuts marker (marker.length - 1) rest
    else (cuts marker 0 rest).modifyHead (c :: ·)

theorem cuts_quiet {marker start rest : List α} (quiet : Quiet marker start rest) :
    cuts marker 0 (start ++ rest) = (cuts marker 0 rest).modifyHead (start ++ ·) := by
  induction start with
  | nil =>
    rw [List.nil_append]
    cases cuts marker 0 rest <;> simp
  | cons c start ih =>
    have here : ¬ marker.isPrefixOf (c :: (start ++ rest)) = true := by
      rw [List.isPrefixOf_iff_prefix]
      exact quiet (c :: start) (List.cons_ne_nil c start) (List.suffix_refl _)
    have later : Quiet marker start rest := by
      intro part filled ends
      exact quiet part filled (ends.trans (List.suffix_cons c start))
    rw [List.cons_append, cuts, if_neg here, ih later]
    cases cuts marker 0 rest <;> rfl

theorem cuts_passed (marker skipped rest : List α) :
    cuts marker skipped.length (skipped ++ rest) = cuts marker 0 rest := by
  induction skipped with
  | nil => rfl
  | cons c skipped ih => exact ih

theorem cuts_marker {marker : List α} (filled : marker ≠ []) (rest : List α) :
    cuts marker 0 (marker ++ rest) = [] :: cuts marker 0 rest := by
  obtain ⟨first, others, rfl⟩ := List.exists_cons_of_ne_nil filled
  have met : (first :: others).isPrefixOf (first :: (others ++ rest)) = true :=
    List.isPrefixOf_iff_prefix.mpr (List.prefix_append (first :: others) rest)
  rw [List.cons_append, cuts, if_pos met, List.length_cons, Nat.add_sub_cancel, cuts_passed]

theorem cuts_marked {marker : List α} (filled : marker ≠ []) {parts : List (List α)}
    (calm : ∀ part ∈ parts, Calm marker part) :
    cuts marker 0 (parts.flatMap (marker ++ ·)) = [] :: parts := by
  induction parts with
  | nil => rfl
  | cons part parts ih =>
    have rest := ih fun other member => calm other (List.mem_cons_of_mem part member)
    rw [List.flatMap_cons, List.append_assoc, cuts_marker filled,
      cuts_quiet (calm part List.mem_cons_self _), rest, List.modifyHead_cons, List.append_nil]

theorem cuts_head {marker : List α} (filled : marker ≠ []) {start rest : List α}
    (quiet : Quiet marker start (marker ++ rest)) :
    ∃ more, cuts marker 0 (start ++ (marker ++ rest)) = start :: more := by
  refine ⟨cuts marker 0 rest, ?_⟩
  rw [cuts_quiet quiet, cuts_marker filled, List.modifyHead_cons, List.append_nil]

def splitAt (marker text : String) : List String :=
  (cuts marker.toList 0 text.toList).map .ofList

end Marks
