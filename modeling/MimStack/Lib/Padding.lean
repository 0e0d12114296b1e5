import Mathlib.Data.List.Nodup

/-!
Lists that are filled up to a length. What is added is the first items that pass, as many
as there is room for; items that are only added under fresh names add no name twice.
-/
namespace Padding

variable {A B N : Type}

theorem foldl_pad {step : List B → A → List B} {keep : A → Bool} {make : A → B} {bound : Nat}
    (inside : List B → Prop)
    (steps : ∀ list a, inside list →
      step list a = if bound ≤ list.length || !keep a then list else list ++ [make a])
    (kept : ∀ list a, inside list → inside (list ++ [make a])) (items : List A) {list : List B}
    (start : inside list) :
    items.foldl step list =
      list ++ ((items.filter keep).take (bound - list.length)).map make := by
  induction items generalizing list with
  | nil => rw [List.foldl_nil, List.filter_nil, List.take_nil, List.map_nil, List.append_nil]
  | cons a rest ih =>
    rw [List.foldl_cons, steps list a start, List.filter_cons]
    cases passed : keep a with
    | false =>
      rw [Bool.not_false, Bool.or_true, if_pos rfl, ih start]
      rfl
    | true =>
      rw [Bool.not_true, Bool.or_false]
      by_cases full : bound ≤ list.length
      · have room : bound - list.length = 0 := by omega
        rw [if_pos (decide_eq_true full), ih start, room, List.take_zero, List.take_zero]
      · have room : bound - list.length = bound - (list ++ [make a]).length + 1 := by
          rw [List.length_append, List.length_singleton]
          omega
        rw [if_neg (by simp [full]), ih (kept list a start), room, if_pos rfl,
          List.take_succ_cons, List.map_cons, List.append_assoc]
        rfl

theorem foldl_nodup_iff {step : List B → A → List B} (name : B → N)
    (steps : ∀ list a, step list a = list ∨
      ∃ b, step list a = list ++ [b] ∧ name b ∉ list.map name) (items : List A) (list : List B) :
    ((items.foldl step list).map name).Nodup ↔ (list.map name).Nodup := by
  induction items generalizing list with
  | nil => exact Iff.rfl
  | cons a rest ih =>
    rw [List.foldl_cons, ih]
    rcases steps list a with same | added
    · rw [same]
    · obtain ⟨b, added, fresh⟩ := added
      rw [added, List.map_append, List.map_singleton, ← List.concat_eq_append,
        List.nodup_concat]
      exact and_iff_right fresh

end Padding
