import Mathlib.Data.List.Nodup

/-!
Windows of a list, and what is left of them when the list is filtered: filtering
a window gives a window of the filtered list whose position and size count the
kept elements before the window and in it.
-/
namespace ListWindows

variable {X : Type} (p : X → Bool)

def window (skip size : Nat) (l : List X) : List X := (l.drop skip).take size

theorem filter_drop (n : Nat) (l : List X) :
    (l.drop n).filter p = (l.filter p).drop ((l.take n).countP p) := by
  have split : l.filter p = (l.take n).filter p ++ (l.drop n).filter p := by
    rw [← List.filter_append, List.take_append_drop]
  rw [split, List.countP_eq_length_filter, List.drop_left]

theorem filter_take (n : Nat) (l : List X) :
    (l.take n).filter p = (l.filter p).take ((l.take n).countP p) := by
  have split : l.filter p = (l.take n).filter p ++ (l.drop n).filter p := by
    rw [← List.filter_append, List.take_append_drop]
  rw [split, List.countP_eq_length_filter, List.take_left]

theorem filter_window (skip size : Nat) (l : List X) :
    (window skip size l).filter p =
      window ((l.take skip).countP p) ((window skip size l).countP p) (l.filter p) := by
  unfold window
  rw [filter_take, filter_drop]

theorem window_all (skip : Nat) (l : List X) : window skip l.length l = l.drop skip := by
  rw [window, List.take_of_length_le]
  rw [List.length_drop]
  exact Nat.sub_le _ _

theorem counts_fit (skip size : Nat) (l : List X) :
    (l.take skip).countP p + (window skip size l).countP p ≤ (l.filter p).length := by
  have whole : l.countP p = (l.take skip).countP p + (l.drop skip).countP p := by
    rw [← List.countP_append, List.take_append_drop]
  have part : (window skip size l).countP p ≤ (l.drop skip).countP p :=
    (List.take_sublist size (l.drop skip)).countP_le
  rw [← List.countP_eq_length_filter, whole]
  exact Nat.add_le_add_left part _

theorem window_eq_iff {l : List X} (nodup : l.Nodup) {i j m n : Nat} (fits : i + m ≤ l.length)
    (fits' : j + n ≤ l.length) : window i m l = window j n l ↔ m = n ∧ (i = j ∨ m = 0) := by
  constructor
  · intro same
    have sizes := congrArg List.length same
    simp only [window, List.length_take, List.length_drop] at sizes
    have size : m = n := by omega
    subst size
    refine ⟨rfl, ?_⟩
    by_cases empty : m = 0
    · exact .inr empty
    · have heads := congrArg (fun w => w[0]?) same
      simp only [window] at heads
      rw [List.getElem?_take_of_lt (by omega), List.getElem?_take_of_lt (by omega),
        List.getElem?_drop, List.getElem?_drop, Nat.add_zero, Nat.add_zero] at heads
      exact .inl ((List.getElem?_inj (by omega) nodup).mp heads)
  · rintro ⟨rfl, rfl | rfl⟩
    · rfl
    · simp [window]

def offsets (limit total : Nat) : List Nat := (List.range total).filter fun o => limit ∣ o

theorem offsets_take {limit : Nat} (positive : 0 < limit) (l : List X) (total : Nat) :
    ∃ shown, limit ∣ shown ∧ total ≤ shown ∧ shown < total + limit ∧
      (offsets limit total).flatMap (fun o => window o limit l) = l.take shown := by
  induction total with
  | zero => exact ⟨0, Nat.dvd_zero limit, Nat.le_refl 0, by omega, rfl⟩
  | succ total ih =>
    obtain ⟨shown, whole, reached, short, tiled⟩ := ih
    have next : offsets limit (total + 1) =
        offsets limit total ++ [total].filter fun o => limit ∣ o := by
      rw [offsets, List.range_succ, List.filter_append, ← offsets]
    by_cases begins : limit ∣ total
    · have same : shown = total := by
        have gap : limit ∣ shown - total := Nat.dvd_sub whole begins
        have none : shown - total = 0 := Nat.eq_zero_of_dvd_of_lt gap (by omega)
        omega
      subst same
      refine ⟨shown + limit, Nat.dvd_add whole (Nat.dvd_refl limit), by omega, by omega, ?_⟩
      rw [next, List.flatMap_append, tiled, List.take_add]
      simp [begins, window]
    · have later : shown ≠ total := by
        intro same
        exact begins (same ▸ whole)
      refine ⟨shown, whole, by omega, by omega, ?_⟩
      rw [next, List.flatMap_append, tiled]
      simp [begins]

theorem windows_tile {limit : Nat} (positive : 0 < limit) (l : List X) :
    (offsets limit l.length).flatMap (fun o => window o limit l) = l := by
  obtain ⟨shown, _, reached, _, tiled⟩ := offsets_take positive l l.length
  rw [tiled, List.take_of_length_le reached]

end ListWindows
