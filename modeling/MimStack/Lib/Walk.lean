import Mathlib.Data.Finset.Card
import Mathlib.Data.List.Nodup
import Mathlib.Logic.Relation

/-!
Following a successor function until it has no successor. A walk whose
continuing points all lie in a finite set either ends within one step more than
the set has members, or revisits a point and then never ends. A bounded walk of
that length therefore decides whether the unbounded loop terminates.
-/
namespace SuccessorWalk

variable {X : Type}

def walk (next : X → Option X) : Nat → Option X → Option (List X)
  | _, none => some []
  | 0, some _ => none
  | fuel + 1, some x => (walk next fuel (next x)).map (x :: ·)

theorem walk_more (next : X → Option X) (fuel more : Nat) (start : Option X) (path : List X)
    (ended : walk next fuel start = some path) : walk next (fuel + more) start = some path := by
  induction fuel generalizing start path with
  | zero =>
    cases start with
    | none => simpa [walk] using ended
    | some x => simp [walk] at ended
  | succ fuel ih =>
    cases start with
    | none => simpa [walk] using ended
    | some x =>
      simp only [walk, Option.map_eq_some_iff] at ended
      obtain ⟨tail, rest, rfl⟩ := ended
      rw [Nat.succ_add, walk, ih (next x) tail rest]
      rfl

def stepped (next : X → Option X) : Nat → Option X → Option X
  | 0, start => start
  | n + 1, start => stepped next n (start.bind next)

theorem stepped_none (next : X → Option X) (n : Nat) : stepped next n none = none := by
  induction n with
  | zero => rfl
  | succ n ih => rw [stepped, Option.bind_none, ih]

theorem stepped_add (next : X → Option X) (m n : Nat) (start : Option X) :
    stepped next (m + n) start = stepped next n (stepped next m start) := by
  induction m generalizing start with
  | zero => rw [Nat.zero_add, stepped]
  | succ m ih => rw [Nat.succ_add, stepped, ih, stepped]

theorem walk_eq_none_iff (next : X → Option X) (fuel : Nat) (start : Option X) :
    walk next fuel start = none ↔ (stepped next fuel start).isSome := by
  induction fuel generalizing start with
  | zero => cases start <;> simp [walk, stepped]
  | succ fuel ih =>
    cases start with
    | none => simp [walk, stepped_none]
    | some x => simp [walk, stepped, ih]

theorem stepped_prefix (next : X → Option X) (m n : Nat) (start : Option X) (shorter : m ≤ n)
    (far : (stepped next n start).isSome) : (stepped next m start).isSome := by
  obtain ⟨d, rfl⟩ := Nat.exists_eq_add_of_le shorter
  rw [stepped_add] at far
  cases reached : stepped next m start with
  | some x => rfl
  | none =>
    rw [reached, ← walk_eq_none_iff] at far
    cases d <;> simp [walk] at far

theorem stepped_cycle (next : X → Option X) (i p : Nat) (start : Option X)
    (again : stepped next (i + p) start = stepped next i start) (turns : Nat) :
    stepped next (i + turns * p) start = stepped next i start := by
  induction turns with
  | zero => simp
  | succ turns ih => rw [Nat.succ_mul, ← Nat.add_assoc, stepped_add, ih, ← stepped_add, again]

theorem stepped_revisits [DecidableEq X] (next : X → Option X) (support : Finset X)
    (covered : ∀ x, (next x).isSome → x ∈ support) (start : Option X)
    (long : walk next (support.card + 1) start = none) :
    ∃ i j x, i < j ∧ stepped next i start = some x ∧ stepped next j start = some x := by
  rw [walk_eq_none_iff] at long
  have visited : ∀ i, i ≤ support.card → ∃ x ∈ support, stepped next i start = some x := by
    intro i bound
    have after := stepped_prefix next (i + 1) (support.card + 1) start (by omega) long
    rw [stepped_add] at after
    cases here : stepped next i start with
    | none => simp [here, stepped] at after
    | some x =>
      rw [here] at after
      exact ⟨x, covered x (by simpa [stepped] using after), rfl⟩
  obtain ⟨i, iBound, j, jBound, apart, same⟩ :
      ∃ i ∈ Finset.range (support.card + 1), ∃ j ∈ Finset.range (support.card + 1),
        i ≠ j ∧ stepped next i start = stepped next j start := by
    have large : (support.image some).card < (Finset.range (support.card + 1)).card := by
      rw [Finset.card_range]
      exact Nat.lt_succ_of_le Finset.card_image_le
    refine Finset.exists_ne_map_eq_of_card_lt_of_maps_to large fun i mem => ?_
    obtain ⟨x, inSupport, here⟩ := visited i (by simpa using Nat.lt_succ_iff.mp (by simpa using mem))
    simp [here, inSupport]
  wlog ordered : i < j generalizing i j
  · exact this j jBound i iBound (Ne.symm apart) same.symm (by omega)
  obtain ⟨x, _, here⟩ := visited i (by simpa using Nat.lt_succ_iff.mp (by simpa using iBound))
  exact ⟨i, j, x, ordered, here, same ▸ here⟩

/-- A walk that outlasts the finite set of its continuing points never ends. -/
theorem walk_diverges [DecidableEq X] (next : X → Option X) (support : Finset X)
    (covered : ∀ x, (next x).isSome → x ∈ support) (start : Option X)
    (long : walk next (support.card + 1) start = none) (fuel : Nat) :
    walk next fuel start = none := by
  obtain ⟨i, j, x, ordered, first, again⟩ := stepped_revisits next support covered start long
  rw [walk_eq_none_iff]
  have cycle := stepped_cycle next i (j - i) start
    (by rw [Nat.add_sub_cancel' (by omega), first, again]) fuel
  have far : (stepped next (i + fuel * (j - i)) start).isSome := by
    rw [cycle, first]
    rfl
  refine stepped_prefix next fuel _ start ?_ far
  have period : 1 ≤ j - i := by omega
  calc fuel ≤ fuel * (j - i) := Nat.le_mul_of_pos_right fuel period
    _ ≤ i + fuel * (j - i) := Nat.le_add_left _ _

/-- The relation that is walked along. -/
def Follows (next : X → Option X) (a b : X) : Prop := next a = some b

theorem reaches_of_stepped (next : X → Option X) (n : Nat) {x y : X}
    (reached : stepped next (n + 1) (some x) = some y) :
    Relation.TransGen (Follows next) x y := by
  induction n generalizing x with
  | zero => exact .single reached
  | succ n ih =>
    rw [stepped, Option.bind_some] at reached
    cases first : next x with
    | none => simp [first, stepped_none] at reached
    | some z => exact .head first (ih (first ▸ reached))

theorem stepped_of_reaches (next : X → Option X) {x y : X}
    (reached : Relation.TransGen (Follows next) x y) :
    ∃ n, stepped next (n + 1) (some x) = some y := by
  induction reached with
  | single first => exact ⟨0, first⟩
  | tail _ last ih =>
    obtain ⟨n, here⟩ := ih
    refine ⟨n + 1, ?_⟩
    rw [stepped_add, here]
    exact last

theorem walks_end_iff [DecidableEq X] (next : X → Option X) (support : Finset X)
    (covered : ∀ x, (next x).isSome → x ∈ support) :
    (∀ x, ∃ fuel path, walk next fuel (next x) = some path) ↔
      ∀ x, ¬ Relation.TransGen (Follows next) x x := by
  constructor
  · intro ends x cycle
    obtain ⟨period, again⟩ := stepped_of_reaches next cycle
    obtain ⟨fuel, path, ended⟩ := ends x
    have turned := stepped_cycle next 0 (period + 1) (some x) (by simpa [stepped] using again)
      (fuel + 1)
    have far : (stepped next (0 + (fuel + 1) * (period + 1)) (some x)).isSome := by
      rw [turned]
      rfl
    have enough : fuel + 1 ≤ 0 + (fuel + 1) * (period + 1) := by
      rw [Nat.zero_add]
      exact Nat.le_mul_of_pos_right (fuel + 1) (Nat.succ_pos period)
    have long : (stepped next (fuel + 1) (some x)).isSome :=
      stepped_prefix next (fuel + 1) _ (some x) enough far
    rw [stepped, Option.bind_some, ← walk_eq_none_iff, ended] at long
    cases long
  · intro acyclic x
    refine ⟨support.card + 1, ?_⟩
    cases long : walk next (support.card + 1) (next x) with
    | some path => exact ⟨path, rfl⟩
    | none =>
      obtain ⟨i, j, y, ordered, first, again⟩ :=
        stepped_revisits next support covered (next x) long
      obtain ⟨d, rfl⟩ := Nat.exists_eq_add_of_lt ordered
      rw [Nat.add_assoc, stepped_add, first] at again
      exact absurd (reaches_of_stepped next d again) (acyclic y)

example : walk (fun n => if n < 3 then some (n + 1) else none) 4 (some 1) = some [1, 2, 3] := by
  decide

end SuccessorWalk
