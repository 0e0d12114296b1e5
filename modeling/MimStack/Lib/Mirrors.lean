import Mathlib.Data.List.Infix
import Mathlib.Logic.Function.Basic

/-!
Two replicas that mirror each other. Each keeps a log of the keys it has written and a mark
up to which it has taken the other's log; what it takes it writes, and so announces again.
-/
namespace Mirrors

variable {K V : Type}

structure Replica (K V : Type) where
  shows : K → V
  log : List K
  mark : Nat

def Replica.ahead (r other : Replica K V) : List K := other.log.drop r.mark

structure Mirrored (a b : Replica K V) : Prop where
  first : a.mark ≤ b.log.length
  second : b.mark ≤ a.log.length
  announced : ∀ k, a.shows k ≠ b.shows k → k ∈ a.ahead b ∨ k ∈ b.ahead a

def owed (a b : Replica K V) : Nat := (a.ahead b).length + (b.ahead a).length

theorem owed_comm (a b : Replica K V) : owed a b = owed b a := Nat.add_comm _ _

variable {a b : Replica K V}

theorem mirrored_new (same : a.shows = b.shows) (first : a.mark = 0)
    (second : b.mark = 0) : Mirrored a b where
  first := first ▸ Nat.zero_le _
  second := second ▸ Nat.zero_le _
  announced := fun k other => absurd (congrFun same k) other

theorem Mirrored.symm (mirrored : Mirrored a b) : Mirrored b a where
  first := mirrored.second
  second := mirrored.first
  announced := fun k other => (mirrored.announced k other.symm).symm

variable [DecidableEq K]

def Replica.write (r : Replica K V) (k : K) (v : V) : Replica K V :=
  { r with shows := Function.update r.shows k v, log := r.log ++ [k] }

def Replica.pull (r other : Replica K V) : Replica K V where
  shows k := if k ∈ r.ahead other then other.shows k else r.shows k
  log := r.log ++ r.ahead other
  mark := other.log.length

theorem ahead_write (bound : b.mark ≤ a.log.length) (k : K) (v : V) :
    b.ahead (a.write k v) = b.ahead a ++ [k] :=
  List.drop_append_of_le_length bound

theorem Mirrored.write (mirrored : Mirrored a b) (k : K) (v : V) : Mirrored (a.write k v) b where
  first := mirrored.first
  second := by
    have bound := mirrored.second
    simp only [Replica.write, List.length_append]
    omega
  announced := by
    intro other apart
    rw [ahead_write mirrored.second, List.mem_append, List.mem_singleton]
    by_cases same : other = k
    · exact .inr (.inr same)
    · have kept : (a.write k v).shows other = a.shows other := Function.update_of_ne same _ _
      rw [kept] at apart
      rcases mirrored.announced other apart with mine | theirs
      · exact .inl mine
      · exact .inr (.inl theirs)

theorem owed_write (mirrored : Mirrored a b) (k : K) (v : V) :
    owed (a.write k v) b = owed a b + 1 := by
  have mine : (a.write k v).ahead b = a.ahead b := rfl
  rw [owed, owed, ahead_write mirrored.second, mine, List.length_append, List.length_singleton]
  omega

theorem ahead_pulled (a b : Replica K V) : (a.pull b).ahead b = [] := List.drop_length

theorem ahead_pull (mirrored : Mirrored a b) : b.ahead (a.pull b) = b.ahead a ++ a.ahead b :=
  List.drop_append_of_le_length mirrored.second

theorem pull_announced (mirrored : Mirrored a b) {k : K}
    (apart : (a.pull b).shows k ≠ b.shows k) : k ∈ b.ahead (a.pull b) := by
  rw [ahead_pull mirrored, List.mem_append]
  by_cases taken : k ∈ a.ahead b
  · exact .inr taken
  · have kept : (a.pull b).shows k = a.shows k := if_neg taken
    rw [kept] at apart
    rcases mirrored.announced k apart with mine | theirs
    · exact absurd mine taken
    · exact .inl theirs

theorem Mirrored.pull (mirrored : Mirrored a b) : Mirrored (a.pull b) b where
  first := Nat.le_refl _
  second := by
    have bound := mirrored.second
    simp only [Replica.pull, List.length_append]
    omega
  announced := fun _ apart => .inr (pull_announced mirrored apart)

theorem owed_pull (mirrored : Mirrored a b) : owed (a.pull b) b = owed a b := by
  rw [owed, owed, ahead_pull mirrored, ahead_pulled, List.length_append]
  simp only [List.length_nil]
  omega

theorem pulls_agree (mirrored : Mirrored a b) :
    (b.pull (a.pull b)).shows = (a.pull b).shows := by
  funext k
  by_cases heard : k ∈ b.ahead (a.pull b)
  · exact if_pos heard
  · have kept : (b.pull (a.pull b)).shows k = b.shows k := if_neg heard
    rw [kept]
    by_contra apart
    exact heard (pull_announced mirrored fun same => apart same.symm)

theorem pull_agreeing (same : a.shows = b.shows) : (a.pull b).shows = a.shows := by
  funext k
  by_cases taken : k ∈ a.ahead b
  · exact (if_pos taken).trans (congrFun same k).symm
  · exact if_neg taken

end Mirrors
