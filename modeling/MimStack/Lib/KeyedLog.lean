import Mathlib.Data.Finset.Basic
import Mathlib.Data.List.Basic

/-!
Append-only logs whose entries each concern one key. What a replica has to know
of a log is the last entry on every key, the keys in order of first mention, and
the keys whose last entry retires them; each is computed by a left fold, so each
follows the log one entry at a time. Entries may carry consecutive numbers.
-/
namespace KeyedLog

variable {E K : Type} [DecidableEq K] (key : E → K) (retires : E → Bool) (number : E → Nat)

def lastOn (k : K) (log : List E) : Option E := (log.filter fun e => decide (key e = k)).getLast?

theorem lastOn_snoc (k : K) (log : List E) (e : E) :
    lastOn key k (log ++ [e]) = if key e = k then some e else lastOn key k log := by
  unfold lastOn
  split
  · rename_i same
    simp [same]
  · rename_i other
    simp [other]

theorem lastOn_mem {k : K} {log : List E} {e : E} (last : lastOn key k log = some e) :
    e ∈ log ∧ key e = k := by
  have mem := List.mem_of_getLast? last
  rwa [List.mem_filter, decide_eq_true_iff] at mem

theorem lastOn_eq_none (k : K) (log : List E) :
    lastOn key k log = none ↔ ∀ e ∈ log, key e ≠ k := by
  simp [lastOn]

theorem lastOn_append (k : K) (log more : List E) :
    lastOn key k (log ++ more) = (lastOn key k more).or (lastOn key k log) := by
  simp [lastOn, List.getLast?_append]

theorem lastOn_append_untouched {k : K} {more : List E} (log : List E)
    (untouched : ∀ e ∈ more, key e ≠ k) : lastOn key k (log ++ more) = lastOn key k log := by
  rw [lastOn_append, (lastOn_eq_none key k more).mpr untouched, Option.none_or]

theorem lastOn_filter {k : K} {log : List E} {e : E} (p : E → Bool)
    (last : lastOn key k log = some e) (kept : p e = true) :
    lastOn key k (log.filter p) = some e := by
  unfold lastOn at *
  obtain ⟨before, split⟩ := List.getLast?_eq_some_iff.mp last
  rw [List.filter_filter]
  have order : log.filter (fun e => decide (key e = k) && p e) =
      (log.filter fun e => decide (key e = k)).filter p := by
    rw [List.filter_filter]
    simp only [Bool.and_comm]
  rw [order, split, List.filter_append]
  simp [kept]

def keysOf (log : List E) : List K :=
  log.foldl (fun seen e => if key e ∈ seen then seen else seen ++ [key e]) []

theorem keysOf_snoc (log : List E) (e : E) :
    keysOf key (log ++ [e]) =
      if key e ∈ keysOf key log then keysOf key log else keysOf key log ++ [key e] := by
  rw [keysOf, List.foldl_append]
  rfl

theorem mem_keysOf (k : K) (log : List E) : k ∈ keysOf key log ↔ ∃ e ∈ log, key e = k := by
  induction log using List.reverseRecOn with
  | nil => simp [keysOf]
  | append_singleton log e ih =>
    rw [keysOf_snoc]
    split
    · rename_i seen
      rw [ih]
      constructor
      · rintro ⟨f, mem, same⟩
        exact ⟨f, List.mem_append_left _ mem, same⟩
      · rintro ⟨f, mem, rfl⟩
        rcases List.mem_append.mp mem with mem | mem
        · exact ⟨f, mem, rfl⟩
        · rw [List.mem_singleton] at mem
          exact ih.mp (mem ▸ seen)
    · simp only [List.mem_append, List.mem_singleton, ih]
      constructor
      · rintro (⟨f, mem, same⟩ | same)
        · exact ⟨f, .inl mem, same⟩
        · exact ⟨e, .inr rfl, same.symm⟩
      · rintro ⟨f, mem | rfl, same⟩
        · exact .inl ⟨f, mem, same⟩
        · exact .inr same.symm

def retiredOf (log : List E) : Finset K :=
  log.foldl (fun gone e => if retires e then insert (key e) gone else gone.erase (key e)) ∅

theorem retiredOf_snoc (log : List E) (e : E) :
    retiredOf key retires (log ++ [e]) =
      if retires e then insert (key e) (retiredOf key retires log)
      else (retiredOf key retires log).erase (key e) := by
  simp [retiredOf]

theorem mem_retiredOf (k : K) (log : List E) :
    k ∈ retiredOf key retires log ↔ ∃ e, lastOn key k log = some e ∧ retires e = true := by
  induction log using List.reverseRecOn with
  | nil => simp [retiredOf, lastOn]
  | append_singleton log e ih =>
    rw [retiredOf_snoc, lastOn_snoc]
    by_cases same : key e = k
    · subst same
      by_cases gone : retires e = true <;> simp [gone]
    · have other : ¬ k = key e := fun h => same h.symm
      by_cases gone : retires e = true <;> simp [gone, same, other, ih]

def Numbered (log : List E) : Prop := log.map number = List.range' 1 log.length

variable {number}

theorem numbered_snoc {log : List E} {e : E} (numbered : Numbered number log)
    (next : number e = log.length + 1) : Numbered number (log ++ [e]) := by
  unfold Numbered at *
  rw [List.map_append, numbered, List.length_append, List.length_singleton, List.range'_concat]
  simp [next, Nat.add_comm]

theorem numbered_getElem {log : List E} (numbered : Numbered number log) {n : Nat} {e : E}
    (here : log[n]? = some e) : number e = n + 1 := by
  have mapped : (log.map number)[n]? = some (number e) := by rw [List.getElem?_map, here]; rfl
  have bound : n < log.length := (List.getElem?_eq_some_iff.mp here).1
  rw [numbered, List.getElem?_range' bound, Option.some.injEq] at mapped
  omega

theorem numbered_position {log : List E} (numbered : Numbered number log) {e : E} (mem : e ∈ log) :
    1 ≤ number e ∧ log[number e - 1]? = some e := by
  obtain ⟨n, here⟩ := List.mem_iff_getElem?.mp mem
  have position := numbered_getElem numbered here
  exact ⟨by omega, by rw [position, Nat.add_sub_cancel]; exact here⟩

theorem numbered_sorted {log : List E} (numbered : Numbered number log) :
    (log.map number).Pairwise (· < ·) := by
  rw [numbered]
  exact List.pairwise_lt_range'

theorem numbered_unique {log : List E} (numbered : Numbered number log) {e f : E} (mem : e ∈ log)
    (memF : f ∈ log) (same : number e = number f) : e = f := by
  have hereE := (numbered_position numbered mem).2
  have hereF := (numbered_position numbered memF).2
  rw [same, hereF] at hereE
  exact (Option.some.inj hereE).symm

theorem numbered_le {log : List E} (numbered : Numbered number log) {e : E} (mem : e ∈ log) :
    number e ≤ log.length := by
  obtain ⟨positive, here⟩ := numbered_position numbered mem
  have := (List.getElem?_eq_some_iff.mp here).1
  omega

theorem filter_after_aux (since offset : Nat) (log : List E)
    (numbered : log.map number = List.range' (offset + 1) log.length) :
    log.filter (fun e => decide (since < number e)) = log.drop (since - offset) := by
  induction log generalizing offset with
  | nil => simp
  | cons e rest ih =>
    simp only [List.map_cons, List.length_cons, List.range'_succ, List.cons.injEq] at numbered
    have tail := ih (offset + 1) numbered.2
    by_cases later : since ≤ offset
    · have zero : since - offset = 0 := by omega
      have zeroNext : since - (offset + 1) = 0 := by omega
      rw [zeroNext, List.drop_zero] at tail
      rw [zero, List.drop_zero, List.filter_cons, if_pos (by simp [numbered.1]; omega), tail]
    · have split : since - offset = (since - (offset + 1)) + 1 := by omega
      rw [split, List.drop_succ_cons, List.filter_cons,
        if_neg (by simp [numbered.1]; omega), tail]

theorem filter_after {log : List E} (numbered : Numbered number log) (since : Nat) :
    log.filter (fun e => decide (since < number e)) = log.drop since :=
  filter_after_aux since 0 log numbered

theorem number_le_lastOn {log : List E} (numbered : Numbered number log) {k : K} {e f : E}
    (last : lastOn key k log = some e) (mem : f ∈ log) (on : key f = k) :
    number f ≤ number e := by
  induction log using List.reverseRecOn with
  | nil => simp at mem
  | append_singleton log g ih =>
    have before : Numbered number log := by
      unfold Numbered at *
      rw [List.map_append, List.length_append, List.length_singleton, List.range'_concat] at numbered
      exact (List.append_inj' numbered rfl).1
    have top : number g = log.length + 1 := numbered_getElem numbered (by simp)
    rw [lastOn_snoc] at last
    split at last
    · obtain rfl := Option.some.inj last
      rcases List.mem_append.mp mem with old | new
      · have := numbered_le before old
        omega
      · rw [List.mem_singleton] at new
        rw [new]
    · rename_i other
      rcases List.mem_append.mp mem with old | new
      · exact ih before last old
      · rw [List.mem_singleton] at new
        exact absurd (new ▸ on) other

end KeyedLog
