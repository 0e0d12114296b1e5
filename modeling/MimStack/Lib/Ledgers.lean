import Mathlib.Data.List.Induction
import Mathlib.Data.List.Nodup

/-!
Ledgers: items are entered and struck out again. What stands is what has been entered and not
struck out since, in the order of entry.
-/
namespace Ledgers

inductive Entry (α : Type) where
  | entered (a : α)
  | struck (a : α)
  deriving DecidableEq

variable {α : Type}

def Entry.item : Entry α → α
  | .entered a => a
  | .struck a => a

@[simp] theorem item_entered (a : α) : (Entry.entered a).item = a := rfl

@[simp] theorem item_struck (a : α) : (Entry.struck a).item = a := rfl

variable [DecidableEq α]

def standing : List (Entry α) → List α
  | [] => []
  | .entered a :: log => if .struck a ∈ log then standing log else a :: standing log
  | .struck _ :: log => standing log

theorem standing_enter (log : List (Entry α)) (a : α) :
    standing (log ++ [.entered a]) = standing log ++ [a] := by
  induction log with
  | nil => simp [standing]
  | cons entry log ih =>
    cases entry with
    | struck b => exact ih
    | entered b =>
      have same : Entry.struck b ∈ log ++ [.entered a] ↔ .struck b ∈ log := by simp
      simp only [List.cons_append, standing, same, ih]
      split <;> rfl

theorem standing_strike (log : List (Entry α)) (a : α) :
    standing (log ++ [.struck a]) = (standing log).filter (· ≠ a) := by
  induction log with
  | nil => rfl
  | cons entry log ih =>
    cases entry with
    | struck b => exact ih
    | entered b =>
      simp only [List.cons_append, standing, List.mem_append, List.mem_singleton,
        Entry.struck.injEq, ih]
      by_cases later : Entry.struck b ∈ log
      · rw [if_pos (Or.inl later), if_pos later]
      · rw [if_neg later, List.filter_cons]
        by_cases same : b = a
        · simp [same]
        · simp [same, later]

theorem mem_standing {log : List (Entry α)} {a : α} : a ∈ standing log ↔
    ∃ before after, log = before ++ .entered a :: after ∧ .struck a ∉ after := by
  induction log with
  | nil => simp [standing]
  | cons entry log ih =>
    have older : a ∈ standing log →
        ∃ before after, entry :: log = before ++ .entered a :: after ∧ .struck a ∉ after := by
      intro stands
      obtain ⟨before, after, split, kept⟩ := ih.mp stands
      exact ⟨entry :: before, after, by rw [split, List.cons_append], kept⟩
    have newer : ∀ before after, entry :: log = before ++ .entered a :: after →
        .struck a ∉ after → (entry = .entered a ∧ .struck a ∉ log) ∨ a ∈ standing log := by
      intro before after split kept
      cases before with
      | nil =>
        obtain ⟨rfl, rfl⟩ := List.cons.inj split
        exact Or.inl ⟨rfl, kept⟩
      | cons first before =>
        obtain ⟨_, rest⟩ := List.cons.inj split
        exact Or.inr (ih.mpr ⟨before, after, rest, kept⟩)
    constructor
    · intro stands
      cases entry with
      | struck b => exact older stands
      | entered b =>
        rw [standing] at stands
        split at stands
        · exact older stands
        · rename_i kept
          rcases List.mem_cons.mp stands with rfl | stands
          · exact ⟨[], log, rfl, kept⟩
          · exact older stands
    · intro entered
      obtain ⟨before, after, split, kept⟩ := entered
      rcases newer before after split kept with top | stands
      · obtain ⟨rfl, kept⟩ := top
        rw [standing, if_neg kept]
        exact List.mem_cons_self
      · cases entry with
        | struck b => exact stands
        | entered b =>
          rw [standing]
          split
          · exact stands
          · exact List.mem_cons_of_mem b stands

theorem standing_kind (kind : α → Bool) (log : List (Entry α)) :
    standing (log.filter fun entry => kind entry.item) = (standing log).filter kind := by
  induction log with
  | nil => rfl
  | cons entry log ih =>
    rw [List.filter_cons]
    cases entry with
    | struck a =>
      split
      · exact ih
      · exact ih
    | entered a =>
      cases listed : kind a with
      | true =>
        simp only [item_entered, listed, if_true, standing, ih, List.mem_filter, item_struck,
          and_true]
        split
        · rfl
        · rw [List.filter_cons_of_pos listed]
      | false =>
        simp only [item_entered, listed, Bool.false_eq_true, if_false, standing, ih]
        split
        · rfl
        · rw [List.filter_cons_of_neg (by simp [listed])]

theorem mem_standing_within {E : Type} (entry : E → Option (Entry α)) {log : List E} {a : α} :
    a ∈ standing (log.filterMap entry) ↔ ∃ before e after, log = before ++ e :: after ∧
      entry e = some (.entered a) ∧ ∀ f ∈ after, entry f ≠ some (.struck a) := by
  rw [mem_standing]
  constructor
  · intro entered
    obtain ⟨before, after, split, kept⟩ := entered
    obtain ⟨first, second, rfl, _, split⟩ := List.filterMap_eq_append_iff.mp split
    obtain ⟨skipped, e, rest, rfl, _, isEntry, rfl⟩ := List.filterMap_eq_cons_iff.mp split
    refine ⟨first ++ skipped, e, rest, by simp, isEntry, ?_⟩
    intro f mem struck
    exact kept (List.mem_filterMap.mpr ⟨f, mem, struck⟩)
  · intro entered
    obtain ⟨before, e, after, rfl, isEntry, kept⟩ := entered
    refine ⟨before.filterMap entry, after.filterMap entry, ?_, ?_⟩
    · simp [isEntry]
    · intro struck
      obtain ⟨f, mem, isStruck⟩ := List.mem_filterMap.mp struck
      exact kept f mem isStruck

theorem nodup_eraseIdx {items : List α} (distinct : items.Nodup) {position : Nat}
    (inside : position < items.length) :
    items.eraseIdx position = items.filter (· ≠ items[position]) := by
  rw [← distinct.erase_getElem position inside, distinct.erase_eq_filter]
  apply List.filter_congr
  intro b _
  by_cases same : b = items[position]
  · simp [same]
  · simp [same]

section Registers

variable {E V : Type} (sets : E → Option V) (amend : V → E → V)

def record (current : Option V) (e : E) : Option V :=
  match sets e with
  | some v => some v
  | none => current.map fun v => amend v e

/-- What a register holds after a log of events that set it or amend it. -/
def reading (log : List E) : Option V := log.foldl (record sets amend) none

theorem reading_set (log : List E) {e : E} {v : V} (set : sets e = some v) :
    reading sets amend (log ++ [e]) = some v := by
  simp [reading, record, set]

theorem reading_amend (log : List E) {e : E} (amended : sets e = none) :
    reading sets amend (log ++ [e]) = (reading sets amend log).map fun v => amend v e := by
  simp [reading, record, amended]

theorem reading_iff (log : List E) (v : V) : reading sets amend log = some v ↔
    ∃ before e own after, log = before ++ e :: after ∧ sets e = some own ∧
      (∀ f ∈ after, sets f = none) ∧ after.foldl amend own = v := by
  induction log using List.reverseRecOn generalizing v with
  | nil => simp [reading]
  | append_singleton log last ih =>
    cases set : sets last with
    | some own =>
      rw [reading_set sets amend log set]
      constructor
      · intro holds
        exact ⟨log, last, own, [], rfl, set, by simp, Option.some.inj holds⟩
      · intro described
        obtain ⟨before, e, other, after, split, isSet, unset, value⟩ := described
        rcases List.eq_nil_or_concat after with rfl | ⟨init, final, rfl⟩
        · obtain ⟨_, same⟩ := List.append_inj' split rfl
          obtain rfl := List.singleton_inj.mp same
          rw [set] at isSet
          exact isSet.trans (congrArg some value)
        · have ends : log ++ [last] = (before ++ e :: init) ++ [final] := by simpa using split
          obtain ⟨_, same⟩ := List.append_inj' ends rfl
          obtain rfl := List.singleton_inj.mp same
          have := unset last (by simp)
          rw [set] at this
          cases this
    | none =>
      rw [reading_amend sets amend log set, Option.map_eq_some_iff]
      constructor
      · intro held
        obtain ⟨old, holds, rfl⟩ := held
        obtain ⟨before, e, own, after, rfl, isSet, unset, rfl⟩ := (ih old).mp holds
        refine ⟨before, e, own, after ++ [last], by simp, isSet, ?_, by simp⟩
        intro f mem
        rcases List.mem_append.mp mem with mem | mem
        · exact unset f mem
        · rw [List.mem_singleton.mp mem, set]
      · intro described
        obtain ⟨before, e, own, after, split, isSet, unset, rfl⟩ := described
        rcases List.eq_nil_or_concat after with rfl | ⟨init, final, rfl⟩
        · obtain ⟨_, same⟩ := List.append_inj' split rfl
          obtain rfl := List.singleton_inj.mp same
          rw [set] at isSet
          cases isSet
        · have ends : log ++ [last] = (before ++ e :: init) ++ [final] := by simpa using split
          obtain ⟨rfl, same⟩ := List.append_inj' ends rfl
          obtain rfl := List.singleton_inj.mp same
          refine ⟨init.foldl amend own, ?_, by simp⟩
          exact (ih _).mpr ⟨before, e, own, init, rfl, isSet,
            fun f mem => unset f (by simp [mem]), rfl⟩

theorem reading_filter (p : E → Bool)
    (inert : ∀ e, p e = false → sets e = none ∧ ∀ v, amend v e = v) (log : List E) :
    reading sets amend (log.filter p) = reading sets amend log := by
  have skipped : ∀ (current : Option V) (e : E),
      (if p e = true then record sets amend current e else current) = record sets amend current e := by
    intro current e
    cases kept : p e with
    | true => rfl
    | false =>
      obtain ⟨unset, same⟩ := inert e kept
      simp [record, unset, same]
  rw [reading, List.foldl_filter]
  simp only [skipped]
  rfl

end Registers

end Ledgers
