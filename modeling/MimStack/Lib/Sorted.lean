import MimStack.Lib.IndexMap
import Mathlib.Data.String.Basic

/-!
Maps and sets that are kept and read in the order of their keys. Inserting at a
present key replaces the value.
-/
namespace SortedStore
open IndexedMap

structure SortedMap (K V : Type) [LinearOrder K] where
  entries : List (K × V)
  sorted : (entries.map Prod.fst).Pairwise (· < ·)

abbrev SortedSet (K : Type) [LinearOrder K] := SortedMap K Unit

section Entries

variable {K V : Type} [LinearOrder K]

def setEntry (k : K) (v : V) : List (K × V) → List (K × V)
  | [] => [(k, v)]
  | e :: rest =>
    if k < e.1 then (k, v) :: e :: rest
    else if e.1 = k then (k, v) :: rest
    else e :: setEntry k v rest

theorem mem_setEntry_keys (k x : K) (v : V) (l : List (K × V)) :
    x ∈ (setEntry k v l).map Prod.fst ↔ x = k ∨ x ∈ l.map Prod.fst := by
  induction l with
  | nil => simp [setEntry]
  | cons e rest ih =>
    rw [setEntry]
    split
    · simp
    · split
      · rename_i same
        simp [same]
      · simp only [List.map_cons, List.mem_cons, ih]
        tauto

theorem setEntry_sorted (k : K) (v : V) (l : List (K × V))
    (sorted : (l.map Prod.fst).Pairwise (· < ·)) :
    ((setEntry k v l).map Prod.fst).Pairwise (· < ·) := by
  induction l with
  | nil => exact List.pairwise_singleton _ _
  | cons e rest ih =>
    obtain ⟨first, later⟩ := List.pairwise_cons.mp sorted
    rw [setEntry]
    split
    · rename_i before
      refine List.pairwise_cons.mpr ⟨fun x mem => ?_, sorted⟩
      rcases List.mem_cons.mp mem with rfl | mem
      · exact before
      · exact lt_trans before (first x mem)
    · rename_i unbefore
      split
      · rename_i same
        subst same
        exact List.pairwise_cons.mpr ⟨first, later⟩
      · rename_i other
        refine List.pairwise_cons.mpr ⟨fun x mem => ?_, ih later⟩
        rcases (mem_setEntry_keys k x v rest).mp mem with rfl | mem
        · exact lt_of_le_of_ne (not_lt.mp unbefore) other
        · exact first x mem

theorem getEntry_set (k x : K) (v : V) (l : List (K × V)) :
    getEntry x (setEntry k v l) = if x = k then some v else getEntry x l := by
  induction l with
  | nil =>
    by_cases hit : x = k
    · simp [setEntry, getEntry, hit]
    · simp [setEntry, getEntry, hit, Ne.symm hit]
  | cons e rest ih =>
    rw [setEntry]
    split
    · by_cases hit : x = k
      · simp [getEntry, hit]
      · simp [getEntry, hit, Ne.symm hit]
    · split
      · rename_i same
        subst same
        by_cases hit : x = e.1
        · simp [getEntry, hit]
        · simp [getEntry, hit, Ne.symm hit]
      · rename_i other
        simp only [getEntry, ih]
        by_cases hit : e.1 = x
        · have miss : ¬ x = k := fun same => other (hit.trans same)
          simp [hit, miss]
        · simp [hit]

theorem getEntry_filter (k x : K) (l : List (K × V)) :
    getEntry x (l.filter fun e => e.1 != k) = if x = k then none else getEntry x l := by
  induction l with
  | nil => simp [getEntry]
  | cons e rest ih =>
    by_cases erased : e.1 = k
    · rw [List.filter_cons_of_neg (by simp [erased]), ih, getEntry]
      by_cases hit : x = k
      · rw [if_pos hit, if_pos hit]
      · rw [if_neg hit, if_neg hit, if_neg (fun same => hit (same.symm.trans erased))]
    · rw [List.filter_cons_of_pos (by simp [erased]), getEntry, getEntry, ih]
      by_cases hit : e.1 = x
      · rw [if_pos hit, if_pos hit, if_neg (fun same => erased (hit.trans same))]
      · rw [if_neg hit, if_neg hit]

end Entries

namespace SortedMap

variable {K V : Type} [LinearOrder K]

def empty : SortedMap K V := ⟨[], List.Pairwise.nil⟩

def get (m : SortedMap K V) (k : K) : Option V := getEntry k m.entries

def keys (m : SortedMap K V) : List K := m.entries.map Prod.fst

def values (m : SortedMap K V) : List V := m.entries.map Prod.snd

def containsKey (m : SortedMap K V) (k : K) : Bool := (m.get k).isSome

def size (m : SortedMap K V) : Nat := m.entries.length

def insert (m : SortedMap K V) (k : K) (v : V) : SortedMap K V :=
  ⟨setEntry k v m.entries, setEntry_sorted k v m.entries m.sorted⟩

def update (m : SortedMap K V) (k : K) (fresh : V) (change : V → V) : SortedMap K V :=
  m.insert k (change ((m.get k).getD fresh))

def erase (m : SortedMap K V) (k : K) : SortedMap K V where
  entries := m.entries.filter fun e => e.1 != k
  sorted := m.sorted.sublist (List.filter_sublist.map _)

def ofList (l : List (K × V)) : SortedMap K V := l.foldl (fun m e => m.insert e.1 e.2) empty

@[simp] theorem get_insert (m : SortedMap K V) (k x : K) (v : V) :
    (m.insert k v).get x = if x = k then some v else m.get x := getEntry_set k x v m.entries

@[simp] theorem get_update (m : SortedMap K V) (k x : K) (fresh : V) (change : V → V) :
    (m.update k fresh change).get x =
      if x = k then some (change ((m.get k).getD fresh)) else m.get x := get_insert ..

@[simp] theorem get_erase (m : SortedMap K V) (k x : K) :
    (m.erase k).get x = if x = k then none else m.get x := getEntry_filter k x m.entries

theorem mem_keys (m : SortedMap K V) (k : K) : k ∈ m.keys ↔ (m.get k).isSome :=
  (getEntry_isSome k m.entries).symm

theorem nodup_keys (m : SortedMap K V) : m.keys.Nodup := m.sorted.imp ne_of_lt

theorem get_of_mem (m : SortedMap K V) (e : K × V) (mem : e ∈ m.entries) :
    m.get e.1 = some e.2 := getEntry_of_mem e m.entries m.nodup_keys mem

theorem mem_of_get (m : SortedMap K V) (k : K) (v : V) (found : m.get k = some v) :
    (k, v) ∈ m.entries := mem_of_getEntry k v m.entries found

end SortedMap

namespace SortedSet

variable {K : Type} [LinearOrder K]

def toList (s : SortedSet K) : List K := s.keys

def contains (s : SortedSet K) (k : K) : Bool := s.containsKey k

def add (s : SortedSet K) (k : K) : SortedSet K := s.insert k ()

def addAll (s : SortedSet K) (l : List K) : SortedSet K := l.foldl add s

theorem contains_add (s : SortedSet K) (k x : K) :
    (s.add k).contains x = true ↔ x = k ∨ s.contains x = true := by
  rw [contains, SortedMap.containsKey, add, SortedMap.get_insert]
  by_cases hit : x = k
  · simp [hit]
  · simp [hit, contains, SortedMap.containsKey]

theorem contains_erase (s : SortedSet K) (k x : K) :
    SortedSet.contains (s.erase k) x = true ↔ x ≠ k ∧ s.contains x = true := by
  rw [contains, SortedMap.containsKey, SortedMap.get_erase]
  by_cases hit : x = k
  · simp [hit]
  · simp [hit, contains, SortedMap.containsKey]

theorem contains_addAll (s : SortedSet K) (l : List K) (x : K) :
    (s.addAll l).contains x = true ↔ x ∈ l ∨ s.contains x = true := by
  induction l generalizing s with
  | nil => simp [addAll]
  | cons k rest ih =>
    have step : s.addAll (k :: rest) = (s.add k).addAll rest := rfl
    rw [step, ih, contains_add, List.mem_cons, or_left_comm, or_assoc]

theorem contains_empty (x : K) : SortedSet.contains (SortedMap.empty : SortedSet K) x = false := rfl

theorem mem_toList (s : SortedSet K) (x : K) : x ∈ s.toList ↔ s.contains x = true :=
  SortedMap.mem_keys s x

end SortedSet

example : ((SortedMap.empty.insert "b" 1).insert "a" 2 |>.insert "b" 3).entries =
    [("a", 2), ("b", 3)] := by decide

end SortedStore
