import Mathlib.Data.List.Find
import Mathlib.Data.List.Induction
import Mathlib.Data.List.Nodup
import Mathlib.Data.Set.Card

/-!
A map that remembers the order in which its keys were first inserted. Inserting
at a present key replaces the value and keeps the position; a new key goes last.
-/
namespace IndexedMap

variable {K V : Type}

structure IndexMap (K V : Type) where
  entries : List (K × V)
  nodup : (entries.map Prod.fst).Nodup

variable [DecidableEq K]

def putEntry (k : K) (v : V) : List (K × V) → List (K × V)
  | [] => [(k, v)]
  | e :: rest => if e.1 = k then (k, v) :: rest else e :: putEntry k v rest

def getEntry (k : K) : List (K × V) → Option V
  | [] => none
  | e :: rest => if e.1 = k then some e.2 else getEntry k rest

theorem putEntry_keys (k : K) (v : V) (l : List (K × V)) :
    (putEntry k v l).map Prod.fst =
      if k ∈ l.map Prod.fst then l.map Prod.fst else l.map Prod.fst ++ [k] := by
  induction l with
  | nil => rfl
  | cons e rest ih =>
    by_cases same : e.1 = k
    · simp [putEntry, same]
    · have other : ¬ k = e.1 := fun h => same h.symm
      simp only [putEntry, if_neg same, List.map_cons, ih, List.mem_cons, other, false_or]
      split <;> rfl

theorem putEntry_fresh (k : K) (v : V) (l : List (K × V)) (fresh : k ∉ l.map Prod.fst) :
    putEntry k v l = l ++ [(k, v)] := by
  induction l with
  | nil => rfl
  | cons e rest ih =>
    simp only [List.map_cons, List.mem_cons, not_or] at fresh
    rw [putEntry, if_neg fun same => fresh.1 same.symm, ih fresh.2]
    rfl

theorem getEntry_put (k x : K) (v : V) (l : List (K × V)) :
    getEntry x (putEntry k v l) = if x = k then some v else getEntry x l := by
  induction l with
  | nil =>
    simp only [putEntry, getEntry]
    split <;> split <;> simp_all
  | cons e rest ih =>
    by_cases same : e.1 = k
    · by_cases hit : x = k
      · simp [putEntry, getEntry, same, hit]
      · have miss : ¬ k = x := fun h => hit h.symm
        simp [putEntry, getEntry, same, hit, miss]
    · simp only [putEntry, if_neg same, getEntry, ih]
      by_cases hit : e.1 = x
      · have miss : ¬ x = k := fun h => same (hit.trans h)
        simp [hit, miss]
      · simp [hit]

theorem getEntry_isSome (k : K) (l : List (K × V)) :
    (getEntry k l).isSome ↔ k ∈ l.map Prod.fst := by
  induction l with
  | nil => simp [getEntry]
  | cons e rest ih =>
    simp only [getEntry, List.map_cons, List.mem_cons]
    split
    · rename_i hit
      simp [hit]
    · rename_i miss
      have other : ¬ k = e.1 := fun h => miss h.symm
      simp [ih, other]

theorem mem_of_getEntry (k : K) (v : V) (l : List (K × V)) (found : getEntry k l = some v) :
    (k, v) ∈ l := by
  induction l with
  | nil => cases found
  | cons e rest ih =>
    rw [getEntry] at found
    split at found
    · rename_i hit
      rw [← hit, ← Option.some.inj found]
      exact List.mem_cons_self
    · exact List.mem_cons_of_mem _ (ih found)

theorem getEntry_of_mem (e : K × V) (l : List (K × V)) (nodup : (l.map Prod.fst).Nodup)
    (mem : e ∈ l) : getEntry e.1 l = some e.2 := by
  induction l with
  | nil => cases mem
  | cons f rest ih =>
    simp only [List.map_cons, List.nodup_cons] at nodup
    rw [getEntry]
    rcases List.mem_cons.mp mem with rfl | later
    · simp
    · have other : ¬ f.1 = e.1 := fun same =>
        nodup.1 (same ▸ List.mem_map_of_mem later)
      rw [if_neg other]
      exact ih nodup.2 later

theorem entries_ext (a b : List (K × V)) (nodup : (a.map Prod.fst).Nodup)
    (keys : a.map Prod.fst = b.map Prod.fst) (get : ∀ k, getEntry k a = getEntry k b) : a = b := by
  induction a generalizing b with
  | nil =>
    cases b with
    | nil => rfl
    | cons e rest => simp at keys
  | cons e rest ih =>
    cases b with
    | nil => simp at keys
    | cons f more =>
      simp only [List.map_cons, List.cons.injEq] at keys
      obtain ⟨headKey, tailKeys⟩ := keys
      simp only [List.map_cons, List.nodup_cons] at nodup
      have headValue : e.2 = f.2 := by
        have h := get e.1
        simpa [getEntry, headKey] using h
      have tails : rest = more := by
        refine ih more nodup.2 tailKeys fun k => ?_
        by_cases hit : e.1 = k
        · have fresh : k ∉ rest.map Prod.fst := hit ▸ nodup.1
          have freshMore : k ∉ more.map Prod.fst := tailKeys ▸ fresh
          rw [← getEntry_isSome] at fresh freshMore
          simp only [Option.not_isSome_iff_eq_none] at fresh freshMore
          rw [fresh, freshMore]
        · have missMore : ¬ f.1 = k := headKey ▸ hit
          have h := get k
          simpa [getEntry, hit, missMore] using h
      rw [tails, Prod.ext headKey headValue]

namespace IndexMap

def empty : IndexMap K V := ⟨[], List.nodup_nil⟩

def get (m : IndexMap K V) (k : K) : Option V := getEntry k m.entries

def keys (m : IndexMap K V) : List K := m.entries.map Prod.fst

def values (m : IndexMap K V) : List V := m.entries.map Prod.snd

def containsKey (m : IndexMap K V) (k : K) : Bool := (m.get k).isSome

def insert (m : IndexMap K V) (k : K) (v : V) : IndexMap K V where
  entries := putEntry k v m.entries
  nodup := by
    rw [putEntry_keys]
    split
    · exact m.nodup
    · rename_i fresh
      rw [List.nodup_append]
      refine ⟨m.nodup, List.nodup_singleton k, fun a mem b single => ?_⟩
      rw [List.mem_singleton] at single
      subst single
      exact fun same => fresh (same ▸ mem)

def ofList (l : List (K × V)) : IndexMap K V := l.foldl (fun m e => m.insert e.1 e.2) empty

@[simp] theorem get_empty (k : K) : (empty : IndexMap K V).get k = none := rfl

@[simp] theorem get_insert (m : IndexMap K V) (k x : K) (v : V) :
    (m.insert k v).get x = if x = k then some v else m.get x := getEntry_put k x v m.entries

theorem get_insert_own (key : V → K) {m : IndexMap K V}
    (own : ∀ k v, m.get k = some v → key v = k) (v : V) :
    ∀ k w, (m.insert (key v) v).get k = some w → key w = k := by
  intro k w found
  rw [get_insert] at found
  split at found
  · rename_i same
    rw [← Option.some.inj found, same]
  · exact own k w found

theorem keys_insert (m : IndexMap K V) (k : K) (v : V) :
    (m.insert k v).keys = if k ∈ m.keys then m.keys else m.keys ++ [k] :=
  putEntry_keys k v m.entries

theorem values_insert_fresh (m : IndexMap K V) (k : K) (v : V) (fresh : k ∉ m.keys) :
    (m.insert k v).values = m.values ++ [v] := by
  simp [values, insert, putEntry_fresh k v m.entries fresh]

theorem mem_keys (m : IndexMap K V) (k : K) : k ∈ m.keys ↔ (m.get k).isSome :=
  (getEntry_isSome k m.entries).symm

theorem containsKey_iff (m : IndexMap K V) (k : K) : m.containsKey k = true ↔ k ∈ m.keys := by
  rw [mem_keys, containsKey]

theorem get_of_mem (m : IndexMap K V) (e : K × V) (mem : e ∈ m.entries) :
    m.get e.1 = some e.2 := getEntry_of_mem e m.entries m.nodup mem

theorem mem_of_get (m : IndexMap K V) (k : K) (v : V) (found : m.get k = some v) :
    (k, v) ∈ m.entries := mem_of_getEntry k v m.entries found

omit [DecidableEq K] in
theorem ext_of_entries (m n : IndexMap K V) (same : m.entries = n.entries) : m = n := by
  cases m
  cases n
  cases same
  rfl

theorem ext_of_get (m n : IndexMap K V) (keys : m.keys = n.keys)
    (get : ∀ k, m.get k = n.get k) : m = n :=
  ext_of_entries m n (entries_ext _ _ m.nodup keys get)

def insertAll (m : IndexMap K V) (l : List (K × V)) : IndexMap K V :=
  l.foldl (fun m e => m.insert e.1 e.2) m

theorem get_insertAll (m : IndexMap K V) (l : List (K × V)) (k : K) :
    (m.insertAll l).get k = ((l.reverse.find? fun e => e.1 = k).map Prod.snd).or (m.get k) := by
  induction l using List.reverseRecOn with
  | nil => rfl
  | append_singleton l e ih =>
    have added : m.insertAll (l ++ [e]) = (m.insertAll l).insert e.1 e.2 := by
      rw [insertAll, List.foldl_concat, ← insertAll]
    rw [added, get_insert, List.reverse_concat, List.find?_cons]
    by_cases hit : e.1 = k
    · simp [hit]
    · have miss : ¬ k = e.1 := fun same => hit same.symm
      simp [hit, miss, ih]

theorem get_ofList (l : List (K × V)) (k : K) :
    (ofList l).get k = (l.reverse.find? fun e => e.1 = k).map Prod.snd :=
  (get_insertAll empty l k).trans (Option.or_none ..)

theorem get_insertAll_entries (m : IndexMap K V) (f : V → V) (k : K) :
    (m.insertAll (m.entries.map fun e => (e.1, f e.2))).get k = (m.get k).map f := by
  rw [get_insertAll]
  cases found : m.get k with
  | none =>
    have absent : (m.entries.map fun e => (e.1, f e.2)).reverse.find? (fun e => e.1 = k) = none := by
      rw [List.find?_eq_none]
      intro e mem hit
      obtain ⟨entry, stored, rfl⟩ := List.mem_map.mp (List.mem_reverse.mp mem)
      have here := m.get_of_mem entry stored
      rw [of_decide_eq_true hit, found] at here
      cases here
    rw [absent]
    rfl
  | some v =>
    cases last : (m.entries.map fun e => (e.1, f e.2)).reverse.find? (fun e => e.1 = k) with
    | none =>
      have listed : (k, f v) ∈ (m.entries.map fun e => (e.1, f e.2)).reverse :=
        List.mem_reverse.mpr (List.mem_map.mpr ⟨_, m.mem_of_get k v found, rfl⟩)
      exact absurd (decide_eq_true rfl) (List.find?_eq_none.mp last _ listed)
    | some e =>
      have listed := List.mem_reverse.mp (List.mem_of_find?_eq_some last)
      obtain ⟨entry, stored, rfl⟩ := List.mem_map.mp listed
      have here := m.get_of_mem entry stored
      have hit : entry.1 = k := by simpa using List.find?_some last
      rw [hit, found] at here
      obtain rfl := Option.some.inj here
      rfl

theorem entries_around (m : IndexMap K V) {k : K} {v : V} (found : m.get k = some v) :
    ∃ before after, m.entries = before ++ (k, v) :: after ∧
      (∀ e ∈ before, e.1 ≠ k) ∧ ∀ e ∈ after, e.1 ≠ k := by
  obtain ⟨before, after, split⟩ := List.append_of_mem (m.mem_of_get k v found)
  have nodup := m.nodup
  rw [split, List.map_append, List.nodup_append] at nodup
  obtain ⟨_, later, apart⟩ := nodup
  refine ⟨before, after, split, ?_, ?_⟩
  · intro e mem same
    exact apart e.1 (List.mem_map_of_mem mem) k (List.mem_map_of_mem List.mem_cons_self) same
  · intro e mem same
    rw [List.map_cons, List.nodup_cons] at later
    exact later.1 (List.mem_map.mpr ⟨e, mem, same⟩)

theorem entries_insert_fresh (m : IndexMap K V) (k : K) (v : V) (fresh : k ∉ m.keys) :
    (m.insert k v).entries = m.entries ++ [(k, v)] := putEntry_fresh k v m.entries fresh

theorem entries_insertAll_fresh (l : List (K × V)) (m : IndexMap K V)
    (fresh : ((m.entries ++ l).map Prod.fst).Nodup) : (m.insertAll l).entries = m.entries ++ l := by
  induction l generalizing m with
  | nil => exact (List.append_nil _).symm
  | cons e rest ih =>
    have absent : e.1 ∉ m.keys := by
      rw [List.map_append, List.nodup_append] at fresh
      exact fun mem => fresh.2.2 e.1 mem e.1 (List.mem_map_of_mem List.mem_cons_self) rfl
    have added := m.entries_insert_fresh e.1 e.2 absent
    have step : m.insertAll (e :: rest) = (m.insert e.1 e.2).insertAll rest := rfl
    rw [step, ih (m.insert e.1 e.2) (by rw [added, List.append_assoc]; exact fresh), added,
      List.append_assoc]
    rfl

theorem ofList_entries (m : IndexMap K V) : ofList m.entries = m :=
  ext_of_entries _ m (entries_insertAll_fresh m.entries empty m.nodup)

end IndexMap

section Latest

variable {A : Type} {key : V → K}

def Latest (key : V → K) (items : List V) (v : V) : Prop :=
  items.reverse.find? (fun w => key w = key v) = some v

theorem latest_mem {items : List V} {v : V} (latest : Latest key items v) : v ∈ items :=
  List.mem_reverse.mp (List.mem_of_find?_eq_some latest)

theorem latest_append (before after : List V) (v : V) :
    Latest key (before ++ after) v ↔
      Latest key after v ∨ Latest key before v ∧ key v ∉ after.map key := by
  have absent : after.reverse.find? (fun w => key w = key v) = none ↔ key v ∉ after.map key := by
    simp only [List.find?_eq_none, List.mem_reverse, decide_eq_true_eq, List.mem_map, not_exists,
      not_and]
  rw [← absent, Latest, Latest, Latest, List.reverse_append, List.find?_append]
  cases found : after.reverse.find? (fun w => key w = key v) with
  | none => simp
  | some w => simp

theorem latest_map (f : A → V) (items : List A) (v : V) :
    Latest key (items.map f) v ↔ ∃ a, Latest (fun a => key (f a)) items a ∧ f a = v := by
  rw [Latest, ← List.map_reverse, List.find?_map, Option.map_eq_some_iff]
  constructor
  · rintro ⟨a, found, rfl⟩
    exact ⟨a, found, rfl⟩
  · rintro ⟨a, found, rfl⟩
    exact ⟨a, found, rfl⟩

theorem exists_latest {items : List V} {k : K} (present : k ∈ items.map key) :
    ∃ v, Latest key items v ∧ key v = k := by
  obtain ⟨w, mem, rfl⟩ := List.mem_map.mp present
  cases found : items.reverse.find? (fun v => key v = key w) with
  | none =>
    have missed := List.find?_eq_none.mp found w (List.mem_reverse.mpr mem)
    exact absurd (decide_eq_true rfl) missed
  | some v =>
    have same : key v = key w := by simpa using List.find?_some found
    refine ⟨v, ?_, same⟩
    rw [Latest, same]
    exact found

theorem get_indexed (key : V → K) (items : List V) (k : K) :
    (IndexMap.ofList (items.map fun v => (key v, v))).get k =
      items.reverse.find? fun v => key v = k := by
  rw [IndexMap.get_ofList, ← List.map_reverse, List.find?_map, Option.map_map]
  exact congrFun Option.map_id _

def indexed (key : V → K) (items : List V) : IndexMap K V :=
  IndexMap.ofList (items.map fun v => (key v, v))

theorem mem_keys_indexed (key : V → K) (items : List V) (k : K) :
    k ∈ (indexed key items).keys ↔ k ∈ items.map key := by
  rw [IndexMap.mem_keys, indexed, get_indexed, List.find?_isSome]
  simp only [List.mem_reverse, decide_eq_true_eq, List.mem_map]

theorem mem_values_indexed (key : V → K) (items : List V) (v : V) :
    v ∈ (indexed key items).values ↔ Latest key items v := by
  constructor
  · intro listed
    obtain ⟨e, stored, rfl⟩ := List.mem_map.mp listed
    have found := (indexed key items).get_of_mem e stored
    rw [indexed, get_indexed] at found
    have same : key e.2 = e.1 := by simpa using List.find?_some found
    rw [Latest, same]
    exact found
  · intro latest
    have found : (indexed key items).get (key v) = some v := (get_indexed key items _).trans latest
    exact List.mem_map.mpr ⟨_, IndexMap.mem_of_get _ _ _ found, rfl⟩

theorem get_indexed_some (key : V → K) {items : List V} {v : V} (mem : v ∈ items) :
    ∃ w, (indexed key items).get (key v) = some w ∧ key w = key v := by
  obtain ⟨w, latest, same⟩ := exists_latest (List.mem_map_of_mem (f := key) mem)
  refine ⟨w, ?_, same⟩
  rw [indexed, get_indexed, ← same]
  exact latest

theorem indexes_agree_iff {L : Type} [DecidableEq L] (key : V → K) (other : V → L)
    (items : List V) :
    (∀ v ∈ items, (indexed key items).get (key v) = (indexed other items).get (other v)) ↔
      ∀ v ∈ items, ∀ w ∈ items, (key v = key w ↔ other v = other w) := by
  constructor
  · intro agree v memV w memW
    obtain ⟨a, foundA, keyA⟩ := get_indexed_some key memV
    obtain ⟨b, foundB, keyB⟩ := get_indexed_some key memW
    obtain ⟨c, foundC, otherC⟩ := get_indexed_some other memV
    obtain ⟨d, foundD, otherD⟩ := get_indexed_some other memW
    have first : a = c := Option.some.inj (foundA.symm.trans ((agree v memV).trans foundC))
    have second : b = d := Option.some.inj (foundB.symm.trans ((agree w memW).trans foundD))
    subst first
    subst second
    constructor
    · intro same
      rw [same, foundB] at foundA
      obtain rfl := Option.some.inj foundA
      exact otherC.symm.trans otherD
    · intro same
      rw [same, foundD] at foundC
      obtain rfl := Option.some.inj foundC
      exact keyA.symm.trans keyB
  · intro apart v mem
    rw [indexed, indexed, get_indexed, get_indexed]
    apply List.find?_congr
    intro w memW
    exact decide_eq_decide.mpr (apart w (List.mem_reverse.mp memW) v mem)

theorem latest_values_indexed (key : V → K) (items : List V) (v : V) :
    Latest key (indexed key items).values v ↔ Latest key items v := by
  constructor
  · intro latest
    exact (mem_values_indexed key items v).mp (latest_mem latest)
  · intro latest
    have listed := (mem_values_indexed key items v).mpr latest
    obtain ⟨w, last, same⟩ := exists_latest (List.mem_map_of_mem (f := key) listed)
    have other := (mem_values_indexed key items w).mp (latest_mem last)
    rw [Latest, same, latest] at other
    obtain rfl := Option.some.inj other
    exact last

theorem indexed_append (key : V → K) (before after : List V) :
    (indexed key before).insertAll (after.map fun v => (key v, v)) =
      indexed key (before ++ after) := by
  simp only [indexed, IndexMap.ofList, IndexMap.insertAll, List.map_append, List.foldl_append]

theorem latest_unique {items : List V} {v w : V} (one : Latest key items v)
    (other : Latest key items w) (same : key v = key w) : v = w := by
  rw [Latest, same, other] at one
  exact (Option.some.inj one).symm

theorem get_indexed_iff (key : V → K) (items : List V) (k : K) (v : V) :
    (indexed key items).get k = some v ↔ Latest key items v ∧ key v = k := by
  rw [indexed, get_indexed]
  constructor
  · intro found
    have same : key v = k := by simpa using List.find?_some found
    subst same
    exact ⟨found, rfl⟩
  · intro both
    obtain ⟨latest, rfl⟩ := both
    exact latest

def SameLatest (key : V → K) (items others : List V) : Prop :=
  ∀ v, Latest key items v ↔ Latest key others v

theorem mem_keys_of_sameLatest {items others : List V} (same : SameLatest key items others) (k : K) :
    k ∈ items.map key ↔ k ∈ others.map key := by
  have half : ∀ {a b : List V}, SameLatest key a b → k ∈ a.map key → k ∈ b.map key := by
    intro a b same present
    obtain ⟨v, latest, rfl⟩ := exists_latest present
    exact List.mem_map_of_mem (latest_mem ((same v).mp latest))
  exact ⟨half same, half fun v => (same v).symm⟩

theorem sameLatest_append {before others : List V} (same : SameLatest key before others)
    (after : List V) : SameLatest key (before ++ after) (others ++ after) := by
  intro v
  rw [latest_append, latest_append, same v]

theorem sameLatest_indexed (key : V → K) (link : V → A) (items : List V) :
    SameLatest Prod.fst ((indexed key items).values.map fun v => (key v, link v))
      (items.map fun v => (key v, link v)) := by
  intro e
  rw [latest_map, latest_map]
  simp only [latest_values_indexed]

theorem ncard_eq_length_iff {s : Set V} {names : List A} {name : V → A} (apart : Set.InjOn name s)
    (listed : ∀ v ∈ s, name v ∈ names) :
    s.ncard = names.length ↔ names.Nodup ∧ ∀ n ∈ names, ∃ v ∈ s, name v = n := by
  classical
  have inside : name '' s ⊆ (names.toFinset : Set A) := by
    intro n image
    obtain ⟨v, mem, rfl⟩ := image
    exact List.mem_toFinset.mpr (listed v mem)
  have fewer := Set.ncard_le_ncard inside names.toFinset.finite_toSet
  rw [Set.ncard_coe_finset, apart.ncard_image] at fewer
  have most := names.toFinset_card_le
  constructor
  · intro counted
    have full : names.toFinset.card = names.length := by omega
    have whole : name '' s = names.toFinset := by
      apply Set.eq_of_subset_of_ncard_le inside
      rw [Set.ncard_coe_finset, apart.ncard_image]
      omega
    constructor
    · exact Multiset.toFinset_card_eq_card_iff_nodup.mp full
    · intro n mem
      have image : n ∈ name '' s := by
        rw [whole]
        exact List.mem_toFinset.mpr mem
      exact image
  · intro both
    obtain ⟨nodup, found⟩ := both
    have whole : name '' s = names.toFinset := by
      apply inside.antisymm
      intro n mem
      exact found n (List.mem_toFinset.mp mem)
    rw [← apart.ncard_image, whole, Set.ncard_coe_finset, List.toFinset_card_of_nodup nodup]

end Latest

section Links

/-- Every kept entry that has a link links to something known. -/
def Linked (links : List (K × Option K)) (known : K → Prop) : Prop :=
  ∀ e, Latest Prod.fst links e → ∀ k, e.2 = some k → known k

theorem linked_append (before after : List (K × Option K)) (known : K → Prop) :
    Linked (before ++ after) known ↔ Linked after known ∧
      ∀ e, Latest Prod.fst before e → e.1 ∉ after.map Prod.fst → ∀ k, e.2 = some k → known k := by
  constructor
  · intro linked
    exact ⟨fun e latest => linked e ((latest_append before after e).mpr (.inl latest)),
      fun e latest kept => linked e ((latest_append before after e).mpr (.inr ⟨latest, kept⟩))⟩
  · rintro ⟨later, earlier⟩ e latest
    rcases (latest_append before after e).mp latest with last | ⟨first, kept⟩
    · exact later e last
    · exact earlier e first kept

theorem linked_append_same {before others after : List (K × Option K)}
    (same : SameLatest Prod.fst before others) (known : K → Prop) :
    Linked (before ++ after) known ↔ Linked after known ∧
      ∀ e, Latest Prod.fst others e → e.1 ∉ after.map Prod.fst →
        ∀ k, e.2 = some k → known k := by
  rw [linked_append]
  simp only [same _]

theorem linked_same {links others : List (K × Option K)} (same : SameLatest Prod.fst links others)
    (known : K → Prop) : Linked links known ↔ Linked others known := by
  unfold Linked
  simp only [same _]

theorem linked_to {links : List (K × Option K)} {k : K} (known : K → Prop)
    (all : ∀ e ∈ links, e.2 = some k) : Linked links known ↔ links ≠ [] → known k := by
  constructor
  · intro linked filled
    obtain ⟨first, rest, rfl⟩ := List.exists_cons_of_ne_nil filled
    obtain ⟨e, latest, _⟩ := exists_latest (List.mem_map_of_mem (f := Prod.fst)
      (List.mem_cons_self (a := first) (l := rest)))
    exact linked e latest k (all e (latest_mem latest))
  · intro there e latest target linked
    have mem := latest_mem latest
    rw [all e mem] at linked
    obtain rfl := Option.some.inj linked
    exact there (List.ne_nil_of_mem mem)

end Links

example : ((IndexMap.empty.insert 1 'a').insert 2 'b' |>.insert 1 'c').entries =
    [(1, 'c'), (2, 'b')] := by decide

end IndexedMap
