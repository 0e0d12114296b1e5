import MimStack.Lib.Saturation
import MimStack.Lib.Sorted
import MimStack.Lib.Text

/-!
An ontology as the importer reads it: classes with their parents, properties with
their domains, enumerations with their values, each in the order of the names.
-/
namespace MimImport
open RustText SortedStore Saturation

inductive OwlPropertyKind where
  | object
  | data
  deriving DecidableEq

structure OwlClass where
  name : String := ""
  label : Option String := none
  parents : List String := []
  isEnumeration : Bool := false

structure OwlProperty where
  name : String := ""
  label : Option String := none
  propertyType : OwlPropertyKind := .object
  domain : Option String := none
  range : Option String := none
  parents : List String := []
  inverseOf : Option String := none

structure OwlModel where
  classes : SortedMap String OwlClass := .empty
  properties : SortedMap String OwlProperty := .empty
  enumerations : SortedMap String (List String) := .empty

def normalizeOwlRef (value : String) : String :=
  let trimmed := trim value
  match afterLast '#' trimmed with
  | some name => name
  | none =>
    match afterLast '/' trimmed with
    | some name => name
    | none => trimStartMatches (· == '#') trimmed

def unknownProperty : OwlProperty := { name := "unknown" }

def OwlProperty.fill (p : OwlProperty) (domain range : Option String) : OwlProperty :=
  { p with domain := p.domain.or domain, range := p.range.or range }

def OwlProperty.inheritKind (p : OwlProperty) (kind : OwlPropertyKind) : OwlProperty :=
  { p with propertyType := if p.propertyType = .object ∧ kind = .data then kind else p.propertyType }

structure DomainUpdate where
  property : String
  domain : Option String
  range : Option String
  kind : OwlPropertyKind

namespace OwlModel

def classNames (owl : OwlModel) : List String := owl.classes.keys

def propertiesWithDomainCount (owl : OwlModel) : Nat :=
  owl.properties.values.countP fun property => property.domain.isSome

def inverseUpdates (owl : OwlModel) : List DomainUpdate :=
  owl.properties.values.filterMap fun property =>
    property.inverseOf.map fun partner => ⟨partner, property.range, property.domain, .object⟩

def resolveInverseDomains (owl : OwlModel) : OwlModel :=
  let fillIn := fun (properties : SortedMap String OwlProperty) (u : DomainUpdate) =>
    properties.update u.property unknownProperty fun entry => entry.fill u.domain u.range
  { owl with properties := owl.inverseUpdates.foldl fillIn owl.properties }

def inheritance (owl : OwlModel) : List DomainUpdate :=
  owl.properties.entries.flatMap fun e =>
    e.2.parents.filterMap fun parentName =>
      (owl.properties.get parentName).map fun parent =>
        ⟨e.1, parent.domain, parent.range, parent.propertyType⟩

def resolveSubpropertyDomains (owl : OwlModel) : OwlModel :=
  let inherit := fun (properties : SortedMap String OwlProperty) (u : DomainUpdate) =>
    properties.update u.property unknownProperty fun entry =>
      (entry.fill u.domain u.range).inheritKind u.kind
  { owl with properties := owl.inheritance.foldl inherit owl.properties }

def resolveStep (owl : OwlModel) : OwlModel :=
  owl.resolveInverseDomains.resolveSubpropertyDomains

def inversePartners (owl : OwlModel) : List String :=
  owl.properties.values.filterMap (·.inverseOf)

/-- Resolves both ways until no more properties have a domain. -/
def resolvePropertyDomains (owl : OwlModel) : OwlModel :=
  (settle propertiesWithDomainCount resolveStep
    (owl.properties.size + owl.inversePartners.length + 1) owl).getD owl

def children (owl : OwlModel) (current : String) : List String :=
  (owl.classes.entries.filter fun e => e.2.parents.any (· == current)).map Prod.fst

def descendantsOf (owl : OwlModel) (root : String) : List String :=
  (saturate owl.children (owl.classes.size + 1) ⟨[], [root]⟩).getD []

def parentsOf (owl : OwlModel) (current : String) : List String :=
  ((owl.classes.get current).map (·.parents)).getD []

/-- The ancestors in the order in which they are first met. -/
def ancestorsOf (owl : OwlModel) (className : String) : List String :=
  ((saturate owl.parentsOf ((owl.classes.values.flatMap (·.parents)).length + 1)
    ⟨[className], [className]⟩).getD []).drop 1

section Reach

theorem mem_children (owl : OwlModel) (name current : String) :
    name ∈ owl.children current ↔ ∃ c, owl.classes.get name = some c ∧ current ∈ c.parents := by
  simp only [children, List.mem_map, List.mem_filter, List.any_eq_true, beq_iff_eq, exists_eq_right]
  constructor
  · rintro ⟨e, ⟨stored, parent⟩, rfl⟩
    exact ⟨e.2, owl.classes.get_of_mem e stored, parent⟩
  · rintro ⟨c, found, parent⟩
    exact ⟨(name, c), ⟨owl.classes.mem_of_get name c found, parent⟩, rfl⟩

theorem descendantsOf_ends (owl : OwlModel) (root : String) :
    saturate owl.children (owl.classes.size + 1) ⟨[], [root]⟩ = some (owl.descendantsOf root) ∧
      (owl.descendantsOf root).Nodup := by
  have inside : ∀ a, ∀ b ∈ owl.children a, b ∈ owl.classNames.toFinset := by
    intro a b child
    obtain ⟨c, found, _⟩ := (owl.mem_children b a).mp child
    exact List.mem_toFinset.mpr (List.mem_map_of_mem (owl.classes.mem_of_get b c found))
  have enough : remaining owl.classNames.toFinset ⟨[], [root]⟩ ≤ owl.classes.size + 1 := by
    have few : owl.classNames.toFinset.card ≤ owl.classes.size := by
      refine (List.toFinset_card_le _).trans ?_
      rw [classNames, SortedMap.keys, List.length_map, SortedMap.size]
    simp only [remaining, List.length_singleton, List.toFinset_nil, Finset.sdiff_empty]
    omega
  obtain ⟨found, ended⟩ := Option.isSome_iff_exists.mp
    (saturate_ends inside _ ⟨[], [root]⟩ enough)
  have same : owl.descendantsOf root = found := by
    rw [descendantsOf, ended, Option.getD_some]
  rw [same]
  exact ⟨ended, saturate_nodup _ _ List.nodup_nil ended⟩

theorem mem_descendantsOf_iff (owl : OwlModel) (root name : String) :
    name ∈ owl.descendantsOf root ↔
      Relation.TransGen (fun a b => b ∈ owl.children a) root name := by
  rw [mem_saturate_iff (fun y mem => absurd mem List.not_mem_nil) (owl.descendantsOf_ends root).1]
  simp

theorem ancestorsOf_ends (owl : OwlModel) (className : String) :
    saturate owl.parentsOf ((owl.classes.values.flatMap (·.parents)).length + 1)
        ⟨[className], [className]⟩ = some (className :: owl.ancestorsOf className) ∧
      (className :: owl.ancestorsOf className).Nodup := by
  have inside : ∀ a, ∀ b ∈ owl.parentsOf a,
      b ∈ (owl.classes.values.flatMap (·.parents)).toFinset := by
    intro a b parent
    rw [List.mem_toFinset, List.mem_flatMap]
    unfold parentsOf at parent
    cases found : owl.classes.get a with
    | none =>
      rw [found] at parent
      cases parent
    | some c =>
      rw [found] at parent
      exact ⟨c, List.mem_map_of_mem (owl.classes.mem_of_get a c found), parent⟩
  have enough : remaining (owl.classes.values.flatMap (·.parents)).toFinset
      ⟨[className], [className]⟩ ≤ (owl.classes.values.flatMap (·.parents)).length + 1 := by
    have few := (Finset.card_le_card (Finset.sdiff_subset (s :=
      (owl.classes.values.flatMap (·.parents)).toFinset) (t := [className].toFinset))).trans
        (List.toFinset_card_le _)
    simp only [remaining, List.length_singleton]
    omega
  obtain ⟨found, ended⟩ := Option.isSome_iff_exists.mp
    (saturate_ends inside _ ⟨[className], [className]⟩ enough)
  obtain ⟨rest, shape⟩ := saturate_prefix _ _ ended
  have same : className :: owl.ancestorsOf className = found := by
    rw [ancestorsOf, ended, ← shape]
    rfl
  rw [same]
  exact ⟨ended, saturate_nodup _ _ (List.nodup_singleton className) ended⟩

theorem mem_ancestorsOf_iff (owl : OwlModel) (className name : String) :
    name = className ∨ name ∈ owl.ancestorsOf className ↔
      Relation.ReflTransGen (fun a b => b ∈ owl.parentsOf a) className name := by
  rw [← List.mem_cons, mem_saturate_iff (fun y mem => List.mem_singleton.mp mem)
    (owl.ancestorsOf_ends className).1, Relation.reflTransGen_iff_eq_or_transGen,
    List.mem_singleton]

end Reach

section Resolve

structure Extends (allowed : Finset String) (before after : SortedMap String OwlProperty) :
    Prop where
  resolved : ∀ name p, before.get name = some p → p.domain.isSome →
    ∃ q, after.get name = some q ∧ q.domain.isSome
  partners : ∀ name q, after.get name = some q → q.inverseOf = none ∨
    ∃ p, before.get name = some p ∧ p.inverseOf = q.inverseOf
  keys : ∀ name, (after.get name).isSome → (before.get name).isSome ∨ name ∈ allowed

variable {allowed : Finset String}

theorem Extends.refl (m : SortedMap String OwlProperty) : Extends allowed m m :=
  ⟨fun _ p found domain => ⟨p, found, domain⟩, fun _ q found => .inr ⟨q, found, rfl⟩,
    fun _ found => .inl found⟩

theorem Extends.trans {a b c : SortedMap String OwlProperty} (first : Extends allowed a b)
    (second : Extends allowed b c) : Extends allowed a c where
  resolved name p found domain := by
    obtain ⟨q, found, domain⟩ := first.resolved name p found domain
    exact second.resolved name q found domain
  partners name r found := by
    rcases second.partners name r found with absent | ⟨q, found, same⟩
    · exact .inl absent
    · rcases first.partners name q found with absent | ⟨p, found, before⟩
      · exact .inl (same ▸ absent)
      · exact .inr ⟨p, found, before.trans same⟩
  keys name found := (second.keys name found).elim (first.keys name) .inr

theorem extends_update (m : SortedMap String OwlProperty) {name : String}
    (known : (m.get name).isSome ∨ name ∈ allowed) {change : OwlProperty → OwlProperty}
    (domain : ∀ p, p.domain.isSome → (change p).domain.isSome)
    (partner : ∀ p, (change p).inverseOf = p.inverseOf) :
    Extends allowed m (m.update name unknownProperty change) where
  resolved other p found has := by
    rw [SortedMap.get_update]
    split
    · rename_i same
      subst same
      exact ⟨_, rfl, by rw [found]; exact domain p has⟩
    · exact ⟨p, found, has⟩
  partners other q found := by
    rw [SortedMap.get_update] at found
    split at found
    · rename_i same
      subst same
      obtain rfl := Option.some.inj found
      rw [partner]
      cases there : m.get other with
      | none => exact .inl rfl
      | some p => exact .inr ⟨p, rfl, rfl⟩
    · exact .inr ⟨q, found, rfl⟩
  keys other found := by
    rw [SortedMap.get_update] at found
    split at found
    · rename_i same
      exact same ▸ known
    · exact .inl found

theorem extends_updates (updates : List DomainUpdate) (m : SortedMap String OwlProperty)
    (known : ∀ u ∈ updates, (m.get u.property).isSome ∨ u.property ∈ allowed)
    {change : DomainUpdate → OwlProperty → OwlProperty}
    (domain : ∀ u p, p.domain.isSome → (change u p).domain.isSome)
    (partner : ∀ u p, (change u p).inverseOf = p.inverseOf) :
    Extends allowed m (updates.foldl (fun m u => m.update u.property unknownProperty (change u)) m) := by
  induction updates generalizing m with
  | nil => exact .refl m
  | cons u rest ih =>
    have first := extends_update m (known u List.mem_cons_self) (domain u) (partner u)
    refine first.trans (ih _ fun v mem => ?_)
    refine (known v (List.mem_cons_of_mem _ mem)).imp_left fun there => ?_
    rw [SortedMap.get_update]
    split
    · rfl
    · exact there

theorem fill_domain (p : OwlProperty) (domain range : Option String) (has : p.domain.isSome) :
    (p.fill domain range).domain.isSome := by
  rw [OwlProperty.fill, Option.isSome_or, has, Bool.true_or]

theorem mem_inversePartners {owl : OwlModel} {name partner : String} {p : OwlProperty}
    (found : owl.properties.get name = some p) (inverse : p.inverseOf = some partner) :
    partner ∈ owl.inversePartners :=
  List.mem_filterMap.mpr
    ⟨p, List.mem_map_of_mem (owl.properties.mem_of_get name p found), inverse⟩

theorem resolveInverseDomains_extends {owl : OwlModel}
    (partners : ∀ partner ∈ owl.inversePartners, partner ∈ allowed) :
    Extends allowed owl.properties owl.resolveInverseDomains.properties := by
  refine extends_updates owl.inverseUpdates owl.properties ?_
    (fun u p => fill_domain p u.domain u.range) fun u p => rfl
  intro u mem
  obtain ⟨p, stored, some_partner⟩ := List.mem_filterMap.mp mem
  obtain ⟨partner, inverse, rfl⟩ := Option.map_eq_some_iff.mp some_partner
  exact .inr (partners partner (List.mem_filterMap.mpr ⟨p, stored, inverse⟩))

theorem resolveSubpropertyDomains_extends (owl : OwlModel) :
    Extends allowed owl.properties owl.resolveSubpropertyDomains.properties := by
  refine extends_updates owl.inheritance owl.properties ?_
    (fun u p => fill_domain p u.domain u.range) fun u p => rfl
  intro u mem
  obtain ⟨e, stored, inherited⟩ := List.mem_flatMap.mp mem
  obtain ⟨parentName, _, some_parent⟩ := List.mem_filterMap.mp inherited
  obtain ⟨parent, _, rfl⟩ := Option.map_eq_some_iff.mp some_parent
  exact .inl (Option.isSome_iff_exists.mpr ⟨_, owl.properties.get_of_mem e stored⟩)

structure Named (allowed : Finset String) (owl : OwlModel) : Prop where
  keys : ∀ name, (owl.properties.get name).isSome → name ∈ allowed
  partners : ∀ partner ∈ owl.inversePartners, partner ∈ allowed

theorem Named.extended {before after : OwlModel} (named : Named allowed before)
    (extended : Extends allowed before.properties after.properties) : Named allowed after where
  keys name found := (extended.keys name found).elim (named.keys name) id
  partners partner mem := by
    obtain ⟨q, stored, inverse⟩ := List.mem_filterMap.mp mem
    obtain ⟨e, listed, rfl⟩ := List.mem_map.mp stored
    have found := after.properties.get_of_mem e listed
    rcases extended.partners _ _ found with absent | ⟨p, found, same⟩
    · rw [absent] at inverse
      cases inverse
    · exact named.partners partner (mem_inversePartners found (same.trans inverse))

theorem resolveStep_extends {owl : OwlModel} (named : Named allowed owl) :
    Extends allowed owl.properties owl.resolveStep.properties := by
  have first := resolveInverseDomains_extends named.partners
  exact first.trans (resolveSubpropertyDomains_extends _)

def withDomain (m : SortedMap String OwlProperty) : Finset String :=
  m.keys.toFinset.filter fun name => ((m.get name).bind (·.domain)).isSome

theorem mem_withDomain (m : SortedMap String OwlProperty) (name : String) :
    name ∈ withDomain m ↔ ∃ p, m.get name = some p ∧ p.domain.isSome := by
  rw [withDomain, Finset.mem_filter, List.mem_toFinset, SortedMap.mem_keys]
  cases m.get name with
  | none => simp
  | some p => simp

theorem count_eq_card (owl : OwlModel) :
    owl.propertiesWithDomainCount = (withDomain owl.properties).card := by
  have names : withDomain owl.properties =
      ((owl.properties.entries.filter fun e => e.2.domain.isSome).map Prod.fst).toFinset := by
    ext name
    rw [mem_withDomain, List.mem_toFinset, List.mem_map]
    constructor
    · rintro ⟨p, found, domain⟩
      exact ⟨(name, p), List.mem_filter.mpr
        ⟨owl.properties.mem_of_get name p found, domain⟩, rfl⟩
    · rintro ⟨e, mem, rfl⟩
      obtain ⟨stored, domain⟩ := List.mem_filter.mp mem
      exact ⟨e.2, owl.properties.get_of_mem e stored, domain⟩
  have distinct : ((owl.properties.entries.filter fun e => e.2.domain.isSome).map Prod.fst).Nodup :=
    owl.properties.nodup_keys.sublist (List.filter_sublist.map _)
  rw [names, List.toFinset_card_of_nodup distinct, List.length_map, propertiesWithDomainCount,
    SortedMap.values, List.countP_map, List.countP_eq_length_filter]
  rfl

theorem count_le_of_extends {before after : OwlModel}
    (extended : Extends allowed before.properties after.properties) :
    before.propertiesWithDomainCount ≤ after.propertiesWithDomainCount := by
  rw [count_eq_card, count_eq_card]
  refine Finset.card_le_card fun name mem => ?_
  obtain ⟨p, found, domain⟩ := (mem_withDomain _ _).mp mem
  exact (mem_withDomain _ _).mpr (extended.resolved name p found domain)

def propertyNames (owl : OwlModel) : Finset String :=
  owl.properties.keys.toFinset ∪ owl.inversePartners.toFinset

theorem named_propertyNames (owl : OwlModel) : Named owl.propertyNames owl where
  keys _ found :=
    Finset.mem_union_left _ (List.mem_toFinset.mpr ((SortedMap.mem_keys _ _).mpr found))
  partners _ mem := Finset.mem_union_right _ (List.mem_toFinset.mpr mem)

theorem propertyNames_card (owl : OwlModel) :
    owl.propertyNames.card ≤ owl.properties.size + owl.inversePartners.length := by
  refine (Finset.card_union_le _ _).trans (Nat.add_le_add ?_ (List.toFinset_card_le _))
  refine (List.toFinset_card_le _).trans ?_
  rw [SortedMap.keys, List.length_map, SortedMap.size]

theorem count_le_of_named {owl : OwlModel} (named : Named allowed owl) :
    owl.propertiesWithDomainCount ≤ allowed.card := by
  rw [count_eq_card]
  refine Finset.card_le_card fun name mem => ?_
  obtain ⟨p, found, _⟩ := (mem_withDomain _ _).mp mem
  exact named.keys name (by rw [found]; rfl)

theorem resolvePropertyDomains_settles (owl : OwlModel) :
    settle propertiesWithDomainCount resolveStep
      (owl.properties.size + owl.inversePartners.length + 1) owl =
        some owl.resolvePropertyDomains := by
  have grows : ∀ s : OwlModel, s.propertiesWithDomainCount ≤
      s.resolveStep.propertiesWithDomainCount :=
    fun s => count_le_of_extends (resolveStep_extends s.named_propertyNames)
  have few := owl.propertyNames_card
  obtain ⟨settled, ended⟩ := Option.isSome_iff_exists.mp
    (settle_ends (Named owl.propertyNames)
      (fun s named => named.extended (resolveStep_extends named))
      (fun s named => count_le_of_named named) grows
      (owl.properties.size + owl.inversePartners.length + 1) owl owl.named_propertyNames
      (by omega))
  rw [resolvePropertyDomains, ended, Option.getD_some]

end Resolve

end OwlModel

end MimImport
