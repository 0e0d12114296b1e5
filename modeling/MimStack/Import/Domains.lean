import MimStack.Import.Owl

/-!
Where the loop over the properties stops. One round hands the domains and ranges
of the properties over one inverse link and then over one sub-property link, so
what is filled after some rounds can be read off the links of the ontology alone.
The loop looks at the number of domains only.
-/
namespace MimImport.OwlModel
open SortedStore Saturation

inductive Facet where
  | domain
  | range
  deriving DecidableEq

def Facet.other : Facet → Facet
  | .domain => .range
  | .range => .domain

def facetOf (p : OwlProperty) : Facet → Option String
  | .domain => p.domain
  | .range => p.range

def Filled (properties : SortedMap String OwlProperty) (name : String) (facet : Facet) : Prop :=
  ((properties.get name).bind (facetOf · facet)).isSome

/-- One more round gives no property a domain or a range. -/
def Stable (owl : OwlModel) : Prop :=
  ∀ name facet, Filled owl.resolveStep.properties name facet → Filled owl.properties name facet

def InverseLink (properties : SortedMap String OwlProperty) (name partner : String) : Prop :=
  (properties.get name).bind (·.inverseOf) = some partner

def ParentLink (properties : SortedMap String OwlProperty) (name parent : String) : Prop :=
  parent ∈ ((properties.get name).map (·.parents)).getD []

/-- What the links of an ontology fill in so many rounds, each of them an inverse link, a
sub-property link or the one after the other. -/
inductive Reaches (properties : SortedMap String OwlProperty) : Nat → String → Facet → Prop where
  | given {name : String} {facet : Facet} (filled : Filled properties name facet) :
      Reaches properties 0 name facet
  | later {n : Nat} {name : String} {facet : Facet} (before : Reaches properties n name facet) :
      Reaches properties (n + 1) name facet
  | inverse {n : Nat} {name partner : String} {facet : Facet}
      (before : Reaches properties n name facet.other)
      (link : InverseLink properties name partner) : Reaches properties (n + 1) partner facet
  | inherit {n : Nat} {name parent : String} {facet : Facet}
      (before : Reaches properties n parent facet) (link : ParentLink properties name parent) :
      Reaches properties (n + 1) name facet
  | both {n : Nat} {name partner child : String} {facet : Facet}
      (before : Reaches properties n name facet.other)
      (inverse : InverseLink properties name partner)
      (inherit : ParentLink properties child partner) : Reaches properties (n + 1) child facet

/-- As long as the links have anything left to fill, each round fills a new domain. -/
def DomainEachRound (owl : OwlModel) : Prop :=
  ∀ n, (∃ m name facet, Reaches owl.properties m name facet ∧
      ¬ Reaches owl.properties (n + 1) name facet) →
    ∃ name, Reaches owl.properties (n + 1) name .domain ∧ ¬ Reaches owl.properties n name .domain

def updateFacet (u : DomainUpdate) : Facet → Option String
  | .domain => u.domain
  | .range => u.range

theorem facetOf_fill (p : OwlProperty) (u : DomainUpdate) (facet : Facet) :
    facetOf (p.fill u.domain u.range) facet = (facetOf p facet).or (updateFacet u facet) := by
  cases facet <;> rfl

theorem facetOf_inherited (p : OwlProperty) (u : DomainUpdate) (facet : Facet) :
    facetOf ((p.fill u.domain u.range).inheritKind u.kind) facet =
      (facetOf p facet).or (updateFacet u facet) := by
  cases facet <;> rfl

section Updates

variable (change : DomainUpdate → OwlProperty → OwlProperty)

theorem filled_updates
    (fills : ∀ u p facet, facetOf (change u p) facet = (facetOf p facet).or (updateFacet u facet))
    (updates : List DomainUpdate) (m : SortedMap String OwlProperty) (name : String)
    (facet : Facet) :
    Filled (updates.foldl (fun m u => m.update u.property unknownProperty (change u)) m)
        name facet ↔
      Filled m name facet ∨ ∃ u ∈ updates, u.property = name ∧ (updateFacet u facet).isSome := by
  induction updates generalizing m with
  | nil => simp
  | cons u rest ih =>
    have first : Filled (m.update u.property unknownProperty (change u)) name facet ↔
        Filled m name facet ∨ (u.property = name ∧ (updateFacet u facet).isSome) := by
      unfold Filled
      rw [SortedMap.get_update]
      by_cases here : name = u.property
      · subst here
        cases m.get u.property with
        | none =>
          have blank : facetOf unknownProperty facet = none := by cases facet <;> rfl
          simp [fills, blank]
        | some p => simp [fills]
      · simp [here, Ne.symm here]
    rw [List.foldl_cons, ih, first]
    simp only [List.exists_mem_cons_iff, or_assoc]

theorem links_updates (partner : ∀ u p, (change u p).inverseOf = p.inverseOf)
    (parents : ∀ u p, (change u p).parents = p.parents) (updates : List DomainUpdate)
    (m : SortedMap String OwlProperty) (name other : String) :
    (InverseLink (updates.foldl (fun m u => m.update u.property unknownProperty (change u)) m)
        name other ↔ InverseLink m name other) ∧
      (ParentLink (updates.foldl (fun m u => m.update u.property unknownProperty (change u)) m)
        name other ↔ ParentLink m name other) := by
  induction updates generalizing m with
  | nil => exact ⟨Iff.rfl, Iff.rfl⟩
  | cons u rest ih =>
    have first : (InverseLink (m.update u.property unknownProperty (change u)) name other ↔
        InverseLink m name other) ∧
        (ParentLink (m.update u.property unknownProperty (change u)) name other ↔
          ParentLink m name other) := by
      unfold InverseLink ParentLink
      rw [SortedMap.get_update]
      by_cases here : name = u.property
      · subst here
        cases m.get u.property <;> simp [partner, parents, unknownProperty]
      · simp [here]
    rw [List.foldl_cons, (ih _).1, (ih _).2]
    exact first

end Updates

section Round

variable (owl : OwlModel) (name other : String) (facet : Facet)

theorem filled_inverseDomains : Filled owl.resolveInverseDomains.properties name facet ↔
    Filled owl.properties name facet ∨
      ∃ p, InverseLink owl.properties p name ∧ Filled owl.properties p facet.other := by
  have given : (∃ u ∈ owl.inverseUpdates, u.property = name ∧ (updateFacet u facet).isSome) ↔
      ∃ p, InverseLink owl.properties p name ∧ Filled owl.properties p facet.other := by
    constructor
    · rintro ⟨u, mem, target, has⟩
      obtain ⟨p, stored, update⟩ := List.mem_filterMap.mp mem
      obtain ⟨e, listed, rfl⟩ := List.mem_map.mp stored
      obtain ⟨partner, inverse, rfl⟩ := Option.map_eq_some_iff.mp update
      have found := owl.properties.get_of_mem e listed
      refine ⟨e.1, ?_, ?_⟩
      · rw [InverseLink, found, ← target]
        exact inverse
      · rw [Filled, found]
        cases facet <;> exact has
    · rintro ⟨p, link, has⟩
      obtain ⟨property, found, inverse⟩ := Option.bind_eq_some_iff.mp link
      refine ⟨⟨name, property.range, property.domain, .object⟩, ?_, rfl, ?_⟩
      · refine List.mem_filterMap.mpr ⟨property,
          List.mem_map_of_mem (owl.properties.mem_of_get p property found), ?_⟩
        rw [inverse]
        rfl
      · rw [Filled, found] at has
        cases facet <;> exact has
  rw [← given]
  exact filled_updates _ (fun u p => facetOf_fill p u) owl.inverseUpdates owl.properties name facet

theorem filled_subpropertyDomains : Filled owl.resolveSubpropertyDomains.properties name facet ↔
    Filled owl.properties name facet ∨
      ∃ parent, ParentLink owl.properties name parent ∧ Filled owl.properties parent facet := by
  have given : (∃ u ∈ owl.inheritance, u.property = name ∧ (updateFacet u facet).isSome) ↔
      ∃ parent, ParentLink owl.properties name parent ∧ Filled owl.properties parent facet := by
    constructor
    · rintro ⟨u, mem, target, has⟩
      obtain ⟨e, listed, inherited⟩ := List.mem_flatMap.mp mem
      obtain ⟨parentName, declared, update⟩ := List.mem_filterMap.mp inherited
      obtain ⟨parent, found, rfl⟩ := Option.map_eq_some_iff.mp update
      refine ⟨parentName, ?_, ?_⟩
      · rw [ParentLink, ← target, owl.properties.get_of_mem e listed]
        exact declared
      · rw [Filled, found]
        cases facet <;> exact has
    · rintro ⟨parentName, link, has⟩
      cases own : owl.properties.get name with
      | none =>
        rw [ParentLink, own] at link
        cases link
      | some property =>
        rw [ParentLink, own] at link
        obtain ⟨value, held⟩ := Option.isSome_iff_exists.mp has
        obtain ⟨parent, found, value⟩ := Option.bind_eq_some_iff.mp held
        refine ⟨⟨name, parent.domain, parent.range, parent.propertyType⟩, ?_, rfl, ?_⟩
        · refine List.mem_flatMap.mpr ⟨(name, property),
            owl.properties.mem_of_get name property own, ?_⟩
          refine List.mem_filterMap.mpr ⟨parentName, link, ?_⟩
          rw [found]
          rfl
        · rw [Filled, found] at has
          cases facet <;> exact has
  rw [← given]
  exact filled_updates _ (fun u p => facetOf_inherited p u) owl.inheritance owl.properties name
    facet

theorem links_inverseDomains :
    (InverseLink owl.resolveInverseDomains.properties name other ↔
      InverseLink owl.properties name other) ∧
    (ParentLink owl.resolveInverseDomains.properties name other ↔
      ParentLink owl.properties name other) :=
  links_updates (fun u p => p.fill u.domain u.range) (fun _ _ => rfl) (fun _ _ => rfl)
    owl.inverseUpdates owl.properties name other

theorem links_subpropertyDomains :
    (InverseLink owl.resolveSubpropertyDomains.properties name other ↔
      InverseLink owl.properties name other) ∧
    (ParentLink owl.resolveSubpropertyDomains.properties name other ↔
      ParentLink owl.properties name other) :=
  links_updates (fun u p => (p.fill u.domain u.range).inheritKind u.kind)
    (fun _ _ => rfl) (fun _ _ => rfl) owl.inheritance owl.properties name other

theorem links_step :
    (InverseLink owl.resolveStep.properties name other ↔ InverseLink owl.properties name other) ∧
    (ParentLink owl.resolveStep.properties name other ↔ ParentLink owl.properties name other) := by
  have first := links_inverseDomains owl name other
  have second := links_subpropertyDomains owl.resolveInverseDomains name other
  exact ⟨second.1.trans first.1, second.2.trans first.2⟩

theorem filled_step : Filled owl.resolveStep.properties name facet ↔
    Filled owl.properties name facet ∨
      (∃ p, InverseLink owl.properties p name ∧ Filled owl.properties p facet.other) ∨
      ∃ parent, ParentLink owl.properties name parent ∧ (Filled owl.properties parent facet ∨
        ∃ p, InverseLink owl.properties p parent ∧ Filled owl.properties p facet.other) := by
  rw [resolveStep, filled_subpropertyDomains]
  simp only [filled_inverseDomains, (links_inverseDomains owl _ _).2, or_assoc]

end Round

section Rounds

variable (owl : OwlModel)

theorem links_rounds (n : Nat) (name other : String) :
    (InverseLink (resolveStep^[n] owl).properties name other ↔
      InverseLink owl.properties name other) ∧
    (ParentLink (resolveStep^[n] owl).properties name other ↔
      ParentLink owl.properties name other) := by
  induction n with
  | zero => exact ⟨Iff.rfl, Iff.rfl⟩
  | succ n ih =>
    rw [Function.iterate_succ_apply']
    have step := links_step (resolveStep^[n] owl) name other
    exact ⟨step.1.trans ih.1, step.2.trans ih.2⟩

theorem filled_rounds (n : Nat) (name : String) (facet : Facet) :
    Filled (resolveStep^[n] owl).properties name facet ↔ Reaches owl.properties n name facet := by
  induction n generalizing name facet with
  | zero =>
    constructor
    · exact .given
    · intro reached
      cases reached with
      | given filled => exact filled
  | succ n ih =>
    rw [Function.iterate_succ_apply', filled_step]
    simp only [ih, (links_rounds owl n _ _).1, (links_rounds owl n _ _).2]
    constructor
    · rintro (before | ⟨p, link, before⟩ | ⟨parent, link, before | ⟨p, inverse, before⟩⟩)
      · exact .later before
      · exact .inverse before link
      · exact .inherit before link
      · exact .both before inverse link
    · intro reached
      cases reached with
      | later before => exact .inl before
      | inverse before link => exact .inr (.inl ⟨_, link, before⟩)
      | inherit before link => exact .inr (.inr ⟨_, link, .inl before⟩)
      | both before inverse inherit => exact .inr (.inr ⟨_, inherit, .inr ⟨_, inverse, before⟩⟩)

theorem reaches_mono {properties : SortedMap String OwlProperty} {m n : Nat} (le : m ≤ n)
    {name : String} {facet : Facet} (reached : Reaches properties m name facet) :
    Reaches properties n name facet := by
  induction le with
  | refl => exact reached
  | step _ ih => exact .later ih

theorem mem_withDomain_iff (name : String) :
    name ∈ withDomain owl.properties ↔ Filled owl.properties name .domain := by
  rw [mem_withDomain, Filled]
  cases owl.properties.get name with
  | none => simp
  | some p => simp [facetOf]

theorem count_same_iff (n : Nat) :
    (resolveStep^[n + 1] owl).propertiesWithDomainCount =
        (resolveStep^[n] owl).propertiesWithDomainCount ↔
      ∀ name, Reaches owl.properties (n + 1) name .domain →
        Reaches owl.properties n name .domain := by
  have grows : withDomain (resolveStep^[n] owl).properties ⊆
      withDomain (resolveStep^[n + 1] owl).properties := by
    intro name mem
    rw [mem_withDomain_iff, filled_rounds] at mem ⊢
    exact .later mem
  rw [count_eq_card, count_eq_card]
  constructor
  · intro same name reached
    have equal := Finset.eq_of_subset_of_card_le grows same.le
    rw [← filled_rounds, ← mem_withDomain_iff] at reached ⊢
    rw [equal]
    exact reached
  · intro old
    have equal : withDomain (resolveStep^[n + 1] owl).properties =
        withDomain (resolveStep^[n] owl).properties := by
      apply Finset.Subset.antisymm _ grows
      intro name mem
      rw [mem_withDomain_iff, filled_rounds] at mem ⊢
      exact old name mem
    rw [equal]

theorem stable_rounds_iff (n : Nat) : Stable (resolveStep^[n] owl) ↔
    ∀ name facet, Reaches owl.properties (n + 1) name facet →
      Reaches owl.properties n name facet := by
  unfold Stable
  rw [← Function.iterate_succ_apply' resolveStep]
  simp only [filled_rounds]

theorem reaches_settled {n : Nat} (settled : ∀ name facet,
    Reaches owl.properties (n + 1) name facet → Reaches owl.properties n name facet) (m : Nat)
    (name : String) (facet : Facet) (reached : Reaches owl.properties m name facet) :
    Reaches owl.properties n name facet := by
  induction reached with
  | given filled => exact reaches_mono (Nat.zero_le n) (.given filled)
  | later _ ih => exact ih
  | inverse _ link ih => exact settled _ _ (.inverse ih link)
  | inherit _ link ih => exact settled _ _ (.inherit ih link)
  | both _ inverse inherit ih => exact settled _ _ (.both ih inverse inherit)

end Rounds

/-- The loop over the property domains ends, and it ends in a fixpoint exactly when each of its
rounds before the last thing is filled fills a new domain. -/
theorem resolvePropertyDomains_stable_iff (owl : OwlModel) :
    settle propertiesWithDomainCount resolveStep
        (owl.properties.size + owl.inversePartners.length + 1) owl =
      some owl.resolvePropertyDomains ∧
    (Stable owl.resolvePropertyDomains ↔ DomainEachRound owl) := by
  have ended := owl.resolvePropertyDomains_settles
  refine ⟨ended, ?_⟩
  obtain ⟨k, last, same, earlier⟩ := settle_first _ owl ended
  rw [last, stable_rounds_iff]
  rw [count_same_iff] at same
  constructor
  · intro settled n pending
    obtain ⟨m, name, facet, reached, notYet⟩ := pending
    have before : n < k := by
      by_contra late
      have here := reaches_settled owl settled m name facet reached
      exact notYet (reaches_mono (by omega) here)
    have grown := earlier n before
    rw [ne_eq, count_same_iff] at grown
    simpa only [not_forall, exists_prop] using grown
  · intro each name facet reached
    by_contra notYet
    obtain ⟨fresh, new, old⟩ := each k ⟨k + 2, name, facet, reached, notYet⟩
    exact old (same fresh new)

def lateRange : OwlModel where
  properties := .ofList [
    ("hasPart", { name := "hasPart" }),
    ("isPartOf", { name := "isPartOf", parents := ["isRelatedTo"], inverseOf := some "hasPart" }),
    ("isRelatedTo", { name := "isRelatedTo", range := some "Unit" })]

/-- The first round fills a range and no domain, so the loop ends before the second. -/
theorem lateRange_unstable :
    settle propertiesWithDomainCount resolveStep
        (lateRange.properties.size + lateRange.inversePartners.length + 1) lateRange =
      some lateRange.resolvePropertyDomains ∧
    Filled lateRange.resolvePropertyDomains.resolveStep.properties "hasPart" .domain ∧
    ¬ Filled lateRange.resolvePropertyDomains.properties "hasPart" .domain ∧
    ¬ Stable lateRange.resolvePropertyDomains := by
  have next : Filled lateRange.resolvePropertyDomains.resolveStep.properties "hasPart" .domain :=
    rfl
  have missing : ¬ Filled lateRange.resolvePropertyDomains.properties "hasPart" .domain :=
    Bool.false_ne_true
  exact ⟨rfl, next, missing, fun stable => missing (stable _ _ next)⟩

end MimImport.OwlModel
