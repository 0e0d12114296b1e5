import MimStack.Import.Partition
import MimStack.Registry

/-!
What an import keeps of the properties. Each one that becomes an attribute is counted, but
the merge with a seed and the registry keep elements by name, and names are rewritten.
-/
namespace MimImport
open RustText SortedStore IndexedMap Fallible MimCore MimModel MimRuntime

section Attributes

variable [UnicodeCase] [UuidV5] {owl : OwlModel} {options : ImportOptions}

def importedProperties (owl : OwlModel) (options : ImportOptions) : List (String × OwlProperty) :=
  owl.properties.entries.filter fun p =>
    (attributeClass owl (taxonomyNames owl options) p.2).isSome

structure AttributeFor (p : String × OwlProperty) (e : ModelElementSpec) : Prop where
  kind : e.kind = .attributeElement
  name : e.name = toPascalCase p.1
  semanticId : e.semanticId = semanticIdFor p.1

def attributeMade (owl : OwlModel) (options : ImportOptions) (p : String × OwlProperty) :
    Option (Except MimError ModelElementSpec) :=
  (attributeClass owl (taxonomyNames owl options) p.2).map (propertyToElement p.1 p.2 · options)

theorem importOwlAttribute_made (entries : List (String × OwlProperty))
    {first last : AttributeImportBatch}
    (ran : entries.foldlM (importOwlAttribute owl (taxonomyNames owl options) options) first =
      .ok last) :
    ∃ added : List ModelElementSpec, last.elements = first.elements ++ added ∧
      last.imported = first.imported + added.length ∧
      (entries.filter fun p => (attributeClass owl (taxonomyNames owl options) p.2).isSome).map
        (attributeMade owl options) = added.map fun e => some (.ok e) := by
  induction entries generalizing first with
  | nil =>
    obtain rfl := Except.ok.inj ran
    exact ⟨[], (List.append_nil _).symm, rfl, rfl⟩
  | cons p entries ih =>
    rw [List.foldlM_cons] at ran
    obtain ⟨next, one, rest⟩ := bind_ok.mp ran
    obtain ⟨added, elements, imported, made⟩ := ih rest
    unfold importOwlAttribute at one
    cases found : attributeClass owl (taxonomyNames owl options) p.2 with
    | none =>
      rw [found] at one
      obtain rfl := Except.ok.inj one
      refine ⟨added, elements, imported, ?_⟩
      rw [List.filter_cons_of_neg (by rw [found]; simp), made]
    | some parent =>
      rw [found] at one
      obtain ⟨element, built, same⟩ := bind_ok.mp one
      obtain rfl := pure_ok.mp same
      refine ⟨element :: added, ?_, ?_, ?_⟩
      · rw [elements, List.append_assoc]
        rfl
      · rw [imported, List.length_cons]
        dsimp only
        omega
      · rw [List.filter_cons_of_pos (by rw [found]; rfl), List.map_cons, List.map_cons, made,
          attributeMade, found, Option.map_some, built]

theorem importOwlAttributes_made {batch : AttributeImportBatch}
    (ran : importOwlAttributes owl (taxonomyNames owl options) options = .ok batch) :
    batch.imported = batch.elements.length ∧
      (importedProperties owl options).map (attributeMade owl options) =
        batch.elements.map fun e => some (.ok e) := by
  obtain ⟨added, elements, imported, made⟩ := importOwlAttribute_made _ ran
  rw [List.nil_append] at elements
  rw [Nat.zero_add] at imported
  subst elements
  exact ⟨imported, made⟩

theorem attributeFor_made {p : String × OwlProperty} {e : ModelElementSpec}
    (made : attributeMade owl options p = some (.ok e)) : AttributeFor p e := by
  obtain ⟨parent, _, built⟩ := Option.map_eq_some_iff.mp made
  unfold propertyToElement at built
  obtain ⟨uri, _, same⟩ := bind_ok.mp built
  obtain rfl := pure_ok.mp same
  exact ⟨rfl, rfl, rfl⟩

structure SameAttribute (owl : OwlModel) (options : ImportOptions) (p q : String × OwlProperty) :
    Prop where
  name : toPascalCase p.1 = toPascalCase q.1
  semanticId : semanticIdFor p.1 = semanticIdFor q.1
  parent : attributeClass owl (taxonomyNames owl options) p.2 =
    attributeClass owl (taxonomyNames owl options) q.2
  definition : p.2.label.getD ("Imported property " ++ toPascalCase p.1) =
    q.2.label.getD ("Imported property " ++ toPascalCase q.1)
  propertyType : p.2.propertyType = q.2.propertyType
  representation : p.2.propertyType = .data →
    representationTermForRange p.2.range = representationTermForRange q.2.range

theorem sameAttribute_iff {p q : String × OwlProperty} {e f : ModelElementSpec}
    (first : attributeMade owl options p = some (.ok e))
    (second : attributeMade owl options q = some (.ok f)) :
    e = f ↔ SameAttribute owl options p q := by
  obtain ⟨parent, found, built⟩ := Option.map_eq_some_iff.mp first
  obtain ⟨parent', found', built'⟩ := Option.map_eq_some_iff.mp second
  unfold propertyToElement at built built'
  obtain ⟨uri, parsed, same⟩ := bind_ok.mp built
  obtain ⟨uri', parsed', same'⟩ := bind_ok.mp built'
  obtain rfl := pure_ok.mp same
  obtain rfl := pure_ok.mp same'
  constructor
  · intro equal
    rw [ModelElementSpec.mk.injEq] at equal
    obtain ⟨name, _, semanticId, parents, term, _, _, _, definition, _, _, upper, _⟩ := equal
    have kinds : p.2.propertyType = q.2.propertyType := by
      cases one : p.2.propertyType with
      | object =>
        cases two : q.2.propertyType with
        | object => rfl
        | data => rw [one, two] at term; cases term
      | data =>
        cases two : q.2.propertyType with
        | object => rw [one, two] at term; cases term
        | data => rfl
    refine ⟨name, semanticId, ?_, definition, kinds, ?_⟩
    · rw [found, found', Option.some.inj parents]
    · intro data
      rw [if_pos data, if_pos (kinds ▸ data)] at term
      exact Option.some.inj term
  · intro alike
    have parents : parent = parent' := by
      have both := alike.parent
      rw [found, found'] at both
      exact Option.some.inj both
    have uris : uri = uri' := by
      rw [alike.name, parents] at parsed
      exact Except.ok.inj (parsed.symm.trans parsed')
    have terms : (if p.2.propertyType = .data then some (representationTermForRange p.2.range)
        else none) = if q.2.propertyType = .data then
          some (representationTermForRange q.2.range) else none := by
      by_cases data : p.2.propertyType = .data
      · rw [if_pos data, if_pos (alike.propertyType ▸ data), alike.representation data]
      · rw [if_neg data, if_neg (alike.propertyType ▸ data)]
    have package : "Classifiers::Object::" ++ parent = "Classifiers::Object::" ++ parent' := by
      rw [parents]
    have upper : some (if p.2.propertyType = .object then "*" else "1") =
        some (if q.2.propertyType = .object then "*" else "1") := by rw [alike.propertyType]
    rw [ModelElementSpec.mk.injEq]
    exact ⟨alike.name, rfl, alike.semanticId, congrArg some parents, terms, rfl, uris, package,
      alike.definition, rfl, rfl, upper, rfl⟩

end Attributes

section Counts

variable [UnicodeCase] [UuidV5] {owl : OwlModel} {options : ImportOptions}

def propertyAttributes (properties : List (String × OwlProperty))
    (elements : Set ModelElementSpec) : Set ModelElementSpec :=
  {e | e ∈ elements ∧ ∃ p ∈ properties, AttributeFor p e}

/-- Every property is represented where an element of its name comes after. -/
def Represented (properties : List (String × OwlProperty)) (later : List ModelElementSpec) : Prop :=
  ∀ p ∈ properties, ∀ e, Latest (·.name) later e → e.name = toPascalCase p.1 → AttributeFor p e

theorem latest_attributes_count {properties : List (String × OwlProperty)}
    {own : List ModelElementSpec} (before later : List ModelElementSpec)
    (made : ∀ e ∈ own, ∃ p ∈ properties, AttributeFor p e)
    (each : ∀ p ∈ properties, ∃ e ∈ own, AttributeFor p e) :
    (propertyAttributes properties {e | Latest (·.name) (before ++ own ++ later) e}).ncard =
        properties.length ↔
      (properties.map (toPascalCase ·.1)).Nodup ∧ Represented properties later := by
  have apart : Set.InjOn (·.name) (propertyAttributes properties
      {e | Latest (·.name) (before ++ own ++ later) e}) := by
    intro e one f two same
    exact latest_unique one.1 two.1 same
  have listed : ∀ e ∈ propertyAttributes properties
      {e | Latest (·.name) (before ++ own ++ later) e},
        e.name ∈ properties.map (toPascalCase ·.1) := by
    intro e mem
    obtain ⟨_, p, property, stands⟩ := mem
    rw [stands.name]
    exact List.mem_map_of_mem property
  rw [← List.length_map (f := fun p : String × OwlProperty => toPascalCase p.1),
    ncard_eq_length_iff apart listed]
  apply and_congr_right
  intro distinct
  have only := List.inj_on_of_nodup_map distinct
  constructor
  · intro found p property e latest named
    obtain ⟨f, both, same⟩ := found _ (List.mem_map_of_mem property)
    obtain ⟨kept, q, other, stands⟩ := both
    obtain rfl := only other property (stands.name.symm.trans same)
    have last : Latest (·.name) (before ++ own ++ later) e :=
      (latest_append _ _ _).mpr (Or.inl latest)
    rw [latest_unique last kept (named.trans same.symm)]
    exact stands
  · intro represented name mem
    obtain ⟨p, property, rfl⟩ := List.mem_map.mp mem
    obtain ⟨e, element, stands⟩ := each p property
    have present : toPascalCase p.1 ∈ (before ++ own ++ later).map (·.name) := by
      rw [← stands.name]
      exact List.mem_map_of_mem (List.mem_append_left _ (List.mem_append_right _ element))
    obtain ⟨f, latest, named⟩ := exists_latest present
    refine ⟨f, ⟨latest, p, property, ?_⟩, named⟩
    rcases (latest_append _ _ _).mp latest with last | ⟨earlier, _⟩
    · exact represented p property f last named
    · rcases (latest_append _ _ _).mp earlier with imported | ⟨_, absent⟩
      · obtain ⟨q, other, represents⟩ := made f (latest_mem imported)
        obtain rfl := only other property (represents.name.symm.trans named)
        exact represents
      · apply absurd _ absent
        rw [named, ← stands.name]
        exact List.mem_map_of_mem element

theorem attributes_each {own : List ModelElementSpec}
    (made : (importedProperties owl options).map (attributeMade owl options) =
      own.map fun e => some (.ok e)) :
    (∀ e ∈ own, ∃ p ∈ importedProperties owl options, AttributeFor p e) ∧
      ∀ p ∈ importedProperties owl options, ∃ e ∈ own,
        attributeMade owl options p = some (.ok e) := by
  constructor
  · intro e mem
    have listed := List.mem_map_of_mem
      (f := fun e : ModelElementSpec => some (Except.ok e : Except MimError ModelElementSpec)) mem
    rw [← made] at listed
    obtain ⟨p, property, same⟩ := List.mem_map.mp listed
    exact ⟨p, property, attributeFor_made same⟩
  · intro p property
    have listed := List.mem_map_of_mem (f := attributeMade owl options) property
    rw [made] at listed
    obtain ⟨e, mem, same⟩ := List.mem_map.mp listed
    exact ⟨e, mem, same.symm⟩

theorem own_attributes_count {own : List ModelElementSpec}
    (made : (importedProperties owl options).map (attributeMade owl options) =
      own.map fun e => some (.ok e)) :
    {e | e ∈ own}.ncard = own.length ↔
      ∀ p ∈ importedProperties owl options, ∀ q ∈ importedProperties owl options,
        SameAttribute owl options p q → p = q := by
  have listed : ∀ e ∈ {e | e ∈ own}, id e ∈ own := fun e mem => mem
  have built := (attributes_each made).2
  have distinct : (importedProperties owl options).Nodup :=
    (List.Nodup.of_map _ owl.properties.nodup_keys).filter _
  have injective : Function.Injective
      fun e : ModelElementSpec => some (Except.ok e : Except MimError ModelElementSpec) := by
    intro e f same
    exact Except.ok.inj (Option.some.inj same)
  rw [ncard_eq_length_iff Function.injective_id.injOn listed, ← List.nodup_map_iff injective,
    ← made, List.nodup_map_iff_inj_on distinct]
  constructor
  · intro both p property q other same
    obtain ⟨e, _, first⟩ := built p property
    obtain ⟨f, _, second⟩ := built q other
    apply both.1 p property q other
    rw [first, second, (sameAttribute_iff first second).mpr same]
  · intro apart
    refine ⟨?_, fun e mem => ⟨e, mem, rfl⟩⟩
    intro p property q other same
    obtain ⟨e, _, first⟩ := built p property
    obtain ⟨f, _, second⟩ := built q other
    apply apart p property q other
    apply (sameAttribute_iff first second).mp
    exact injective (first.symm.trans (same.trans second))

end Counts

section Emitted

variable [UnicodeCase] [UuidV5] {owl : OwlModel} {options : ImportOptions}

omit [UnicodeCase] [UuidV5] in
theorem merged_elements (options : ImportOptions) (m : MimManifest) :
    SameLatest (·.name) (mergeSeedOption options m).elements
      (m.elements ++ seedElements options) := by
  unfold mergeSeedOption seedElements
  cases options.mergeSeed with
  | none =>
    simp only [Option.map_none, Option.getD_none, List.append_nil]
    exact fun e => Iff.rfl
  | some seed =>
    intro e
    dsimp only [mergeSeed]
    rw [indexed_append, latest_values_indexed]
    rfl

/-- The elements of an imported manifest: of classes, of properties, of the seed, and of
synthetic types. -/
structure EmittedElements (owl : OwlModel) (options : ImportOptions) (m base : MimManifest)
    (typed own synthetic : List ModelElementSpec) : Prop where
  imported : base.elements = typed ++ own
  elements : m.elements = (mergeSeedOption options base).elements ++ synthetic
  classKinds : ∀ e ∈ typed, e.kind = .classElement
  made : (importedProperties owl options).map (attributeMade owl options) =
    own.map fun e => some (.ok e)
  syntheticKinds : ∀ e ∈ synthetic, e.kind = .classElement
  names : synthetic.map (·.name) = syntheticNames owl options

theorem importManifest_emitted {m : MimManifest} {report : ImportReport}
    (returned : OwlImporter.importManifest owl options = some (.ok (m, report))) :
    ∃ base typed own synthetic,
      EmittedElements owl.resolvePropertyDomains options m base typed own synthetic ∧
      report.owlPropertiesImported = (importedProperties owl.resolvePropertyDomains options).length := by
  obtain ⟨classes, batch, codeLists, imported, ran, added, rfl⟩ := importManifest_parts returned
  obtain ⟨counted, made⟩ := importOwlAttributes_made ran
  have nodes : classes.taxonomy = importedNodes owl.resolvePropertyDomains options :=
    (importClasses_all imported).nodes.trans (List.nil_append _)
  have taxonomy : (importedManifest options classes batch codeLists).taxonomy =
      importedNodes owl.resolvePropertyDomains options := by
    rw [importedManifest, nodes]
  have appended := appendSyntheticCoverage_some (merged_taxonomy taxonomy) added
  unfold appendSyntheticCoverage at added
  obtain ⟨⟨last, withObjects⟩, first, rest⟩ := Option.bind_eq_some_iff.mp added
  obtain ⟨⟨final, withActions⟩, second, same⟩ := Option.bind_eq_some_iff.mp rest
  obtain rfl := Option.some.inj same
  obtain ⟨_, objects, _, objectsAdded, _, objectKinds⟩ := appendSynthetic_after first
  obtain ⟨_, actions, _, actionsAdded, _, actionKinds⟩ := appendSynthetic_after second
  have elements : withActions.elements = (mergeSeedOption options
      (importedManifest options classes batch codeLists)).elements ++ (objects ++ actions) := by
    rw [actionsAdded, objectsAdded, List.append_assoc]
  refine ⟨importedManifest options classes batch codeLists, classes.elements, batch.elements,
    objects ++ actions, ⟨rfl, elements, importClasses_kinds imported, made, ?_, ?_⟩, ?_⟩
  · intro e mem
    rcases List.mem_append.mp mem with object | action
    · exact objectKinds e object
    · exact actionKinds e action
  · have links := appended.elements
    rw [MimManifest.elementLinks, MimManifest.elementLinks, elements, List.map_append,
      List.append_cancel_left_eq] at links
    have names := congrArg (List.map Prod.fst) links
    rw [List.map_map] at names
    rw [syntheticNames, ← List.map_append]
    exact names
  · have sizes := congrArg List.length made
    rw [List.length_map, List.length_map] at sizes
    exact counted.trans sizes.symm

end Emitted

section Kept

variable [UnicodeCase] [UuidV5] {owl : OwlModel} {options : ImportOptions} {m base : MimManifest}
  {typed own synthetic : List ModelElementSpec}

def SeedOwn (owl : OwlModel) (options : ImportOptions) : Prop :=
  Represented (importedProperties owl options) (seedElements options)

def NamesApart (owl : OwlModel) (options : ImportOptions) : Prop :=
  ((importedProperties owl options).map (toPascalCase ·.1)).Nodup

/-- No property is lost in the manifest: without a seed no two become the same element, and with
one, which is merged by name, no two have the same name. -/
def KeptByMerge (owl : OwlModel) (options : ImportOptions) : Prop :=
  match options.mergeSeed with
  | none => ∀ p ∈ importedProperties owl options, ∀ q ∈ importedProperties owl options,
      SameAttribute owl options p q → p = q
  | some _ => NamesApart owl options ∧ SeedOwn owl options

/-- No property is lost by name. -/
structure KeptByName (owl : OwlModel) (options : ImportOptions) : Prop where
  apart : NamesApart owl options
  seed : SeedOwn owl options
  synthetic : ∀ p ∈ importedProperties owl options,
    toPascalCase p.1 ∉ syntheticNames owl options

omit [UnicodeCase] [UuidV5] in
theorem attributeKind {e : ModelElementSpec} (kind : e.kind = .attributeElement) :
    e.kind ≠ .classElement := by
  rw [kind]
  decide

theorem merge_count (emitted : EmittedElements owl options m base typed own synthetic) :
    (propertyAttributes (importedProperties owl options) {e | e ∈ m.elements}).ncard =
      (importedProperties owl options).length ↔ KeptByMerge owl options := by
  have each := attributes_each emitted.made
  have sizes := congrArg List.length emitted.made
  rw [List.length_map, List.length_map] at sizes
  unfold KeptByMerge
  cases merged : options.mergeSeed with
  | none =>
    dsimp only
    have whole : propertyAttributes (importedProperties owl options) {e | e ∈ m.elements} =
        {e | e ∈ own} := by
      ext e
      constructor
      · intro both
        obtain ⟨mem, p, property, stands⟩ := both
        have other := attributeKind stands.kind
        rw [Set.mem_ofPred_eq, emitted.elements, mergeSeedOption, merged, emitted.imported] at mem
        rcases List.mem_append.mp mem with imported | added
        · rcases List.mem_append.mp imported with classes | here
          · exact absurd (emitted.classKinds e classes) other
          · exact here
        · exact absurd (emitted.syntheticKinds e added) other
      · intro mem
        obtain ⟨p, property, stands⟩ := each.1 e mem
        refine ⟨?_, p, property, stands⟩
        rw [Set.mem_ofPred_eq, emitted.elements, mergeSeedOption, merged, emitted.imported]
        exact List.mem_append_left _ (List.mem_append_right _ mem)
    rw [whole, sizes]
    exact own_attributes_count emitted.made
  | some seed =>
    dsimp only
    have whole : propertyAttributes (importedProperties owl options) {e | e ∈ m.elements} =
        propertyAttributes (importedProperties owl options)
          {e | Latest (·.name) (typed ++ own ++ seedElements options) e} := by
      ext e
      apply and_congr_left
      intro listed
      obtain ⟨p, _, stands⟩ := listed
      have same := merged_elements options base e
      rw [emitted.imported] at same
      rw [Set.mem_ofPred_eq, Set.mem_ofPred_eq, ← same, emitted.elements, List.mem_append,
        mergeSeedOption, merged]
      dsimp only [mergeSeed]
      rw [indexed_append, latest_values_indexed, ← mem_values_indexed]
      apply or_iff_left
      intro added
      exact attributeKind stands.kind (emitted.syntheticKinds e added)
    rw [whole]
    apply latest_attributes_count typed (seedElements options) each.1
    intro p property
    obtain ⟨e, mem, built⟩ := each.2 p property
    exact ⟨e, mem, attributeFor_made built⟩

theorem represented_later (emitted : EmittedElements owl options m base typed own synthetic) :
    Represented (importedProperties owl options) (seedElements options ++ synthetic) ↔
      SeedOwn owl options ∧
        ∀ p ∈ importedProperties owl options, toPascalCase p.1 ∉ syntheticNames owl options := by
  constructor
  · intro represented
    have unsynthetic : ∀ p ∈ importedProperties owl options,
        toPascalCase p.1 ∉ syntheticNames owl options := by
      intro p property taken
      rw [← emitted.names] at taken
      obtain ⟨e, latest, named⟩ := exists_latest taken
      have stands := represented p property e ((latest_append _ _ _).mpr (Or.inl latest)) named
      exact attributeKind stands.kind (emitted.syntheticKinds e (latest_mem latest))
    refine ⟨?_, unsynthetic⟩
    intro p property e latest named
    apply represented p property e _ named
    refine (latest_append _ _ _).mpr (Or.inr ⟨latest, ?_⟩)
    rw [emitted.names, named]
    exact unsynthetic p property
  · intro both p property e latest named
    obtain ⟨seeded, unsynthetic⟩ := both
    rcases (latest_append _ _ _).mp latest with added | ⟨here, _⟩
    · apply absurd _ (unsynthetic p property)
      rw [← emitted.names, ← named]
      exact List.mem_map_of_mem (latest_mem added)
    · exact seeded p property e here named

theorem registry_count {r : ModelRegistry} (loaded : ModelRegistry.fromManifest m = .ok r)
    (emitted : EmittedElements owl options m base typed own synthetic) :
    (propertyAttributes (importedProperties owl options)
        {e | ∃ name, r.elementByName name = some e}).ncard =
      (importedProperties owl options).length ↔ KeptByName owl options := by
  have each := attributes_each emitted.made
  have stored : {e | ∃ name, r.elementByName name = some e} =
      {e | Latest (·.name) (typed ++ own ++ (seedElements options ++ synthetic)) e} := by
    ext e
    have same := sameLatest_append (merged_elements options base) synthetic e
    rw [emitted.imported, ← emitted.elements, List.append_assoc _ _ synthetic] at same
    rw [Set.mem_ofPred_eq, Set.mem_ofPred_eq, ← same]
    simp only [ModelRegistry.elementByName, fromManifest_elementsByName loaded, get_indexed_iff,
      exists_and_left, exists_eq', and_true]
  rw [stored]
  have counted := latest_attributes_count typed (seedElements options ++ synthetic) each.1 (by
      intro p property
      obtain ⟨e, mem, built⟩ := each.2 p property
      exact ⟨e, mem, attributeFor_made built⟩)
  rw [counted, represented_later emitted]
  constructor
  · intro kept
    exact ⟨kept.1, kept.2.1, kept.2.2⟩
  · intro kept
    exact ⟨kept.apart, kept.seed, kept.synthetic⟩

end Kept

section Loadable

variable [UnicodeCase] [UuidV5] {owl : OwlModel} {options : ImportOptions}

/-- The types of an import under their names, with their parents: classes, the seed's, synthetic
ones. -/
def typeLinks (owl : OwlModel) (options : ImportOptions) : List (String × Option String) :=
  classLinks owl options ++ (seedNodes options).map nodeLink ++
    (syntheticObjects owl options ++ syntheticActions owl options)

def specLinks (owl : OwlModel) (options : ImportOptions) : List (String × Option String) :=
  classLinks owl options ++ attributeLinks owl (taxonomyNames owl options) ++
    (seedElements options).map elementLink ++
      (syntheticObjects owl options ++ syntheticActions owl options)

/-- The parents of what is imported, seeded and synthetic are among these. -/
def Loadable (owl : OwlModel) (options : ImportOptions) : Prop :=
  Linked (typeLinks owl options) (· ∈ (typeLinks owl options).map Prod.fst) ∧
    Linked (specLinks owl options) fun p =>
      p ∈ (specLinks owl options).map Prod.fst ∨ p ∈ (typeLinks owl options).map Prod.fst

theorem composed_loadable {m : MimManifest} (composed : Composed owl options m) :
    (∃ r, ModelRegistry.fromManifest m = .ok r) ↔ Loadable owl options := by
  obtain ⟨types, taxonomy, sameTypes⟩ := composed.taxonomy
  obtain ⟨specs, elements, sameSpecs⟩ := composed.elements
  have latestTypes := sameLatest_append sameTypes
    (syntheticObjects owl options ++ syntheticActions owl options)
  have latestSpecs := sameLatest_append sameSpecs
    (syntheticObjects owl options ++ syntheticActions owl options)
  rw [← taxonomy] at latestTypes
  rw [← elements] at latestSpecs
  have typeNames : ∀ p, p ∈ m.taxonomyLinks.map Prod.fst ↔ p ∈ (typeLinks owl options).map Prod.fst :=
    mem_keys_of_sameLatest latestTypes
  have specNames : ∀ p, p ∈ m.elementLinks.map Prod.fst ↔ p ∈ (specLinks owl options).map Prod.fst :=
    mem_keys_of_sameLatest latestSpecs
  rw [loads_iff, linked_same latestTypes, linked_same latestSpecs]
  simp only [typeNames, specNames]
  rfl

/-- The attributes for the imported properties are as many as the import reports, in the manifest
and, looked up by name, in the registry that is made of it. -/
def PropertiesKept (owl : OwlModel) (options : ImportOptions) (m : MimManifest)
    (report : ImportReport) : Prop :=
  (propertyAttributes (importedProperties owl.resolvePropertyDomains options)
      {e | e ∈ m.elements}).ncard = report.owlPropertiesImported ∧
    ∀ r, ModelRegistry.fromManifest m = .ok r →
      (propertyAttributes (importedProperties owl.resolvePropertyDomains options)
        {e | ∃ name, r.elementByName name = some e}).ncard = report.owlPropertiesImported

theorem import_keeps_properties_iff (owl : OwlModel) (options : ImportOptions) (m : MimManifest)
    (report : ImportReport)
    (returned : OwlImporter.importManifest owl options = some (.ok (m, report))) :
    PropertiesKept owl options m report ↔
      KeptByMerge owl.resolvePropertyDomains options ∧
        (Loadable owl.resolvePropertyDomains options →
          KeptByName owl.resolvePropertyDomains options) := by
  obtain ⟨base, typed, own, synthetic, emitted, counted⟩ := importManifest_emitted returned
  unfold PropertiesKept
  rw [counted, merge_count emitted, ← composed_loadable (importManifest_composed returned)]
  apply and_congr_right
  intro _
  constructor
  · intro kept loads
    obtain ⟨r, loaded⟩ := loads
    exact (registry_count loaded emitted).mp (kept r loaded)
  · intro kept r loaded
    exact (registry_count loaded emitted).mpr (kept ⟨r, loaded⟩)

end Loadable

section Fixtures

theorem tankCrew_kept : letI := asciiCase
    letI := lastCharacters
    ∃ m report, OwlImporter.importManifest tankCrew unpadded = some (.ok (m, report)) ∧
      PropertiesKept tankCrew unpadded m report := by
  let : UnicodeCase := asciiCase
  let : UuidV5 := lastCharacters
  have declared : ∀ c ∈ importedClasses tankCrew.resolvePropertyDomains unpadded,
      tankCrew.resolvePropertyDomains.classes.containsKey c = true := by
    decide +kernel
  obtain ⟨m, report, returned⟩ := importManifest_returns unpadded_usable declared
  have names : (importedProperties tankCrew.resolvePropertyDomains unpadded).map
      (toPascalCase ·.1) = ["Hascrew", "Hasgun"] := by decide +kernel
  have apart : NamesApart tankCrew.resolvePropertyDomains unpadded := by
    rw [NamesApart, names]
    decide
  have seed : SeedOwn tankCrew.resolvePropertyDomains unpadded := by
    intro p _ e latest
    exact absurd (latest_mem latest) List.not_mem_nil
  have unsynthetic : syntheticNames tankCrew.resolvePropertyDomains unpadded = [] := by
    decide +kernel
  refine ⟨m, report, returned,
    (import_keeps_properties_iff tankCrew unpadded m report returned).mpr ⟨?_, ?_⟩⟩
  · exact fun p property q other same => List.inj_on_of_nodup_map apart property other same.name
  · intro _
    refine ⟨apart, seed, ?_⟩
    intro p _
    rw [unsynthetic]
    exact List.not_mem_nil

def crewTwice : OwlModel :=
  { landOperations ["ACTION"] with
    properties := .ofList [
      ("has-crew", { name := "has-crew", domain := some "TANK" }),
      ("has_crew", { name := "has_crew", domain := some "TANK" })] }

/-- Both are imported and counted, and the registry finds one of them. -/
theorem crewTwice_loses_one : letI := asciiCase
    letI := lastCharacters
    ∃ m report r, OwlImporter.importManifest crewTwice unpadded = some (.ok (m, report)) ∧
      ModelRegistry.fromManifest m = .ok r ∧ report.owlPropertiesImported = 2 ∧
      ¬ PropertiesKept crewTwice unpadded m report := by
  let : UnicodeCase := asciiCase
  let : UuidV5 := lastCharacters
  have declared : ∀ c ∈ importedClasses crewTwice.resolvePropertyDomains unpadded,
      crewTwice.resolvePropertyDomains.classes.containsKey c = true := by
    decide +kernel
  obtain ⟨m, report, returned⟩ := importManifest_returns unpadded_usable declared
  have names : (importedProperties crewTwice.resolvePropertyDomains unpadded).map
      (toPascalCase ·.1) = ["HasCrew", "HasCrew"] := by decide +kernel
  have types : typeLinks crewTwice.resolvePropertyDomains unpadded =
      [("Action", none), ("Tank", some "Action")] := by decide +kernel
  have specs : specLinks crewTwice.resolvePropertyDomains unpadded =
      [("Action", none), ("Tank", some "Action"), ("HasCrew", some "Tank"),
        ("HasCrew", some "Tank")] := by decide +kernel
  have loadable : Loadable crewTwice.resolvePropertyDomains unpadded := by
    unfold Loadable
    rw [types, specs]
    constructor
    · intro e latest p parent
      rcases List.mem_pair.mp (latest_mem latest) with rfl | rfl
      · cases parent
      · obtain rfl := Option.some.inj parent
        decide
    · intro e latest p parent
      have mem := latest_mem latest
      simp only [List.mem_cons, List.not_mem_nil, or_false, or_self] at mem
      rcases mem with rfl | rfl | rfl
      · cases parent
      · obtain rfl := Option.some.inj parent
        decide
      · obtain rfl := Option.some.inj parent
        decide
  obtain ⟨r, loaded⟩ := (composed_loadable (importManifest_composed returned)).mpr loadable
  obtain ⟨base, typed, own, synthetic, emitted, counted⟩ := importManifest_emitted returned
  refine ⟨m, report, r, returned, loaded, ?_, ?_⟩
  · rw [counted, ← List.length_map (f := fun p : String × OwlProperty => toPascalCase p.1), names]
    rfl
  · intro kept
    have found := kept.2 r loaded
    rw [counted] at found
    have apart := ((registry_count loaded emitted).mp found).apart
    rw [NamesApart, names] at apart
    exact absurd apart (by decide)

end Fixtures

end MimImport
