import MimStack.Import.Loads

/-!
Which properties an import leaves out. The classes that the domains name are added
to the imported ones last, after every pass that moves or pads them, so a property
whose domain is a declared class always finds a class to belong to.
-/
namespace MimImport
open RustText SortedStore IndexedMap Fallible MimCore MimModel

section Selected

theorem mem_all_iff (s : ClassNames) (name : String) :
    name ∈ s.all ↔ s.objects.contains name = true ∨ s.actions.contains name = true := by
  rw [ClassNames.all, List.mem_append]
  exact or_congr (SortedMap.mem_keys _ _) (SortedMap.mem_keys _ _)

theorem mem_all_addObject (s : ClassNames) (name other : String) :
    other ∈ (s.addObject name).all ↔ other = name ∨ other ∈ s.all := by
  rw [mem_all_iff, mem_all_iff, ← or_assoc]
  have added : (s.addObject name).objects.contains other = true ↔
      other = name ∨ s.objects.contains other = true := by
    simp only [ClassNames.addObject, SortedSet.contains, SortedSet.add, SortedMap.containsKey,
      SortedMap.get_insert]
    split <;> simp [*]
  rw [added]
  rfl

variable {owl : OwlModel}

theorem ensurePropertyDomain_keeps (s : ClassNames) (property : OwlProperty) {name : String}
    (mem : name ∈ s.all) : name ∈ (ensurePropertyDomain owl s property).all := by
  unfold ensurePropertyDomain
  split
  · exact mem
  · dsimp only
    split
    · exact mem
    · exact (mem_all_addObject s _ name).mpr (.inr mem)

theorem ensurePropertyDomain_adds (s : ClassNames) {property : OwlProperty} {domain : String}
    (has : property.domain = some domain)
    (declared : owl.classes.containsKey (normalizeOwlRef domain) = true) :
    normalizeOwlRef domain ∈ (ensurePropertyDomain owl s property).all := by
  unfold ensurePropertyDomain
  rw [has]
  dsimp only
  split
  · rename_i either
    rw [declared, Bool.not_true, Bool.false_or] at either
    exact (mem_all_iff s _).mpr (.inr either)
  · exact (mem_all_addObject s _ _).mpr (.inl rfl)

theorem ensured_kept (s : ClassNames) (properties : List OwlProperty) {name : String}
    (mem : name ∈ s.all) : name ∈ (properties.foldl (ensurePropertyDomain owl) s).all := by
  induction properties generalizing s with
  | nil => exact mem
  | cons p rest ih =>
    apply ih
    exact ensurePropertyDomain_keeps s p mem

theorem ensured_domain (s : ClassNames) (properties : List OwlProperty) {property : OwlProperty}
    (mem : property ∈ properties) {domain : String} (has : property.domain = some domain)
    (declared : owl.classes.containsKey (normalizeOwlRef domain) = true) :
    normalizeOwlRef domain ∈ (properties.foldl (ensurePropertyDomain owl) s).all := by
  induction properties generalizing s with
  | nil => cases mem
  | cons p rest ih =>
    rcases List.mem_cons.mp mem with same | later
    · apply ensured_kept _ rest
      exact ensurePropertyDomain_adds s (same ▸ has) declared
    · exact ih _ later

/-- Every property has a domain, and its local name is the name of a class. -/
def DomainsDeclared (owl : OwlModel) : Prop :=
  ∀ p ∈ owl.properties.values, ∃ domain, p.domain = some domain ∧
    owl.classes.containsKey (normalizeOwlRef domain) = true

variable [UnicodeCase] {options : ImportOptions}

theorem attributeClass_declared (declared : DomainsDeclared owl) {property : OwlProperty}
    (mem : property ∈ owl.properties.values) :
    ∃ parent, attributeClass owl (taxonomyNames owl options) property = some parent := by
  obtain ⟨domain, has, known⟩ := declared property mem
  have selected : normalizeOwlRef domain ∈ importedClasses owl options :=
    ensured_domain _ _ mem has known
  have direct : (taxonomyDomainName domain (taxonomyNames owl options)).isSome := by
    rw [taxonomyDomainName, List.find?_isSome]
    refine ⟨toPascalCase (normalizeOwlRef domain), by simp, ?_⟩
    rw [List.contains_iff_mem]
    exact List.mem_map_of_mem selected
  obtain ⟨parent, found⟩ := Option.isSome_iff_exists.mp direct
  refine ⟨parent, ?_⟩
  rw [attributeClass, has, Option.bind_some, resolveTaxonomyDomain, found]
  rfl

end Selected

section Counts

variable [UnicodeCase] [UuidV5] {owl : OwlModel} {options : ImportOptions}

theorem importOwlAttribute_counts {names : List String} {batch after : AttributeImportBatch}
    {e : String × OwlProperty} {parent : String} (found : attributeClass owl names e.2 = some parent)
    (ran : importOwlAttribute owl names options batch e = .ok after) :
    after.imported = batch.imported + 1 ∧ after.skipped = batch.skipped := by
  unfold importOwlAttribute at ran
  rw [found] at ran
  obtain ⟨element, _, added⟩ := bind_ok.mp ran
  obtain rfl := pure_ok.mp added
  exact ⟨rfl, rfl⟩

theorem importOwlAttribute_run {names : List String} (entries : List (String × OwlProperty))
    (found : ∀ e ∈ entries, ∃ parent, attributeClass owl names e.2 = some parent)
    {first last : AttributeImportBatch}
    (ran : entries.foldlM (importOwlAttribute owl names options) first = .ok last) :
    last.imported = first.imported + entries.length ∧ last.skipped = first.skipped := by
  induction entries generalizing first with
  | nil =>
    obtain rfl := Except.ok.inj ran
    exact ⟨rfl, rfl⟩
  | cons e entries ih =>
    rw [List.foldlM_cons] at ran
    obtain ⟨next, one, rest⟩ := bind_ok.mp ran
    obtain ⟨parent, here⟩ := found e (.head _)
    obtain ⟨imported, skipped⟩ := importOwlAttribute_counts here one
    obtain ⟨more, none⟩ := ih (fun f mem => found f (.tail _ mem)) rest
    rw [List.length_cons]
    omega

theorem importOwlAttributes_counts {names : List String}
    (found : ∀ p ∈ owl.properties.values, ∃ parent, attributeClass owl names p = some parent)
    {batch : AttributeImportBatch} (ran : importOwlAttributes owl names options = .ok batch) :
    batch.imported = owl.properties.size ∧ batch.skipped = 0 := by
  obtain ⟨imported, skipped⟩ := importOwlAttribute_run owl.properties.entries
    (fun e mem => found e.2 (List.mem_map_of_mem mem)) ran
  rw [Nat.zero_add] at imported
  exact ⟨imported, skipped⟩

theorem importOwlAttributes_parents {batch : AttributeImportBatch}
    (ran : importOwlAttributes owl (taxonomyNames owl options) options = .ok batch)
    {e : ModelElementSpec} (mem : e ∈ batch.elements) :
    ∃ parent ∈ taxonomyNames owl options, e.parentClass = some parent := by
  have listed : (e.name, e.parentClass) ∈ attributeLinks owl (taxonomyNames owl options) := by
    rw [← importOwlAttributes_ok ran]
    exact List.mem_map_of_mem mem
  obtain ⟨property, _, made⟩ := List.mem_filterMap.mp listed
  obtain ⟨parent, found, link⟩ := Option.map_eq_some_iff.mp made
  exact ⟨parent, attributeClass_mem found, (congrArg Prod.snd link).symm⟩

end Counts

section Emitted

variable [UnicodeCase] [UuidV5] {owl : OwlModel} {options : ImportOptions}

omit [UnicodeCase] [UuidV5] in
theorem taxonomyToElement_kind {node : TaxonomyNode} {kind : ModelElementKind}
    {e : ModelElementSpec} (built : taxonomyToElement node kind options = .ok e) :
    e.kind = kind := by
  unfold taxonomyToElement at built
  obtain ⟨uri, _, made⟩ := bind_ok.mp built
  rw [← pure_ok.mp made]

theorem importClasses_kinds {names : ClassNames} {classes : ImportedClasses}
    (ran : importClasses owl options names = .ok classes) :
    ∀ e ∈ classes.elements, e.kind = .classElement := by
  have step : ∀ (isObject : Bool) (s : ImportedClasses) (name : String) (t : ImportedClasses),
      (∀ e ∈ s.elements, e.kind = .classElement) →
      importClass owl options isObject s name = .ok t →
        ∀ e ∈ t.elements, e.kind = .classElement := by
    intro isObject s name t held ran e mem
    obtain ⟨node, _, rest⟩ := bind_ok.mp ran
    obtain ⟨element, built, added⟩ := bind_ok.mp rest
    obtain rfl := pure_ok.mp added
    rcases List.mem_append.mp mem with before | here
    · exact held e before
    · rw [List.mem_singleton.mp here]
      exact taxonomyToElement_kind built
  unfold importClasses at ran
  obtain ⟨objects, first, rest⟩ := bind_ok.mp ran
  have begun : ∀ e ∈ objects.elements, e.kind = .classElement :=
    foldlM_invariant (step true) names.objects.toList (fun e mem => absurd mem List.not_mem_nil)
      first
  exact foldlM_invariant (step false) names.actions.toList begun rest

omit [UnicodeCase] [UuidV5] in
theorem appendSynthetic_after {node : Nat → TaxonomyNode} {wanted fuel count index last : Nat}
    {m after : MimManifest}
    (ran : appendSynthetic node options wanted fuel count index m = some (last, after)) :
    ∃ (numbers : List Nat) (elements : List ModelElementSpec),
      after.taxonomy = m.taxonomy ++ numbers.map node ∧
      after.elements = m.elements ++ elements ∧
      elements.map (·.name) = numbers.map (fun i => (node i).name) ∧
      ∀ e ∈ elements, e.kind = .classElement := by
  induction fuel generalizing count index m with
  | zero =>
    rw [appendSynthetic] at ran
    split at ran
    · cases ran
    · obtain ⟨rfl, rfl⟩ := Prod.mk.inj (Option.some.inj ran)
      exact ⟨[], [], by simp⟩
  | succ fuel ih =>
    rw [appendSynthetic] at ran
    split at ran
    · split at ran
      · exact ih ran
      · rename_i element built
        obtain ⟨numbers, elements, taxonomy, added, names, kinds⟩ := ih ran
        have link := congrArg Prod.fst (taxonomyToElement_link built)
        have own : element.name = (node (index + 1)).name := link
        refine ⟨(index + 1) :: numbers, element :: elements, ?_, ?_, ?_, ?_⟩
        · rw [taxonomy, List.append_assoc]
          rfl
        · rw [added, List.append_assoc]
          rfl
        · rw [List.map_cons, List.map_cons, names, own]
        · exact List.forall_mem_cons.mpr ⟨taxonomyToElement_kind built, kinds⟩
    · obtain ⟨rfl, rfl⟩ := Prod.mk.inj (Option.some.inj ran)
      exact ⟨[], [], by simp⟩

omit [UnicodeCase] [UuidV5] in
theorem appendSynthetic_kept {node : Nat → TaxonomyNode} {wanted fuel count index last : Nat}
    {m after : MimManifest}
    (ran : appendSynthetic node options wanted fuel count index m = some (last, after)) :
    ∀ e ∈ after.elements, e ∈ m.elements ∨ e.kind = .classElement := by
  obtain ⟨_, elements, _, added, _, kinds⟩ := appendSynthetic_after ran
  intro e mem
  rw [added] at mem
  rcases List.mem_append.mp mem with before | here
  · exact .inl before
  · exact .inr (kinds e here)

omit [UnicodeCase] [UuidV5] in
theorem mergeSeedOption_elements (m : MimManifest) {e : ModelElementSpec}
    (mem : e ∈ (mergeSeedOption options m).elements) :
    e ∈ m.elements ∨ e ∈ seedElements options := by
  unfold mergeSeedOption at mem
  unfold seedElements
  cases merged : options.mergeSeed with
  | none =>
    rw [merged] at mem
    exact .inl mem
  | some seed =>
    rw [merged] at mem
    dsimp only [mergeSeed] at mem
    rw [indexed_append, mem_values_indexed] at mem
    exact List.mem_append.mp (latest_mem mem)

theorem importManifest_parts {m : MimManifest} {report : ImportReport}
    (returned : OwlImporter.importManifest owl options = some (.ok (m, report))) :
    ∃ classes batch codeLists,
      importClasses owl.resolvePropertyDomains options
        (selectClasses owl.resolvePropertyDomains options) = .ok classes ∧
      importOwlAttributes owl.resolvePropertyDomains
        (taxonomyNames owl.resolvePropertyDomains options) options = .ok batch ∧
      appendSyntheticCoverage
        (mergeSeedOption options (importedManifest options classes batch codeLists)) options =
          some m ∧
      report = importReport owl.resolvePropertyDomains options m batch := by
  obtain ⟨merged, attributes, base, added, rfl⟩ := importManifest_ok returned
  unfold importBase at base
  obtain ⟨classes, first, rest⟩ := bind_ok.mp base
  obtain ⟨batch, second, built⟩ := bind_ok.mp rest
  obtain ⟨rfl, rfl⟩ := Prod.mk.inj (pure_ok.mp built)
  exact ⟨classes, batch, _, first, second, added, rfl⟩

theorem attribute_elements {m : MimManifest} {classes : ImportedClasses}
    {batch : AttributeImportBatch} {codeLists : List CodeList} {names : ClassNames}
    (imported : importClasses owl options names = .ok classes)
    (added : appendSyntheticCoverage
      (mergeSeedOption options (importedManifest options classes batch codeLists)) options = some m)
    {e : ModelElementSpec} (mem : e ∈ m.elements) (attributed : e.kind = .attributeElement) :
    e ∈ seedElements options ∨ e ∈ batch.elements := by
  have classKind : e.kind ≠ .classElement := by
    rw [attributed]
    decide
  unfold appendSyntheticCoverage at added
  obtain ⟨⟨last, objects⟩, first, rest⟩ := Option.bind_eq_some_iff.mp added
  obtain ⟨⟨final, actions⟩, second, same⟩ := Option.bind_eq_some_iff.mp rest
  obtain rfl := Option.some.inj same
  have before := (appendSynthetic_kept second e mem).resolve_right classKind
  have merged := (appendSynthetic_kept first e before).resolve_right classKind
  rcases mergeSeedOption_elements _ merged with own | seeded
  · rcases List.mem_append.mp own with typed | emitted
    · exact absurd (importClasses_kinds imported e typed) classKind
    · exact .inr emitted
  · exact .inl seeded

/-- No property with a declared domain is left out, and each becomes an attribute of a type that
is in the taxonomy. -/
theorem import_skips_no_declared_domain (owl : OwlModel) (options : ImportOptions)
    (m : MimManifest) (report : ImportReport)
    (declared : DomainsDeclared owl.resolvePropertyDomains)
    (returned : OwlImporter.importManifest owl options = some (.ok (m, report))) :
    report.owlPropertiesSkipped = 0 ∧
      report.owlPropertiesImported = report.owlPropertiesTotal ∧
      (∀ e ∈ m.elements, e.kind = .attributeElement →
        e ∈ seedElements options ∨ ∃ n ∈ m.taxonomy, e.parentClass = some n.name) ∧
      ∃ batch, importOwlAttributes owl.resolvePropertyDomains
          (taxonomyNames owl.resolvePropertyDomains options) options = .ok batch ∧
        ∀ e ∈ batch.elements, ∃ n ∈ m.taxonomy, e.parentClass = some n.name := by
  have composed := importManifest_composed returned
  obtain ⟨classes, batch, codeLists, imported, ran, added, rfl⟩ := importManifest_parts returned
  obtain ⟨counted, skipped⟩ := importOwlAttributes_counts
    (fun p mem => attributeClass_declared declared mem) ran
  have parents : ∀ e ∈ batch.elements, ∃ n ∈ m.taxonomy, e.parentClass = some n.name := by
    intro e mem
    obtain ⟨parent, known, same⟩ := importOwlAttributes_parents ran mem
    have typed : parent ∈ m.taxonomyLinks.map Prod.fst := by
      rw [composed_taxonomyNames composed, typeNames]
      exact List.mem_append_left _ (List.mem_append_left _ known)
    rw [MimManifest.taxonomyLinks, List.map_map] at typed
    obtain ⟨n, listed, rfl⟩ := List.mem_map.mp typed
    exact ⟨n, listed, same⟩
  refine ⟨skipped, counted, ?_, batch, ran, parents⟩
  intro e mem attributed
  rcases attribute_elements imported added mem attributed with seeded | emitted
  · exact .inl seeded
  · exact .inr (parents e emitted)

end Emitted

section Fixture

def tankCrew : OwlModel :=
  { landOperations ["ACTION"] with
    properties := .ofList [
      ("hasCrew", { name := "hasCrew", domain := some "http://example#TANK" }),
      ("hasGun", { name := "hasGun", domain := some "TANK" })] }

theorem tankCrew_declared : DomainsDeclared tankCrew.resolvePropertyDomains := by
  have only : tankCrew.resolvePropertyDomains.properties.values.map (·.domain) =
      [some "http://example#TANK", some "TANK"] := by decide +kernel
  intro p mem
  have listed := List.mem_map_of_mem (f := (·.domain)) mem
  rw [only, List.mem_pair] at listed
  rcases listed with reference | name
  · exact ⟨_, reference, by decide +kernel⟩
  · exact ⟨_, name, by decide +kernel⟩

theorem tankCrew_skips_none : letI := asciiCase
    letI := lastCharacters
    ∃ m report, OwlImporter.importManifest tankCrew unpadded = some (.ok (m, report)) ∧
      report.owlPropertiesSkipped = 0 ∧
      report.owlPropertiesImported = report.owlPropertiesTotal := by
  let : UnicodeCase := asciiCase
  let : UuidV5 := lastCharacters
  have classes : ∀ c ∈ importedClasses tankCrew.resolvePropertyDomains unpadded,
      tankCrew.resolvePropertyDomains.classes.containsKey c = true := by
    decide +kernel
  obtain ⟨m, report, returned⟩ := importManifest_returns unpadded_usable classes
  obtain ⟨skipped, imported, _⟩ := import_skips_no_declared_domain tankCrew unpadded m report
    tankCrew_declared returned
  exact ⟨m, report, returned, skipped, imported⟩

end Fixture

end MimImport
