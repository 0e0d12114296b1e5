import MimStack.Import.Coverage
import MimStack.Registry
import MimStack.Transport.Broker

/-!
What a broker takes whose registry was imported from an ontology. The import asks nothing of
an instance: its elements are neither mandatory nor coded, so that every check beyond the name
of the class is one that the seed brings.
-/
namespace MimImport
open RustText SortedStore IndexedMap IndexedMap.IndexMap Fallible MimCore MimModel MimRuntime
open MimTransport

section Valid

variable {r : ModelRegistry} {i : MimInstance}

theorem validateProperty_errors (r : ModelRegistry) (oid : Option String) (p : PropertyValue) :
    ∀ issue ∈ validateProperty r oid p, issue.severity = .error := by
  intro issue mem
  unfold validateProperty at mem
  split at mem
  · split at mem
    · cases mem
    · split at mem
      · cases mem
      · split at mem
        · cases mem
        · rw [List.mem_singleton.mp mem]
          rfl
  · cases mem
  · cases mem

def CodeListed (r : ModelRegistry) (p : PropertyValue) : Prop :=
  ∀ value, p.value = .value value → ∀ code, valueAsString value = some code →
    ∀ codes, r.codeListForAttribute p.name = some codes → codes.validateValue code = .ok ()

theorem validateProperty_nil (r : ModelRegistry) (oid : Option String) (p : PropertyValue) :
    validateProperty r oid p = [] ↔ CodeListed r p := by
  unfold validateProperty CodeListed
  cases p.value with
  | value v =>
    cases r.codeListForAttribute p.name with
    | none => simp
    | some codes =>
      cases text : valueAsString v with
      | none => simp [text]
      | some code => cases checked : codes.validateValue code <;> simp [text, checked]
  | nil reason => simp
  | absent => simp

theorem validateRequiredAttribute_errors (oid : Option String) (i : MimInstance) (className : String)
    (spec : ModelElementSpec) :
    ∀ issue ∈ validateRequiredAttribute oid i className spec, issue.severity = .error := by
  intro issue mem
  unfold validateRequiredAttribute at mem
  split at mem
  · cases mem
  · split at mem
    · cases mem
    · rw [List.mem_singleton.mp mem]
      rfl

theorem validateRequiredAttribute_nil (oid : Option String) (i : MimInstance) (className : String)
    (spec : ModelElementSpec) : validateRequiredAttribute oid i className spec = [] ↔
      (spec.isMandatory = true → attributePresent i spec = true) := by
  unfold validateRequiredAttribute
  cases spec.isMandatory with
  | false => simp
  | true => cases attributePresent i spec <;> simp

theorem isValid_of_errors {issues : List ValidationIssue}
    (errors : ∀ issue ∈ issues, issue.severity = .error) :
    (ValidationReport.mk issues).isValid = true ↔ issues = [] := by
  cases issues with
  | nil => simp [ValidationReport.isValid]
  | cons issue rest => simp [ValidationReport.isValid, errors issue List.mem_cons_self]

def KnownClass (r : ModelRegistry) (className : String) : Prop :=
  (r.elementByName className).isSome = true ∨ (r.taxonomyNode className).isSome = true

theorem validateInstance_valid_iff (r : ModelRegistry) (i : MimInstance) :
    (∃ report, validateInstance r i = some report ∧ report.isValid = true) ↔
      KnownClass r i.className ∧ ∃ ancestors, r.ancestorsOf i.className = some ancestors ∧
        (∀ p ∈ i.properties, CodeListed r p) ∧
        ∀ className ∈ i.className :: ancestors, ∀ e ∈ r.attributesForClass className,
          e.isMandatory = true → attributePresent i e = true := by
  unfold validateInstance KnownClass
  dsimp only
  by_cases unknown : ((r.elementByName i.className).isNone && (r.taxonomyNode i.className).isNone) = true
  · rw [if_pos unknown]
    have absent : r.elementByName i.className = none ∧ r.taxonomyNode i.className = none := by
      simpa using unknown
    simp [absent, ValidationReport.isValid, errorIssue]
  · rw [if_neg unknown]
    have known : (r.elementByName i.className).isSome = true ∨
        (r.taxonomyNode i.className).isSome = true := by
      simpa [Bool.and_eq_true, Option.isSome_iff_ne_none, Classical.or_iff_not_imp_left] using unknown
    rw [and_iff_right known, validateRequiredAttributes]
    cases r.ancestorsOf i.className with
    | none => simp
    | some ancestors =>
      have errors : ∀ issue ∈ i.properties.flatMap (validateProperty r (some i.oid.text)) ++
          (i.className :: ancestors).flatMap (fun className =>
            (r.attributesForClass className).flatMap
              (validateRequiredAttribute (some i.oid.text) i className)),
          issue.severity = .error := by
        intro issue mem
        rcases List.mem_append.mp mem with coded | required
        · obtain ⟨p, _, mem⟩ := List.mem_flatMap.mp coded
          exact validateProperty_errors _ _ _ issue mem
        · obtain ⟨className, _, mem⟩ := List.mem_flatMap.mp required
          obtain ⟨e, _, mem⟩ := List.mem_flatMap.mp mem
          exact validateRequiredAttribute_errors _ _ _ _ issue mem
      simp only [Option.map_some, Option.some.injEq, exists_eq_left', isValid_of_errors errors,
        List.append_eq_nil_iff, List.flatMap_eq_nil_iff, validateProperty_nil,
        validateRequiredAttribute_nil]

theorem putObject_taken_iff (b : ExchangeBroker) (i : MimInstance) :
    (∃ response after, b.putObject ⟨i⟩ = some (.ok response, after)) ↔
      validateSerializedInstance i = .ok () ∧
        ∃ report, validateInstance b.registry i = some report ∧ report.isValid = true := by
  unfold ExchangeBroker.putObject validatePut
  cases validateSerializedInstance i with
  | error e => simp
  | ok _ =>
    cases validateInstance b.registry i with
    | none => simp
    | some report =>
      cases valid : report.isValid with
      | true => simp [valid]
      | false => simp [valid]

end Valid

section Elements

variable [UnicodeCase] [UuidV5] {owl : OwlModel} {options : ImportOptions}

def Undemanding (e : ModelElementSpec) : Prop :=
  e.isMandatory = false ∧ e.representationTerm ≠ some .code

omit [UnicodeCase] [UuidV5] in
theorem taxonomyToElement_undemanding {node : TaxonomyNode} {kind : ModelElementKind}
    {e : ModelElementSpec} (built : taxonomyToElement node kind options = .ok e) :
    Undemanding e := by
  unfold taxonomyToElement at built
  obtain ⟨uri, _, made⟩ := bind_ok.mp built
  rw [← pure_ok.mp made]
  exact ⟨rfl, by simp⟩

omit [UnicodeCase] [UuidV5] in
theorem representationTermForRange_plain (range : Option String) :
    representationTermForRange range ≠ .code := by
  unfold representationTermForRange
  cases range with
  | none => simp
  | some raw =>
    dsimp only
    split_ifs <;> simp

theorem propertyToElement_undemanding {name parent : String} {property : OwlProperty}
    {e : ModelElementSpec} (built : propertyToElement name property parent options = .ok e) :
    Undemanding e := by
  unfold propertyToElement at built
  obtain ⟨uri, _, made⟩ := bind_ok.mp built
  rw [← pure_ok.mp made]
  refine ⟨rfl, ?_⟩
  dsimp only
  split
  · intro coded
    exact representationTermForRange_plain _ (Option.some.inj coded)
  · simp

theorem importClasses_undemanding {names : ClassNames} {classes : ImportedClasses}
    (ran : importClasses owl options names = .ok classes) :
    ∀ e ∈ classes.elements, Undemanding e := by
  have step : ∀ (isObject : Bool) (s : ImportedClasses) (name : String) (t : ImportedClasses),
      (∀ e ∈ s.elements, Undemanding e) → importClass owl options isObject s name = .ok t →
        ∀ e ∈ t.elements, Undemanding e := by
    intro isObject s name t held ran e mem
    obtain ⟨node, _, rest⟩ := bind_ok.mp ran
    obtain ⟨element, built, added⟩ := bind_ok.mp rest
    obtain rfl := pure_ok.mp added
    rcases List.mem_append.mp mem with before | here
    · exact held e before
    · rw [List.mem_singleton.mp here]
      exact taxonomyToElement_undemanding built
  unfold importClasses at ran
  obtain ⟨objects, first, rest⟩ := bind_ok.mp ran
  have begun : ∀ e ∈ objects.elements, Undemanding e :=
    foldlM_invariant (step true) names.objects.toList (fun e mem => absurd mem List.not_mem_nil)
      first
  exact foldlM_invariant (step false) names.actions.toList begun rest

theorem importOwlAttributes_undemanding {taxonomyNames : List String} {batch : AttributeImportBatch}
    (ran : importOwlAttributes owl taxonomyNames options = .ok batch) :
    ∀ e ∈ batch.elements, Undemanding e := by
  have step : ∀ (s : AttributeImportBatch) (entry : String × OwlProperty) (t : AttributeImportBatch),
      (∀ e ∈ s.elements, Undemanding e) → importOwlAttribute owl taxonomyNames options s entry = .ok t →
        ∀ e ∈ t.elements, Undemanding e := by
    intro s entry t held ran e mem
    unfold importOwlAttribute at ran
    split at ran
    · obtain rfl := Except.ok.inj ran
      exact held e mem
    · obtain ⟨element, built, added⟩ := bind_ok.mp ran
      obtain rfl := pure_ok.mp added
      rcases List.mem_append.mp mem with before | here
      · exact held e before
      · rw [List.mem_singleton.mp here]
        exact propertyToElement_undemanding built
  exact foldlM_invariant step _ (fun e mem => absurd mem List.not_mem_nil) ran

omit [UnicodeCase] [UuidV5] in
theorem appendSynthetic_undemanding {node : Nat → TaxonomyNode}
    {wanted fuel count index last : Nat} {m after : MimManifest}
    (ran : appendSynthetic node options wanted fuel count index m = some (last, after)) :
    ∀ e ∈ after.elements, e ∈ m.elements ∨ Undemanding e := by
  induction fuel generalizing count index m with
  | zero =>
    rw [appendSynthetic] at ran
    split at ran
    · cases ran
    · obtain ⟨_, rfl⟩ := Prod.mk.inj (Option.some.inj ran)
      exact fun e mem => Or.inl mem
  | succ fuel ih =>
    rw [appendSynthetic] at ran
    split at ran
    · split at ran
      · exact ih ran
      · rename_i element built
        intro e mem
        rcases ih ran e mem with before | undemanding
        · rcases List.mem_append.mp before with before | here
          · exact Or.inl before
          · rw [List.mem_singleton.mp here]
            exact Or.inr (taxonomyToElement_undemanding built)
        · exact Or.inr undemanding
    · obtain ⟨_, rfl⟩ := Prod.mk.inj (Option.some.inj ran)
      exact fun e mem => Or.inl mem

theorem imported_undemanding {m : MimManifest} {report : ImportReport}
    (returned : OwlImporter.importManifest owl options = some (.ok (m, report))) :
    ∀ e ∈ m.elements, e ∈ seedElements options ∨ Undemanding e := by
  obtain ⟨classes, batch, codeLists, imported, ran, added, _⟩ := importManifest_parts returned
  unfold appendSyntheticCoverage at added
  obtain ⟨⟨last, objects⟩, first, rest⟩ := Option.bind_eq_some_iff.mp added
  obtain ⟨⟨final, actions⟩, second, same⟩ := Option.bind_eq_some_iff.mp rest
  obtain rfl := Option.some.inj same
  intro e mem
  rcases appendSynthetic_undemanding second e mem with mem | undemanding
  · rcases appendSynthetic_undemanding first e mem with mem | undemanding
    · rcases mergeSeedOption_elements _ mem with own | seeded
      · rcases List.mem_append.mp own with typed | emitted
        · exact Or.inr (importClasses_undemanding imported e typed)
        · exact Or.inr (importOwlAttributes_undemanding ran e emitted)
      · exact Or.inl seeded
    · exact Or.inr undemanding
  · exact Or.inr undemanding

end Elements

section Served

variable [UnicodeCase] [UuidV5] {owl : OwlModel} {options : ImportOptions} {m : MimManifest}
  {r : ModelRegistry}

omit [UnicodeCase] [UuidV5] in
theorem elementByName_mem (loaded : ModelRegistry.fromManifest m = .ok r) {name : String}
    {e : ModelElementSpec} (found : r.elementByName name = some e) : e ∈ m.elements := by
  rw [ModelRegistry.elementByName, fromManifest_elementsByName loaded, get_indexed_iff] at found
  exact latest_mem found.1

omit [UnicodeCase] [UuidV5] in
theorem knownClass_iff (loaded : ModelRegistry.fromManifest m = .ok r) (className : String) :
    KnownClass r className ↔ className ∈ m.elementLinks.map Prod.fst ∨
      className ∈ m.taxonomyLinks.map Prod.fst := by
  obtain ⟨_, rfl⟩ := fromManifest_ok_iff.mp loaded
  have specs := mem_keys_indexed (·.name) m.elements
  have nodes := mem_keys_indexed (·.name) m.taxonomy
  simp only [indexed] at specs nodes
  simp only [KnownClass, ModelRegistry.elementByName, ModelRegistry.taxonomyNode, ← mem_keys,
    specs, nodes, MimManifest.elementLinks, MimManifest.taxonomyLinks, List.map_map]
  rfl

omit [UnicodeCase] [UuidV5] in
theorem codeListForAttribute_spec {name : String} {codes : CodeList}
    (coded : r.codeListForAttribute name = some codes) :
    ∃ e, r.elementByName name = some e ∧ e.representationTerm = some .code := by
  unfold ModelRegistry.codeListForAttribute at coded
  cases found : r.elementByName name with
  | none =>
    rw [found] at coded
    cases coded
  | some e =>
    refine ⟨e, rfl, ?_⟩
    by_contra plain
    rw [found] at coded
    simp only [bne_iff_ne, ne_eq, plain, not_false_eq_true, if_true] at coded
    cases coded

/-- What the elements of the seed ask of an instance: a code is in the list of its attribute, and
what is mandatory is there. -/
structure SeedMet (r : ModelRegistry) (options : ImportOptions) (i : MimInstance)
    (ancestors : List String) : Prop where
  codes : ∀ p ∈ i.properties, ∀ e ∈ seedElements options, r.elementByName p.name = some e →
    CodeListed r p
  mandatory : ∀ className ∈ i.className :: ancestors, ∀ e ∈ seedElements options,
    e ∈ r.attributesForClass className → e.isMandatory = true → attributePresent i e = true

omit [UnicodeCase] [UuidV5] in
theorem seedMet_iff (elements : ∀ e ∈ m.elements, e ∈ seedElements options ∨ Undemanding e)
    (loaded : ModelRegistry.fromManifest m = .ok r) (i : MimInstance) (ancestors : List String) :
    ((∀ p ∈ i.properties, CodeListed r p) ∧
      ∀ className ∈ i.className :: ancestors, ∀ e ∈ r.attributesForClass className,
        e.isMandatory = true → attributePresent i e = true) ↔ SeedMet r options i ancestors := by
  constructor
  · intro met
    obtain ⟨codes, mandatory⟩ := met
    exact ⟨fun p mem _ _ _ => codes p mem,
      fun className mem e _ listed => mandatory className mem e listed⟩
  · intro met
    constructor
    · intro p mem value given code text codes coded
      obtain ⟨e, found, term⟩ := codeListForAttribute_spec coded
      rcases elements e (elementByName_mem loaded found) with seeded | undemanding
      · exact met.codes p mem e seeded found value given code text codes coded
      · exact absurd term undemanding.2
    · intro className mem e listed demanded
      have built := latest_mem ((mem_attributesForClass loaded className e).mp listed).1
      rcases elements e built with seeded | undemanding
      · exact met.mandatory className mem e seeded listed demanded
      · rw [undemanding.1] at demanded
        cases demanded

/-- A broker on an imported registry takes an instance that is well formed and names an imported
class, or an imported property, when the seed has nothing against it. -/
theorem imported_put_taken_iff {report : ImportReport}
    (returned : OwlImporter.importManifest owl options = some (.ok (m, report)))
    (loaded : ModelRegistry.fromManifest m = .ok r) {b : ExchangeBroker} (served : b.registry = r)
    (i : MimInstance) :
    (∃ response after, b.putObject ⟨i⟩ = some (.ok response, after)) ↔
      (isEmpty i.oid.text = false ∧ isEmpty i.className = false ∧
        ∀ p ∈ i.properties, isEmpty p.name = false) ∧
      (i.className ∈ typeNames owl.resolvePropertyDomains options ∨
        i.className ∈ attributeNames owl.resolvePropertyDomains options ∨
        i.className ∈ (seedElements options).map (·.name)) ∧
      ∃ ancestors, r.ancestorsOf i.className = some ancestors ∧ SeedMet r options i ancestors := by
  have elements := imported_undemanding returned
  rw [putObject_taken_iff, validateSerializedInstance_ok, served, validateInstance_valid_iff,
    knownClass_iff loaded, composed_elementNames (importManifest_composed returned)]
  simp only [seedMet_iff elements loaded]

end Served

section Fixtures

def importedRegistry [UnicodeCase] [UuidV5] (owl : OwlModel) (options : ImportOptions) :
    Option ModelRegistry :=
  match OwlImporter.importManifest owl options with
  | some (.ok made) => (ModelRegistry.fromManifest made.1).toOption
  | _ => none

theorem importedRegistry_some [UnicodeCase] [UuidV5] {owl : OwlModel} {options : ImportOptions}
    {r : ModelRegistry} (made : importedRegistry owl options = some r) :
    ∃ m report, OwlImporter.importManifest owl options = some (.ok (m, report)) ∧
      ModelRegistry.fromManifest m = .ok r := by
  unfold importedRegistry at made
  split at made
  · rename_i result returned
    obtain ⟨m, report⟩ := result
    refine ⟨m, report, returned, ?_⟩
    cases loaded : ModelRegistry.fromManifest m with
    | error e =>
      rw [loaded] at made
      cases made
    | ok other =>
      rw [loaded] at made
      rw [Option.some.inj made]
  · cases made

def seededOperations : ImportOptions :=
  { unpadded with mergeSeed := some {
      taxonomy := []
      elements := [attributeSpec "callSign" "Tank" 3 none, attributeSpec "statusCode" "Tank" 4 (some .code)]
      codeLists := [{ name := "StatusCode", complete := true, values := [{ name := "ACTIVE" }] }] } }

def activeTank : MimInstance :=
  { wireInstance "t-1" {} with
    className := "Tank"
    properties := [{ name := "callSign", value := .value (.string "T1") },
      { name := "statusCode", value := .value (.string "ACTIVE") }] }

theorem imported_put_taken_fixture : letI := asciiCase
    letI := lastCharacters
    ∃ r, importedRegistry (landOperations ["ACTION"]) seededOperations = some r ∧
      (∃ codes, r.codeListForAttribute "statusCode" = some codes) ∧
      ∃ response after, (ExchangeBroker.new r).putObject ⟨activeTank⟩ = some (.ok response, after) := by
  let : UnicodeCase := asciiCase
  let : UuidV5 := lastCharacters
  have seen : (importedRegistry (landOperations ["ACTION"]) seededOperations).map (fun r =>
      (r.ancestorsOf "Tank", (r.codeListForAttribute "statusCode").isSome,
        activeTank.properties.all fun p => (validateProperty r (some "t-1") p).isEmpty)) =
          some (some ["Action"], true, true) := by decide +kernel
  have typed : "Tank" ∈ typeNames (landOperations ["ACTION"]).resolvePropertyDomains
      seededOperations := by decide +kernel
  have named : ∀ p ∈ activeTank.properties, isEmpty p.name = false := by decide
  have present : ∀ e ∈ seedElements seededOperations, attributePresent activeTank e = true := by
    decide
  obtain ⟨r, made, facts⟩ := Option.map_eq_some_iff.mp seen
  obtain ⟨ancestors, facts⟩ := Prod.mk.inj facts
  obtain ⟨coded, listed⟩ := Prod.mk.inj facts
  obtain ⟨m, report, returned, loaded⟩ := importedRegistry_some made
  refine ⟨r, made, Option.isSome_iff_exists.mp coded, (imported_put_taken_iff returned loaded rfl
    _).mpr ⟨⟨by decide, by decide, named⟩, .inl typed, _, ancestors, ?_, ?_⟩⟩
  · intro p mem _ _ _
    have clean := List.all_eq_true.mp listed p mem
    exact (validateProperty_nil r _ p).mp (List.isEmpty_iff.mp clean)
  · exact fun className mem e seeded _ _ => present e seeded

end Fixtures

end MimImport
