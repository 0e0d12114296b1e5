import MimStack.Core
import MimStack.Lib.IndexMap
import MimStack.Lib.Walk

/-!
The model registry: elements, taxonomy and code lists indexed by name. The fields
that registry lookups and instance validation read come first; those with a default
are filled in by an import alone.
-/
namespace MimModel
open RustText IndexedMap IndexedMap.IndexMap SuccessorWalk MimCore

structure Reporter where
  name : Nillable String := .absent
  role : Nillable String := .absent
  organisation : Nillable String := .absent

structure Observer where
  name : Nillable String := .absent
  role : Nillable String := .absent

structure OperationalAppraisal where
  confidence : Nillable String := .absent
  credibility : Nillable String := .absent
  reliability : Nillable String := .absent

structure ValidityPeriod where
  start : Nillable DateTime := .absent
  finish : Nillable DateTime := .absent

structure SecurityClassification where
  policy : Nillable String := .absent
  classification : Nillable String := .absent
  releasability : Nillable String := .absent

structure Metadata where
  reporter : Reporter := {}
  observer : Observer := {}
  appraisal : OperationalAppraisal := {}
  validity : ValidityPeriod := {}
  security : SecurityClassification := {}

structure CodeValue where
  name : String
  semanticId : SemanticId := ⟨0⟩
  definition : Option String := none
  order : Option Nat := none
  lowerThan : List String := []

structure CodeList where
  name : String
  complete : Bool
  values : List CodeValue
  semanticId : SemanticId := ⟨0⟩
  managed : Bool := false
  ordered : Bool := false
  definition : Option String := none

def CodeList.containsValue (list : CodeList) (name : String) : Bool :=
  list.values.any fun v => v.name == name

def CodeList.validateValue (list : CodeList) (name : String) : Except String Unit :=
  if list.containsValue name then .ok ()
  else if list.complete then
    .error ("code value '" ++ name ++ "' is not in complete code list '" ++ list.name ++ "'")
  else .ok ()

inductive ObjectKind where
  | location | organisation | facility | feature | materiel | person | informationResource
  | capability | address | event | planOrder | informationGroup | organisationStructure
  | candidateTargetList | ruleOfEngagement
  deriving DecidableEq

def ObjectKind.asStr : ObjectKind → String
  | .location => "Location"
  | .organisation => "Organisation"
  | .facility => "Facility"
  | .feature => "Feature"
  | .materiel => "Materiel"
  | .person => "Person"
  | .informationResource => "InformationResource"
  | .capability => "Capability"
  | .address => "Address"
  | .event => "Event"
  | .planOrder => "PlanOrder"
  | .informationGroup => "InformationGroup"
  | .organisationStructure => "OrganisationStructure"
  | .candidateTargetList => "CandidateTargetList"
  | .ruleOfEngagement => "RuleOfEngagement"

inductive ActionKind where
  | task | actionEffect | actionResource | actionObjective | establishment
  deriving DecidableEq

structure TaxonomyNode where
  name : String
  parent : Option String
  semanticId : SemanticId := ⟨0⟩
  objectKind : Option ObjectKind := none
  actionKind : Option ActionKind := none
  definition : String := ""
  packagePath : String := ""

def TaxonomyNode.isObject (node : TaxonomyNode) : Bool := node.objectKind.isSome

def TaxonomyNode.isAction (node : TaxonomyNode) : Bool := node.actionKind.isSome

inductive ModelElementKind where
  | classElement
  | dataType
  | enumeration
  | attributeElement
  | association
  | package
  deriving DecidableEq

structure RepresentationMetadata where
  unitOfMeasure : Option String
  minimumValue : Option String
  maximumValue : Option String
  identifierScheme : Option String
  pattern : Option String

structure ModelElementSpec where
  name : String
  kind : ModelElementKind
  semanticId : SemanticId
  parentClass : Option String
  representationTerm : Option RepresentationTerm
  isMandatory : Bool
  uri : MimUri := ⟨""⟩
  packagePath : String := ""
  definition : String := ""
  representationMetadata : Option RepresentationMetadata := none
  multiplicityLower : Option Nat := none
  multiplicityUpper : Option String := none
  isNillable : Bool := false

structure MimManifest where
  taxonomy : List TaxonomyNode
  elements : List ModelElementSpec
  codeLists : List CodeList
  version : String := ""
  releaseDate : String := ""
  description : String := ""
  expectedObjectTypes : Nat := 0
  expectedActionTypes : Nat := 0
  expectedCodeLists : Nat := 0

structure ModelRegistry where
  elementsByName : IndexMap String ModelElementSpec
  elementsBySemanticId : IndexMap SemanticId ModelElementSpec
  taxonomyByName : IndexMap String TaxonomyNode
  codeListsByName : IndexMap String CodeList
  version : String := ""

def ModelRegistry.elementByName (r : ModelRegistry) (name : String) : Option ModelElementSpec :=
  r.elementsByName.get name

def ModelRegistry.elementBySemanticId (r : ModelRegistry) (id : SemanticId) :
    Option ModelElementSpec :=
  r.elementsBySemanticId.get id

def ModelRegistry.taxonomyNode (r : ModelRegistry) (name : String) : Option TaxonomyNode :=
  r.taxonomyByName.get name

def checkTaxonomyParents (r : ModelRegistry) : List TaxonomyNode → Except MimError Unit
  | [] => .ok ()
  | node :: rest =>
    match node.parent with
    | some parent =>
      if r.taxonomyByName.containsKey parent then checkTaxonomyParents r rest
      else .error (.model ("taxonomy node '" ++ node.name ++ "' references unknown parent '" ++
        parent ++ "'"))
    | none => checkTaxonomyParents r rest

def checkElementParents (r : ModelRegistry) : List ModelElementSpec → Except MimError Unit
  | [] => .ok ()
  | element :: rest =>
    match element.parentClass with
    | some parent =>
      if r.elementsByName.containsKey parent || r.taxonomyByName.containsKey parent then
        checkElementParents r rest
      else .error (.model ("element '" ++ element.name ++ "' references unknown parent class '" ++
        parent ++ "'"))
    | none => checkElementParents r rest

def ModelRegistry.validateIntegrity (r : ModelRegistry) : Except MimError Unit :=
  match checkTaxonomyParents r r.taxonomyByName.values with
  | .error e => .error e
  | .ok () => checkElementParents r r.elementsByName.values

def ModelRegistry.fromManifest (manifest : MimManifest) : Except MimError ModelRegistry :=
  let registry : ModelRegistry := {
    taxonomyByName := IndexMap.ofList (manifest.taxonomy.map fun n => (n.name, n))
    elementsBySemanticId := IndexMap.ofList (manifest.elements.map fun e => (e.semanticId, e))
    elementsByName := IndexMap.ofList (manifest.elements.map fun e => (e.name, e))
    codeListsByName := IndexMap.ofList (manifest.codeLists.map fun c => (c.name, c))
    version := manifest.version }
  match registry.validateIntegrity with
  | .error e => .error e
  | .ok () => .ok registry

def ModelRegistry.attributesForClass (r : ModelRegistry) (className : String) :
    List ModelElementSpec :=
  r.elementsByName.values.filter fun e => e.kind == .attributeElement && e.parentClass == some className

/-- An element's parent class, or else the taxonomy node's parent. -/
def ModelRegistry.parentOf (r : ModelRegistry) (className : String) : Option String :=
  ((r.elementByName className).bind (·.parentClass)).or
    ((r.taxonomyNode className).bind (·.parent))

/-- The last element, or else the last taxonomy node, of a name is the one the registry keeps. -/
def MimManifest.parentOf (m : MimManifest) (className : String) : Option String :=
  ((m.elements.reverse.find? fun e => e.name = className).bind (·.parentClass)).or
    ((m.taxonomy.reverse.find? fun n => n.name = className).bind (·.parent))

theorem checkTaxonomyParents_of_same (r s : ModelRegistry) (nodes : List TaxonomyNode)
    (same : r.taxonomyByName = s.taxonomyByName) :
    checkTaxonomyParents r nodes = checkTaxonomyParents s nodes := by
  induction nodes with
  | nil => rfl
  | cons node rest ih =>
    simp only [checkTaxonomyParents, same, ih]

theorem fromManifest_unlinked {m : MimManifest} {e : MimError}
    (fails : checkTaxonomyParents
      { elementsByName := .ofList []
        elementsBySemanticId := .ofList []
        taxonomyByName := .ofList (m.taxonomy.map fun n => (n.name, n))
        codeListsByName := .ofList [] }
      (IndexMap.ofList (m.taxonomy.map fun n => (n.name, n))).values = .error e) :
    ModelRegistry.fromManifest m = .error e := by
  have taxonomy : checkTaxonomyParents {
      taxonomyByName := IndexMap.ofList (m.taxonomy.map fun n => (n.name, n))
      elementsBySemanticId := IndexMap.ofList (m.elements.map fun e => (e.semanticId, e))
      elementsByName := IndexMap.ofList (m.elements.map fun e => (e.name, e))
      codeListsByName := IndexMap.ofList (m.codeLists.map fun c => (c.name, c))
      version := m.version }
      (IndexMap.ofList (m.taxonomy.map fun n => (n.name, n))).values = .error e := by
    rw [← fails]
    exact checkTaxonomyParents_of_same _ _ _ rfl
  simp only [ModelRegistry.fromManifest, ModelRegistry.validateIntegrity, taxonomy]

theorem fromManifest_ok_iff {m : MimManifest} {r : ModelRegistry} :
    ModelRegistry.fromManifest m = .ok r ↔ r.validateIntegrity = .ok () ∧ r = {
      taxonomyByName := IndexMap.ofList (m.taxonomy.map fun n => (n.name, n))
      elementsBySemanticId := IndexMap.ofList (m.elements.map fun e => (e.semanticId, e))
      elementsByName := IndexMap.ofList (m.elements.map fun e => (e.name, e))
      codeListsByName := IndexMap.ofList (m.codeLists.map fun c => (c.name, c))
      version := m.version } := by
  unfold ModelRegistry.fromManifest
  constructor
  · intro loaded
    dsimp only at loaded
    split at loaded
    · cases loaded
    · rename_i intact
      obtain rfl := Except.ok.inj loaded
      exact ⟨intact, rfl⟩
  · rintro ⟨intact, rfl⟩
    dsimp only
    rw [intact]

theorem checkTaxonomyParents_ok_iff (r : ModelRegistry) (nodes : List TaxonomyNode) :
    checkTaxonomyParents r nodes = .ok () ↔
      ∀ n ∈ nodes, ∀ p, n.parent = some p → p ∈ r.taxonomyByName.keys := by
  induction nodes with
  | nil => simp [checkTaxonomyParents]
  | cons node rest ih =>
    rw [checkTaxonomyParents, List.forall_mem_cons]
    cases node.parent with
    | none => simp [ih]
    | some parent =>
      dsimp only
      split
      · rename_i known
        simp [ih, (containsKey_iff _ _).mp known]
      · rename_i unknown
        rw [containsKey_iff] at unknown
        simp [unknown]

theorem checkElementParents_ok_iff (r : ModelRegistry) (elements : List ModelElementSpec) :
    checkElementParents r elements = .ok () ↔ ∀ e ∈ elements, ∀ p, e.parentClass = some p →
      p ∈ r.elementsByName.keys ∨ p ∈ r.taxonomyByName.keys := by
  induction elements with
  | nil => simp [checkElementParents]
  | cons element rest ih =>
    rw [checkElementParents, List.forall_mem_cons]
    cases element.parentClass with
    | none => simp [ih]
    | some parent =>
      dsimp only
      split
      · rename_i known
        rw [Bool.or_eq_true, containsKey_iff, containsKey_iff] at known
        simp [ih, known]
      · rename_i unknown
        rw [Bool.or_eq_true, containsKey_iff, containsKey_iff] at unknown
        simp [unknown]

theorem validateIntegrity_ok_iff (r : ModelRegistry) :
    r.validateIntegrity = .ok () ↔
      (∀ n ∈ r.taxonomyByName.values, ∀ p, n.parent = some p → p ∈ r.taxonomyByName.keys) ∧
        ∀ e ∈ r.elementsByName.values, ∀ p, e.parentClass = some p →
          p ∈ r.elementsByName.keys ∨ p ∈ r.taxonomyByName.keys := by
  rw [← checkTaxonomyParents_ok_iff, ← checkElementParents_ok_iff, ModelRegistry.validateIntegrity]
  split
  · rename_i e failed
    simp [failed]
  · rename_i passed
    simp [passed]

def MimManifest.taxonomyLinks (m : MimManifest) : List (String × Option String) :=
  m.taxonomy.map fun n => (n.name, n.parent)

def MimManifest.elementLinks (m : MimManifest) : List (String × Option String) :=
  m.elements.map fun e => (e.name, e.parentClass)

theorem loads_iff (m : MimManifest) :
    (∃ r, ModelRegistry.fromManifest m = .ok r) ↔
      Linked m.taxonomyLinks (· ∈ m.taxonomyLinks.map Prod.fst) ∧
        Linked m.elementLinks fun p =>
          p ∈ m.elementLinks.map Prod.fst ∨ p ∈ m.taxonomyLinks.map Prod.fst := by
  have nodes := mem_keys_indexed (·.name) m.taxonomy
  have specs := mem_keys_indexed (·.name) m.elements
  have kept := mem_values_indexed (·.name) m.taxonomy
  have left := mem_values_indexed (·.name) m.elements
  simp only [indexed] at nodes specs kept left
  simp only [fromManifest_ok_iff, exists_eq_right, validateIntegrity_ok_iff, nodes, specs, kept,
    left, Linked, MimManifest.taxonomyLinks, MimManifest.elementLinks, latest_map, List.map_map]
  constructor
  · rintro ⟨taxonomy, elements⟩
    constructor
    · rintro _ ⟨n, latest, rfl⟩
      exact taxonomy n latest
    · rintro _ ⟨e, latest, rfl⟩
      exact elements e latest
  · rintro ⟨taxonomy, elements⟩
    exact ⟨fun n latest => taxonomy _ ⟨n, latest, rfl⟩, fun e latest => elements _ ⟨e, latest, rfl⟩⟩

theorem parentOf_fromManifest {m : MimManifest} {r : ModelRegistry}
    (loaded : ModelRegistry.fromManifest m = .ok r) : r.parentOf = m.parentOf := by
  obtain ⟨_, rfl⟩ := fromManifest_ok_iff.mp loaded
  funext className
  simp only [ModelRegistry.parentOf, ModelRegistry.elementByName, ModelRegistry.taxonomyNode,
    MimManifest.parentOf, get_indexed]

/-- `none` is the case in which the source's `while let` loop never ends. -/
def ModelRegistry.ancestorsOf (r : ModelRegistry) (className : String) : Option (List String) :=
  walk r.parentOf (r.elementsByName.keys.length + r.taxonomyByName.keys.length + 1)
    (r.parentOf className)

def ModelRegistry.knownNames (r : ModelRegistry) : Finset String :=
  r.elementsByName.keys.toFinset ∪ r.taxonomyByName.keys.toFinset

theorem parentOf_known (r : ModelRegistry) (className : String)
    (continues : (r.parentOf className).isSome) :
    className ∈ r.knownNames := by
  rw [ModelRegistry.knownNames, Finset.mem_union, List.mem_toFinset, List.mem_toFinset, mem_keys, mem_keys]
  simp only [ModelRegistry.parentOf, ModelRegistry.elementByName, ModelRegistry.taxonomyNode]
    at continues
  cases element : r.elementsByName.get className with
  | some e => exact .inl rfl
  | none =>
    cases node : r.taxonomyByName.get className with
    | some t => exact .inr rfl
    | none => simp [element, node] at continues

/-- The bound on the walk is not an artefact: where it runs out, no bound is enough. -/
theorem ancestorsOf_none (r : ModelRegistry) (className : String)
    (cut : r.ancestorsOf className = none) (fuel : Nat) :
    walk r.parentOf fuel (r.parentOf className) = none := by
  have bound : r.knownNames.card ≤ r.elementsByName.keys.length + r.taxonomyByName.keys.length :=
    calc r.knownNames.card ≤ r.elementsByName.keys.toFinset.card + r.taxonomyByName.keys.toFinset.card :=
          Finset.card_union_le _ _
      _ ≤ r.elementsByName.keys.length + r.taxonomyByName.keys.length :=
          Nat.add_le_add (List.toFinset_card_le _) (List.toFinset_card_le _)
  refine walk_diverges r.parentOf r.knownNames (parentOf_known r) (r.parentOf className) ?_ fuel
  cases short : walk r.parentOf (r.knownNames.card + 1) (r.parentOf className) with
  | none => rfl
  | some path =>
    obtain ⟨more, total⟩ := Nat.exists_eq_add_of_le (Nat.succ_le_succ bound)
    have ended := walk_more r.parentOf (r.knownNames.card + 1) more (r.parentOf className) path short
    have same : r.elementsByName.keys.length + r.taxonomyByName.keys.length + 1 =
        r.knownNames.card + 1 + more := total
    rw [ModelRegistry.ancestorsOf, same, ended] at cut
    exact absurd cut (by simp)

/-- Where the walk ends, the bound played no part in the ancestors it returns. -/
theorem ancestorsOf_some (r : ModelRegistry) (className : String) (path : List String) (fuel : Nat)
    (ended : walk r.parentOf fuel (r.parentOf className) = some path) :
    r.ancestorsOf className = some path := by
  cases bounded : r.ancestorsOf className with
  | none => exact absurd (ancestorsOf_none r className bounded fuel) (by simp [ended])
  | some other =>
    have left := walk_more r.parentOf _ fuel _ other bounded
    have right := walk_more r.parentOf fuel
      (r.elementsByName.keys.length + r.taxonomyByName.keys.length + 1) _ path ended
    rw [Nat.add_comm, right] at left
    exact left.symm

def propertyToCodeListName (propertyName : String) : Option String :=
  if !endsWith "Code" propertyName then none
  else
    match propertyName.toList with
    | [] => none
    | first :: rest => some (.ofList (first.toUpper :: rest))

def ModelRegistry.codeListForAttribute (r : ModelRegistry) (attributeName : String) :
    Option CodeList :=
  match r.elementByName attributeName with
  | none => none
  | some element =>
    if element.representationTerm != some .code then none
    else (propertyToCodeListName attributeName).bind r.codeListsByName.get

end MimModel
