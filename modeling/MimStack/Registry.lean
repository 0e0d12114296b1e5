import MimStack.Runtime

/-!
What the registry keeps of a manifest, and what the validator sees of it. Elements
are indexed by name and by identifier, and a later element takes the place of an
earlier one in each index by itself; attributes are looked up in the first only.
-/
namespace MimRuntime
open RustText IndexedMap JsonText MimCore MimModel

section Indexes

variable {m : MimManifest} {r : ModelRegistry}

theorem fromManifest_elementsByName (loaded : ModelRegistry.fromManifest m = .ok r) :
    r.elementsByName = indexed (·.name) m.elements := by
  obtain ⟨_, rfl⟩ := fromManifest_ok_iff.mp loaded
  rfl

theorem fromManifest_elementsBySemanticId (loaded : ModelRegistry.fromManifest m = .ok r) :
    r.elementsBySemanticId = indexed (·.semanticId) m.elements := by
  obtain ⟨_, rfl⟩ := fromManifest_ok_iff.mp loaded
  rfl

def AttributeOf (e : ModelElementSpec) (className : String) : Prop :=
  e.kind = .attributeElement ∧ e.parentClass = some className

theorem mem_attributesForClass (loaded : ModelRegistry.fromManifest m = .ok r) (className : String)
    (e : ModelElementSpec) : e ∈ r.attributesForClass className ↔
      Latest (·.name) m.elements e ∧ AttributeOf e className := by
  rw [ModelRegistry.attributesForClass, fromManifest_elementsByName loaded, List.mem_filter,
    mem_values_indexed]
  simp [AttributeOf]

/-- Every attribute is found under its class. -/
def KeepsAttributes (m : MimManifest) (r : ModelRegistry) : Prop :=
  ∀ className, ∀ e ∈ m.elements, AttributeOf e className → e ∈ r.attributesForClass className

/-- Both indexes find the same element by the name and by the identifier of each. -/
def IndexesAgree (m : MimManifest) (r : ModelRegistry) : Prop :=
  ∀ e ∈ m.elements, r.elementByName e.name = r.elementBySemanticId e.semanticId

/-- The check for mandatory attributes reports every one that an instance lacks, of its class and
of the ancestors of its class. -/
def SeesMandatory (m : MimManifest) (r : ModelRegistry) : Prop :=
  ∀ (i : MimInstance) ancestors, r.ancestorsOf i.className = some ancestors →
    ∀ className ∈ i.className :: ancestors, ∀ e ∈ m.elements, AttributeOf e className →
      e.isMandatory = true → attributePresent i e = false →
        ∃ issues, validateRequiredAttributes r (some i.oid.text) i = some issues ∧
          errorIssue (some i.oid.text) (some e.name) ("mandatory attribute '" ++ e.name ++
            "' on class '" ++ className ++ "' is absent") ∈ issues

/-- No later element takes the name of an attribute that belongs to a class. -/
def AttributesLast (m : MimManifest) : Prop :=
  ∀ e ∈ m.elements, e.kind = .attributeElement → e.parentClass.isSome →
    Latest (·.name) m.elements e

theorem keepsAttributes_iff (loaded : ModelRegistry.fromManifest m = .ok r) :
    KeepsAttributes m r ↔ AttributesLast m := by
  constructor
  · intro keeps e mem attributed hasParent
    obtain ⟨className, parent⟩ := Option.isSome_iff_exists.mp hasParent
    have found := keeps className e mem ⟨attributed, parent⟩
    exact ((mem_attributesForClass loaded className e).mp found).1
  · intro last className e mem attributed
    have latest := last e mem attributed.1 (by rw [attributed.2]; rfl)
    exact (mem_attributesForClass loaded className e).mpr ⟨latest, attributed⟩

theorem indexesAgree_iff (loaded : ModelRegistry.fromManifest m = .ok r) :
    IndexesAgree m r ↔
      ∀ e ∈ m.elements, ∀ f ∈ m.elements, (e.name = f.name ↔ e.semanticId = f.semanticId) := by
  rw [← indexes_agree_iff (fun e : ModelElementSpec => e.name) (·.semanticId) m.elements,
    ← fromManifest_elementsByName loaded, ← fromManifest_elementsBySemanticId loaded]
  rfl

theorem seesMandatory_of_keeps (keeps : KeepsAttributes m r) : SeesMandatory m r := by
  intro i ancestors walked className listed e mem attributed mandatory missing
  have found := keeps className e mem attributed
  refine ⟨_, by rw [validateRequiredAttributes, walked]; rfl, ?_⟩
  apply List.mem_flatMap.mpr
  refine ⟨className, listed, List.mem_flatMap.mpr ⟨e, found, ?_⟩⟩
  simp [validateRequiredAttribute, mandatory, missing]

end Indexes

/-- An accepted manifest loses no attribute, and its two indexes agree, exactly when names and
identifiers tell the same elements apart and no later element takes an attribute's name. -/
theorem registry_complete_iff (m : MimManifest) (r : ModelRegistry)
    (loaded : ModelRegistry.fromManifest m = .ok r) :
    KeepsAttributes m r ∧ IndexesAgree m r ∧ SeesMandatory m r ↔
      AttributesLast m ∧
        ∀ e ∈ m.elements, ∀ f ∈ m.elements, (e.name = f.name ↔ e.semanticId = f.semanticId) := by
  rw [keepsAttributes_iff loaded, indexesAgree_iff loaded]
  constructor
  · rintro ⟨last, apart, _⟩
    exact ⟨last, apart⟩
  · rintro ⟨last, apart⟩
    exact ⟨last, apart, seesMandatory_of_keeps ((keepsAttributes_iff loaded).mpr last)⟩

def classSpec (name : String) (id : BitVec 128) : ModelElementSpec where
  name
  kind := .classElement
  semanticId := ⟨id⟩
  parentClass := none
  representationTerm := none
  isMandatory := false

def attributeSpec (name parent : String) (id : BitVec 128)
    (term : Option RepresentationTerm) : ModelElementSpec where
  name
  kind := .attributeElement
  semanticId := ⟨id⟩
  parentClass := some parent
  representationTerm := term
  isMandatory := true

def namedTypes (unitName personName : String) : MimManifest where
  taxonomy := []
  codeLists := []
  elements := [classSpec "Unit" 1, classSpec "Person" 2, attributeSpec unitName "Unit" 3 none,
    attributeSpec personName "Person" 4 none]

def namedRegistry (unitName personName : String) : ModelRegistry where
  taxonomyByName := .ofList []
  codeListsByName := .ofList []
  elementsBySemanticId := indexed (·.semanticId) (namedTypes unitName personName).elements
  elementsByName := indexed (·.name) (namedTypes unitName personName).elements

def namelessUnit : MimInstance where
  oid := ⟨"u"⟩
  className := "Unit"
  classSemanticId := ⟨1⟩
  metadata := {}
  properties := []
  associations := .empty

theorem namedRegistry_complete :
    KeepsAttributes (namedTypes "unitName" "personName") (namedRegistry "unitName" "personName") ∧
      IndexesAgree (namedTypes "unitName" "personName") (namedRegistry "unitName" "personName") ∧
      SeesMandatory (namedTypes "unitName" "personName")
        (namedRegistry "unitName" "personName") := by
  apply (registry_complete_iff (namedTypes "unitName" "personName")
    (namedRegistry "unitName" "personName") rfl).mpr
  constructor
  · intro e mem attributed _
    simp only [namedTypes, List.mem_cons, List.not_mem_nil, or_false] at mem
    rcases mem with rfl | rfl | rfl | rfl
    · cases attributed
    · cases attributed
    · rfl
    · rfl
  · intro e memE f memF
    simp only [namedTypes, List.mem_cons, List.not_mem_nil, or_false] at memE memF
    rcases memE with rfl | rfl | rfl | rfl <;> rcases memF with rfl | rfl | rfl | rfl <;> decide

/-- The name of a person takes the place of the name of a unit, which nobody misses then. -/
theorem namedRegistry_loses :
    ModelRegistry.fromManifest (namedTypes "nameText" "nameText") =
        .ok (namedRegistry "nameText" "nameText") ∧
      attributeSpec "nameText" "Unit" 3 none ∈ (namedTypes "nameText" "nameText").elements ∧
      (namedRegistry "nameText" "nameText").attributesForClass "Unit" = [] ∧
      validateInstance (namedRegistry "nameText" "nameText") namelessUnit = some ⟨[]⟩ ∧
      ¬ KeepsAttributes (namedTypes "nameText" "nameText")
        (namedRegistry "nameText" "nameText") := by
  have listed : attributeSpec "nameText" "Unit" 3 none ∈
      (namedTypes "nameText" "nameText").elements := by
    simp [namedTypes]
  have lost : (namedRegistry "nameText" "nameText").attributesForClass "Unit" = [] := rfl
  refine ⟨rfl, listed, lost, rfl, ?_⟩
  intro keeps
  have found := keeps "Unit" _ listed ⟨rfl, rfl⟩
  rw [lost] at found
  cases found

/-- The code a JSON value stands for: a text itself, an object the text it has under `codeValue`
or, without that member, under `value`. No other value stands for a code. -/
inductive Denotes : Value → String → Prop where
  | text (code : String) : Denotes (.string code) code
  | codeValue {fields : List (String × Value)} {code : String}
      (held : field "codeValue" fields = some (.string code)) : Denotes (.object fields) code
  | value {fields : List (String × Value)} {code : String}
      (absent : field "codeValue" fields = none)
      (held : field "value" fields = some (.string code)) : Denotes (.object fields) code

theorem valueAsString_some_iff (v : Value) (code : String) :
    valueAsString v = some code ↔ Denotes v code := by
  have text : ∀ w : Value, w.asStr = some code ↔ w = .string code := by
    intro w
    cases w <;> simp [Value.asStr]
  constructor
  · intro read
    cases v with
    | string s =>
      obtain rfl := Option.some.inj read
      exact .text s
    | object fields =>
      obtain ⟨w, held, string⟩ := Option.bind_eq_some_iff.mp read
      obtain rfl := (text w).mp string
      rcases Option.or_eq_some_iff.mp held with first | ⟨absent, second⟩
      · exact .codeValue first
      · exact .value absent second
    | null => cases read
    | bool b => cases read
    | number n => cases read
    | array items => cases read
  · intro denotes
    cases denotes with
    | text => rfl
    | codeValue held => simp [valueAsString, held, Value.asStr]
    | value absent held => simp [valueAsString, absent, held, Value.asStr]

/-- A present value of a property that takes its values from a complete code list. -/
def Coded (r : ModelRegistry) (i : MimInstance) (v : Value) (codeList : CodeList) : Prop :=
  ∃ p ∈ i.properties, p.value = .value v ∧ r.codeListForAttribute p.name = some codeList ∧
    codeList.complete = true

theorem validateValue_complete {codeList : CodeList} (complete : codeList.complete = true)
    (code : String) : codeList.validateValue code = .ok () ↔ codeList.containsValue code = true := by
  rw [CodeList.validateValue]
  cases codeList.containsValue code <;> simp [complete]

theorem coded_member {r : ModelRegistry} {i : MimInstance} {report : ValidationReport}
    (ran : validateInstance r i = some report) (valid : report.isValid = true) {v : Value}
    {codeList : CodeList} (coded : Coded r i v codeList) {code : String}
    (denotes : Denotes v code) : codeList.containsValue code = true := by
  obtain ⟨p, mem, present, found, complete⟩ := coded
  rw [← valueAsString_some_iff] at denotes
  have clean : ∀ issue ∈ report.issues, issue.severity ≠ .error := by
    simpa [ValidationReport.isValid] using valid
  unfold validateInstance at ran
  dsimp only at ran
  split at ran
  · obtain rfl := Option.some.inj ran
    exact absurd rfl (clean _ (List.mem_singleton.mpr rfl))
  · obtain ⟨required, _, rfl⟩ := Option.map_eq_some_iff.mp ran
    rw [← validateValue_complete complete]
    cases checked : codeList.validateValue code with
    | ok _ => rfl
    | error message =>
      have reported : errorIssue (some i.oid.text) (some p.name) message ∈
          validateProperty r (some i.oid.text) p := by
        simp [validateProperty, present, found, denotes, checked]
      exact absurd rfl (clean _ (List.mem_append_left _
        (List.mem_flatMap.mpr ⟨p, mem, reported⟩)))

/-- The coded values of an instance without errors are all members of their lists exactly when
each of them stands for a code at all. -/
theorem valid_codes_iff (r : ModelRegistry) (i : MimInstance) (report : ValidationReport)
    (ran : validateInstance r i = some report) (valid : report.isValid = true) :
    (∀ v codeList, Coded r i v codeList →
        ∃ code, Denotes v code ∧ codeList.containsValue code = true) ↔
      ∀ v codeList, Coded r i v codeList → ∃ code, Denotes v code := by
  constructor
  · intro members v codeList coded
    obtain ⟨code, denotes, _⟩ := members v codeList coded
    exact ⟨code, denotes⟩
  · intro codes v codeList coded
    obtain ⟨code, denotes⟩ := codes v codeList coded
    exact ⟨code, denotes, coded_member ran valid coded denotes⟩

def rangeManifest : MimManifest where
  taxonomy := []
  elements := [classSpec "Unit" 1, attributeSpec "rangeCode" "Unit" 2 (some .code)]
  codeLists := [{ name := "RangeCode", complete := true, values := [{ name := "NEAR" }] }]

def rangeRegistry : ModelRegistry where
  taxonomyByName := .ofList []
  codeListsByName := .ofList (rangeManifest.codeLists.map fun c => (c.name, c))
  elementsBySemanticId := indexed (·.semanticId) rangeManifest.elements
  elementsByName := indexed (·.name) rangeManifest.elements

def rangedUnit (v : Value) : MimInstance :=
  { namelessUnit with properties := [⟨"rangeCode", none, .value v⟩] }

theorem rangedUnit_coded {v w : Value} {codeList : CodeList}
    (coded : Coded rangeRegistry (rangedUnit w) v codeList) : v = w := by
  obtain ⟨p, mem, present, _⟩ := coded
  obtain rfl := List.mem_singleton.mp mem
  exact (Nillable.value.inj present).symm

theorem rangedUnit_valid_code :
    ModelRegistry.fromManifest rangeManifest = .ok rangeRegistry ∧
      ∀ v codeList, Coded rangeRegistry (rangedUnit (.string "NEAR")) v codeList →
        ∃ code, Denotes v code ∧ codeList.containsValue code = true := by
  refine ⟨rfl, (valid_codes_iff rangeRegistry (rangedUnit (.string "NEAR")) ⟨[]⟩ rfl rfl).mpr ?_⟩
  intro v codeList coded
  exact ⟨"NEAR", rangedUnit_coded coded ▸ .text "NEAR"⟩

/-- A number in the place of a code is not reported. -/
theorem rangedUnit_number_passes :
    validateInstance rangeRegistry (rangedUnit (.number "5")) = some ⟨[]⟩ ∧
      ∃ codeList, Coded rangeRegistry (rangedUnit (.number "5")) (.number "5") codeList ∧
        ∀ code, ¬ Denotes (.number "5") code := by
  refine ⟨rfl, _, ⟨_, List.mem_singleton.mpr rfl, rfl, rfl, rfl⟩, ?_⟩
  intro code denotes
  cases denotes

end MimRuntime
