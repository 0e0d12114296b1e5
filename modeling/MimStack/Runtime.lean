import MimStack.Model
import MimStack.Lib.Json

/-!
Runtime instances, the structural check on their serialized form, and the
validator against the model registry.
-/
namespace MimRuntime
open RustText IndexedMap JsonText MimCore MimModel

structure ObjectIdentifier where
  text : String
  deriving DecidableEq

def ObjectIdentifier.new (value : String) : Except MimError ObjectIdentifier :=
  if isEmpty (trim value) then .error (.validation "object identifier must not be empty")
  else .ok ⟨value⟩

structure PropertyValue where
  name : String
  semanticId : Option SemanticId := none
  value : Nillable Value

structure MimInstance where
  oid : ObjectIdentifier
  className : String
  classSemanticId : SemanticId
  metadata : Metadata
  properties : List PropertyValue
  associations : IndexMap String (List ObjectIdentifier)

def MimInstance.property (i : MimInstance) (name : String) : Option PropertyValue :=
  i.properties.find? fun p => p.name == name

/-- Instances in insertion order, each under its own identifier. -/
structure InstanceStore where
  instances : IndexMap ObjectIdentifier MimInstance
  keyed : ∀ k i, instances.get k = some i → i.oid = k

namespace InstanceStore

def empty : InstanceStore := ⟨IndexMap.empty, by intro k i stored; cases stored⟩

def get (s : InstanceStore) (oid : ObjectIdentifier) : Option MimInstance := s.instances.get oid

def keys (s : InstanceStore) : List ObjectIdentifier := s.instances.keys

def values (s : InstanceStore) : List MimInstance := s.instances.values

def containsKey (s : InstanceStore) (oid : ObjectIdentifier) : Bool := s.instances.containsKey oid

def insert (s : InstanceStore) (i : MimInstance) : InstanceStore where
  instances := s.instances.insert i.oid i
  keyed := by
    intro k j stored
    rw [IndexMap.get_insert] at stored
    split at stored
    · rename_i same
      rw [← Option.some.inj stored, same]
    · exact s.keyed k j stored

@[simp] theorem get_empty (oid : ObjectIdentifier) : empty.get oid = none := rfl

@[simp] theorem get_insert (s : InstanceStore) (i : MimInstance) (oid : ObjectIdentifier) :
    (s.insert i).get oid = if oid = i.oid then some i else s.get oid :=
  IndexMap.get_insert s.instances i.oid oid i

theorem keys_insert (s : InstanceStore) (i : MimInstance) :
    (s.insert i).keys = if i.oid ∈ s.keys then s.keys else s.keys ++ [i.oid] :=
  IndexMap.keys_insert s.instances i.oid i

theorem values_insert_fresh (s : InstanceStore) (i : MimInstance) (fresh : i.oid ∉ s.keys) :
    (s.insert i).values = s.values ++ [i] :=
  IndexMap.values_insert_fresh s.instances i.oid i fresh

theorem mem_keys (s : InstanceStore) (oid : ObjectIdentifier) :
    oid ∈ s.keys ↔ (s.get oid).isSome :=
  IndexMap.mem_keys s.instances oid

theorem containsKey_iff (s : InstanceStore) (oid : ObjectIdentifier) :
    s.containsKey oid = true ↔ oid ∈ s.keys :=
  IndexMap.containsKey_iff s.instances oid

theorem ext_of_instances (s t : InstanceStore) (same : s.instances = t.instances) : s = t := by
  cases s
  cases t
  cases same
  rfl

theorem ext_of_get (s t : InstanceStore) (keys : s.keys = t.keys)
    (get : ∀ k, s.get k = t.get k) : s = t :=
  ext_of_instances s t (IndexMap.ext_of_get s.instances t.instances keys get)

theorem values_oids (s : InstanceStore) : s.values.map (·.oid) = s.keys := by
  have own : ∀ e ∈ s.instances.entries, e.2.oid = e.1 := fun e mem =>
    s.keyed e.1 e.2 (IndexMap.get_of_mem s.instances e mem)
  rw [values, IndexMap.values, List.map_map, keys, IndexMap.keys]
  exact List.map_congr_left own

theorem values_nodup (s : InstanceStore) : (s.values.map (·.oid)).Nodup := by
  rw [values_oids]
  exact s.instances.nodup

theorem mem_values (s : InstanceStore) (i : MimInstance) : i ∈ s.values ↔ s.get i.oid = some i := by
  constructor
  · intro listed
    obtain ⟨e, stored, rfl⟩ := List.mem_map.mp listed
    have found := IndexMap.get_of_mem s.instances e stored
    rw [get, s.keyed e.1 e.2 found]
    exact found
  · intro found
    exact List.mem_map.mpr ⟨_, IndexMap.mem_of_get _ _ _ found, rfl⟩

theorem entries_values (s : InstanceStore) :
    s.values.map (fun i => (i.oid, i)) = s.instances.entries := by
  have own : ∀ e ∈ s.instances.entries, (e.2.oid, e.2) = e := fun e mem =>
    Prod.ext (s.keyed e.1 e.2 (IndexMap.get_of_mem s.instances e mem)) rfl
  rw [values, IndexMap.values, List.map_map]
  exact (List.map_congr_left own).trans (List.map_id _)

theorem inserted_instances (items : List MimInstance) (s : InstanceStore) :
    (items.foldl insert s).instances =
      s.instances.insertAll (items.map fun i => (i.oid, i)) := by
  induction items generalizing s with
  | nil => rfl
  | cons i rest ih => exact ih (s.insert i)

theorem insert_values (s : InstanceStore) : s.values.foldl insert empty = s := by
  refine ext_of_instances _ s ?_
  rw [inserted_instances, entries_values]
  exact IndexMap.ofList_entries s.instances

end InstanceStore

def serializeNillable {T : Type} (inner : T → Value) : Nillable T → Value
  | .value v => .ofFields [("kind", .string "value"), ("value", inner v)]
  | .nil reason => .ofFields [("kind", .string "nil"), ("reason", .string reason.asStr)]
  | .absent => .ofFields [("kind", .string "absent")]

def serializeText : Nillable String → Value := serializeNillable .string

def serializeTime : Nillable DateTime → Value := serializeNillable fun t => .string t.serialized

section Serialized

-- What becomes of the members of an object: a text keeps their order, a value sorts their keys.
variable (object : List (String × Value) → Value)

def serializeMetadata (m : Metadata) : Value :=
  object [
    ("reporter", object [("name", serializeText m.reporter.name),
      ("role", serializeText m.reporter.role),
      ("organisation", serializeText m.reporter.organisation)]),
    ("observer", object [("name", serializeText m.observer.name),
      ("role", serializeText m.observer.role)]),
    ("appraisal", object [("confidence", serializeText m.appraisal.confidence),
      ("credibility", serializeText m.appraisal.credibility),
      ("reliability", serializeText m.appraisal.reliability)]),
    ("validity", object [("start", serializeTime m.validity.start),
      ("end", serializeTime m.validity.finish)]),
    ("security", object [("policy", serializeText m.security.policy),
      ("classification", serializeText m.security.classification),
      ("releasability", serializeText m.security.releasability)])]

def serializeProperty (p : PropertyValue) : Value :=
  object [
    ("name", .string p.name),
    ("semanticId", match p.semanticId with | some id => .string id.asStr | none => .null),
    ("value", serializeNillable id p.value)]

def serializeInstance (i : MimInstance) : Value :=
  object [
    ("oid", .string i.oid.text),
    ("className", .string i.className),
    ("classSemanticId", .string i.classSemanticId.asStr),
    ("metadata", serializeMetadata object i.metadata),
    ("properties", .array (i.properties.map (serializeProperty object))),
    ("associations", object (i.associations.entries.map fun e =>
      (e.1, .array (e.2.map fun target => .string target.text))))]

end Serialized

/-- `serde_json::to_value` of an instance. -/
def toValue (i : MimInstance) : Value := serializeInstance .ofFields i

def instanceValue (i : MimInstance) : Value := serializeInstance .object i

def requireStringField (obj : List (String × Value)) (key : String) : Except String Unit :=
  match field key obj with
  | some (.string value) =>
    if isEmpty value then .error ("field '" ++ key ++ "' must be a non-empty string") else .ok ()
  | some _ => .error ("field '" ++ key ++ "' must be a non-empty string")
  | none => .error ("missing required field '" ++ key ++ "'")

def validatePropertyObject (value : Value) : Except String Unit :=
  match value.asObject with
  | none => .error "property entry must be an object"
  | some obj =>
    match requireStringField obj "name" with
    | .error e => .error e
    | .ok () =>
      if (field "value" obj).isSome then .ok () else .error "property missing value field"

def validatePropertyObjects : List Value → Except String Unit
  | [] => .ok ()
  | property :: rest =>
    match validatePropertyObject property with
    | .error e => .error e
    | .ok () => validatePropertyObjects rest

def validateInstanceJsonSchema (value : Value) : Except String Unit :=
  match value.asObject with
  | none => .error "instance root must be a JSON object"
  | some obj =>
    match requireStringField obj "oid" with
    | .error e => .error e
    | .ok () =>
      match requireStringField obj "className" with
      | .error e => .error e
      | .ok () =>
        match requireStringField obj "classSemanticId" with
        | .error e => .error e
        | .ok () =>
          match field "properties" obj with
          | none => .error "missing properties array"
          | some properties =>
            match properties.asArray with
            | none => .error "properties must be an array"
            | some items => validatePropertyObjects items

def validateSerializedInstance (i : MimInstance) : Except String Unit :=
  validateInstanceJsonSchema (toValue i)

theorem serializeProperty_check (p : PropertyValue) :
    validatePropertyObject (serializeProperty .ofFields p) = .ok () ↔ isEmpty p.name = false := by
  have shape : (serializeProperty .ofFields p).asObject = some [
      ("name", .string p.name),
      ("semanticId", match p.semanticId with | some id => .string id.asStr | none => .null),
      ("value", serializeNillable id p.value)] := by
    simp [serializeProperty, Value.ofFields, Value.asObject, List.insertionSort]
  rw [validatePropertyObject, shape]
  by_cases blank : isEmpty p.name = true <;> simp [requireStringField, field, blank]

theorem validatePropertyObjects_ok (properties : List PropertyValue) :
    validatePropertyObjects (properties.map (serializeProperty .ofFields)) = .ok () ↔
      ∀ p ∈ properties, isEmpty p.name = false := by
  induction properties with
  | nil => simp [validatePropertyObjects]
  | cons p rest ih =>
    rw [List.map_cons, validatePropertyObjects, List.forall_mem_cons, ← ih,
      ← serializeProperty_check p]
    cases validatePropertyObject (serializeProperty .ofFields p) <;> simp

theorem validateSerializedInstance_ok (i : MimInstance) :
    validateSerializedInstance i = .ok () ↔
      isEmpty i.oid.text = false ∧ isEmpty i.className = false ∧
        ∀ p ∈ i.properties, isEmpty p.name = false := by
  rw [← validatePropertyObjects_ok]
  have shape : ∃ metadata associations, (toValue i).asObject = some [
      ("associations", associations),
      ("className", .string i.className),
      ("classSemanticId", .string i.classSemanticId.asStr),
      ("metadata", metadata),
      ("oid", .string i.oid.text),
      ("properties", .array (i.properties.map (serializeProperty .ofFields)))] := by
    refine ⟨serializeMetadata .ofFields i.metadata, .ofFields (i.associations.entries.map fun e =>
      (e.1, .array (e.2.map fun target => .string target.text))), ?_⟩
    simp [toValue, serializeInstance, Value.ofFields, Value.asObject, List.insertionSort]
  obtain ⟨metadata, associations, shape⟩ := shape
  rw [validateSerializedInstance, validateInstanceJsonSchema, shape]
  have classId := semanticId_asStr_nonempty i.classSemanticId
  by_cases oid : isEmpty i.oid.text = true <;> by_cases class' : isEmpty i.className = true <;>
    simp [requireStringField, field, oid, class', classId, Value.asArray]

inductive ValidationSeverity where
  | error
  | warning
  deriving DecidableEq

structure ValidationIssue where
  severity : ValidationSeverity
  instanceOid : Option String
  property : Option String
  message : String
  deriving DecidableEq

structure ValidationReport where
  issues : List ValidationIssue := []
  deriving DecidableEq

def ValidationReport.isValid (r : ValidationReport) : Bool :=
  !r.issues.any fun issue => issue.severity == .error

def ValidationReport.errorCount (r : ValidationReport) : Nat :=
  (r.issues.filter fun issue => issue.severity == .error).length

def errorIssue (instanceOid property : Option String) (message : String) : ValidationIssue :=
  ⟨.error, instanceOid, property, message⟩

def valueAsString : Value → Option String
  | .string s => some s
  | .object map => ((field "codeValue" map).or (field "value" map)).bind Value.asStr
  | _ => none

def validateProperty (r : ModelRegistry) (oid : Option String) (property : PropertyValue) :
    List ValidationIssue :=
  match property.value with
  | .value value =>
    match r.codeListForAttribute property.name with
    | none => []
    | some codeList =>
      match valueAsString value with
      | none => []
      | some code =>
        match codeList.validateValue code with
        | .ok () => []
        | .error message => [errorIssue oid (some property.name) message]
  | .nil _ => []
  | .absent => []

def attributePresent (i : MimInstance) (spec : ModelElementSpec) : Bool :=
  match i.property spec.name with
  | some property => !property.value.isAbsent
  | none => false

def validateRequiredAttribute (oid : Option String) (i : MimInstance) (className : String)
    (spec : ModelElementSpec) : List ValidationIssue :=
  if !spec.isMandatory then []
  else if attributePresent i spec then []
  else [errorIssue oid (some spec.name)
    ("mandatory attribute '" ++ spec.name ++ "' on class '" ++ className ++ "' is absent")]

def validateRequiredAttributes (r : ModelRegistry) (oid : Option String) (i : MimInstance) :
    Option (List ValidationIssue) :=
  (r.ancestorsOf i.className).map fun ancestors =>
    (i.className :: ancestors).flatMap fun className =>
      (r.attributesForClass className).flatMap (validateRequiredAttribute oid i className)

def validateInstance (r : ModelRegistry) (i : MimInstance) : Option ValidationReport :=
  let oid := some i.oid.text
  if (r.elementByName i.className).isNone && (r.taxonomyNode i.className).isNone then
    some ⟨[errorIssue oid none ("unknown class '" ++ i.className ++ "'")]⟩
  else
    (validateRequiredAttributes r oid i).map fun required =>
      ⟨i.properties.flatMap (validateProperty r oid) ++ required⟩

end MimRuntime
