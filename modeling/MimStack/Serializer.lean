import MimStack.Runtime
import MimStack.Lib.Markup
import MimStack.Lib.Outcome

/-!
Instances as wire text. The XML form is a start tag with the identifiers and one
element for each property that is not absent; reading it is a loop over the events
of a streaming reader, with one loop inside another for instances and properties.
-/
namespace MimRuntime
open RustText IndexedMap JsonText MarkupText Fallible MimCore

inductive SerializationFormat where
  | json
  | xml
  | jsonLd
  deriving DecidableEq

/-- A tag as it is read: the attributes that are well formed, each with its unescaped value or
the reason it has none. -/
structure XmlTag where
  name : String
  attributes : List (String × Except String String)

inductive XmlEvent where
  | start (tag : XmlTag)
  | empty (tag : XmlTag)
  | finish (name : String)
  | text (s : Except String String)
  | cdata (s : String)
  | other

structure XmlStream where
  events : List XmlEvent
  failure : Option String

/-- The reader, with text trimmed, and the JSON and UUID libraries. -/
structure WireLibraries where
  readXml : String → XmlStream
  parseUuid : String → Option (BitVec 128)
  prettyInstance : MimInstance → String
  prettyValue : Value → String
  parseValue : String → Except String Value
  parseInstance : String → Except String MimInstance
  instanceOfValue : Value → Except String MimInstance

structure Serializer where
  modelVersion : String

def mimJsonldContext : String := "https://www.mimworld.org/mim/5.1.0/context.jsonld"

section Write

def keptFirst (c : Char) : List Char :=
  if c.isAlpha || c == '_' then [c]
  else if c.isAlphanum then ['_', c]
  else []

def keptLater (c : Char) : Char :=
  if c.isAlphanum || c == '_' || c == '-' || c == '.' then c else '_'

def sanitizeXmlName (name : String) : Except MimError String :=
  match name.toList with
  | [] => .error (.serialization ("cannot sanitize XML element name from '" ++ name ++ "'"))
  | first :: later =>
    let out := keptFirst first ++ later.map keptLater
    if out.isEmpty then
      .error (.serialization ("cannot sanitize XML element name from '" ++ name ++ "'"))
    else .ok (.ofList out)

def writeProperty (property : PropertyValue) : Except MimError (List Event) := do
  let propTag ← sanitizeXmlName property.name
  match property.value with
  | .nil reason => return [.empty propTag [("xsi:nil", "true"), ("nilReason", reason.asStr)]]
  | .value value => return [.start propTag [], .text value.toText, .finish propTag]
  | .absent => return []

def writeInstanceFragment (i : MimInstance) : Except MimError (List Event) := do
  let tag ← sanitizeXmlName i.className
  let properties ← i.properties.mapM writeProperty
  return .start tag [("oid", i.oid.text), ("semanticId", i.classSemanticId.asStr)] ::
    properties.flatten ++ [.finish tag]

def jsonldDocument (s : Serializer) (i : MimInstance) : Value :=
  .ofFields [
    ("@context", .string mimJsonldContext),
    ("@type", .string ("mim:" ++ i.className)),
    ("@id", .string i.oid.text),
    ("mim:semanticId", .string i.classSemanticId.asStr),
    ("mim:modelVersion", .string s.modelVersion),
    ("mim:data", toValue i)]

variable [MarkupEscape] (lib : WireLibraries)

def Serializer.serializeInstance (s : Serializer) (i : MimInstance) :
    SerializationFormat → Except MimError String
  | .json => .ok (lib.prettyInstance i)
  | .jsonLd => .ok (lib.prettyValue (jsonldDocument s i))
  | .xml => do
    let events ← writeInstanceFragment i
    return .ofList (renderEvents (.decl "1.0" "UTF-8" :: events))

end Write

section Read

def localName (raw : String) : String := (split (· == ':') raw).getLast?.getD raw

def XmlTag.isInstanceStart (tag : XmlTag) : Bool :=
  tag.attributes.any fun a => localName a.1 == "oid"

def XmlTag.requiredAttribute (tag : XmlTag) (key : String) : Except MimError String :=
  match tag.attributes.find? fun a => localName a.1 == key with
  | some a => a.2.mapError .serialization
  | none => .error (.serialization ("MIM instance missing required attribute '" ++ key ++ "'"))

def XmlTag.isXsiNil (tag : XmlTag) : Bool :=
  tag.attributes.any fun a => localName a.1 == "nil" && (a.2.toOption == some "true")

def XmlTag.nilReason (tag : XmlTag) : NilReason :=
  (tag.attributes.findSome? fun a =>
    if localName a.1 == "nilReason" then
      a.2.toOption.bind fun value => (NilReason.fromStr value).toOption
    else none).getD .unknown

variable (lib : WireLibraries)

def parseSemanticId (value : String) : Except MimError SemanticId :=
  match lib.parseUuid (trim value) with
  | some uuid => .ok ⟨uuid⟩
  | none => .error (.invalidSemanticId (trim value))

/-- An instance with nothing but its name and identifiers. -/
def MimInstance.new (className : String) (classSemanticId : SemanticId) (oid : ObjectIdentifier) :
    MimInstance where
  oid := oid
  className := className
  classSemanticId := classSemanticId
  metadata := {}
  properties := []
  associations := IndexMap.empty

def parseInstanceAttributes (start : XmlTag) : Except MimError MimInstance := do
  let oid ← start.requiredAttribute "oid"
  let semanticRaw ← start.requiredAttribute "semanticId"
  let semanticId ← (parseSemanticId lib semanticRaw).mapError fun e => .serialization e.toString
  let oid ← ObjectIdentifier.new oid
  return .new (localName start.name) semanticId oid

def parsePropertyAttributes (start : XmlTag) (propName : String) (text : Option String) :
    PropertyValue :=
  if start.isXsiNil then { name := propName, value := .nil start.nilReason }
  else
    match text.filter fun text => !isEmpty text with
    | none => { name := propName, value := .absent }
    | some text =>
      { name := propName, value := .value ((lib.parseValue text).toOption.getD (.string text)) }

/-- Where the reader is: between instances, inside the instance that `classTag` opened, or inside
the property that `start` opened there. -/
inductive ReaderState where
  | outside (inExchange : Bool) (instances : List MimInstance)
  | inInstance (inExchange : Bool) (instances : List MimInstance) (classTag : String)
      (inst : MimInstance)
  | inProperty (inExchange : Bool) (instances : List MimInstance) (classTag : String)
      (inst : MimInstance) (start : XmlTag) (text : String)

def MimInstance.pushProperty (i : MimInstance) (property : PropertyValue) : MimInstance :=
  { i with properties := i.properties ++ [property] }

/-- The loop of `parse_xml_instances`. -/
def outsideStep (inExchange : Bool) (instances : List MimInstance) :
    XmlEvent → Except MimError ReaderState
  | .start tag =>
    if localName tag.name = "Exchange" then return .outside true instances
    else if inExchange || !instances.isEmpty || tag.isInstanceStart then do
      let inst ← parseInstanceAttributes lib tag
      return .inInstance inExchange instances (localName tag.name) inst
    else return .outside inExchange instances
  | .empty tag =>
    if tag.isInstanceStart then do
      let inst ← parseInstanceAttributes lib tag
      return .outside inExchange (instances ++ [inst])
    else return .outside inExchange instances
  | _ => return .outside inExchange instances

/-- The loop of `parse_instance_element`. -/
def instanceStep (inExchange : Bool) (instances : List MimInstance) (classTag : String)
    (inst : MimInstance) : XmlEvent → ReaderState
  | .start tag =>
    if tag.isXsiNil then
      .inInstance inExchange instances classTag
        (inst.pushProperty { name := localName tag.name, value := .nil tag.nilReason })
    else .inProperty inExchange instances classTag inst tag ""
  | .empty tag =>
    .inInstance inExchange instances classTag
      (inst.pushProperty (parsePropertyAttributes lib tag (localName tag.name) none))
  | .finish name =>
    if localName name = classTag then .outside inExchange (instances ++ [inst])
    else .inInstance inExchange instances classTag inst
  | _ => .inInstance inExchange instances classTag inst

/-- The loop of `parse_property_element`. -/
def propertyStep (inExchange : Bool) (instances : List MimInstance) (classTag : String)
    (inst : MimInstance) (start : XmlTag) (text : String) : XmlEvent → ReaderState
  | .text s => .inProperty inExchange instances classTag inst start (text ++ s.toOption.getD "")
  | .cdata s => .inProperty inExchange instances classTag inst start (text ++ s)
  | .finish name =>
    if localName name = localName start.name then
      .inInstance inExchange instances classTag (inst.pushProperty
        (parsePropertyAttributes lib start (localName start.name) (some (trim text))))
    else .inProperty inExchange instances classTag inst start text
  | _ => .inProperty inExchange instances classTag inst start text

def ReaderState.readEvent : ReaderState → XmlEvent → Except MimError ReaderState
  | .outside inExchange instances, e => outsideStep lib inExchange instances e
  | .inInstance inExchange instances classTag inst, e =>
    .ok (instanceStep lib inExchange instances classTag inst e)
  | .inProperty inExchange instances classTag inst start text, e =>
    .ok (propertyStep lib inExchange instances classTag inst start text e)

/-- The end of the text, which only the outer loop expects. -/
def ReaderState.atEnd : ReaderState → Except MimError (List MimInstance)
  | .outside _ instances =>
    if instances.isEmpty then
      .error (.serialization "XML payload contains no MIM instance elements")
    else .ok instances
  | .inInstance _ _ classTag _ =>
    .error (.serialization ("unexpected end of XML inside <" ++ classTag ++ ">"))
  | .inProperty _ _ _ _ start _ =>
    .error (.serialization ("unexpected end of XML inside <" ++ localName start.name ++ ">"))

def parseXmlInstances (data : String) : Except MimError (List MimInstance) := do
  let stream := lib.readXml data
  let state ← stream.events.foldlM (ReaderState.readEvent lib) (.outside false [])
  match stream.failure with
  | some e => throw (.serialization e)
  | none => state.atEnd

def fromJsonld (data : String) : Except MimError MimInstance := do
  let value ← (lib.parseValue data).mapError .serialization
  match value.asObject.bind (field "mim:data") with
  | some inner => (lib.instanceOfValue inner).mapError .serialization
  | none => (lib.instanceOfValue value).mapError .serialization

def deserializeInstance (data : String) : SerializationFormat → Except MimError MimInstance
  | .json => (lib.parseInstance data).mapError .serialization
  | .jsonLd => fromJsonld lib data
  | .xml => do
    let instances ← parseXmlInstances lib data
    match instances with
    | [] => throw (.serialization "XML payload contains no MIM instance")
    | first :: _ => return first

variable {lib}

theorem parseXmlInstances_ok {data : String} {instances : List MimInstance} :
    parseXmlInstances lib data = .ok instances ↔
      (lib.readXml data).failure = none ∧ instances ≠ [] ∧ ∃ inExchange,
        (lib.readXml data).events.foldlM (ReaderState.readEvent lib) (.outside false []) =
          .ok (.outside inExchange instances) := by
  have ending : ∀ state : ReaderState, state.atEnd = .ok instances ↔
      instances ≠ [] ∧ ∃ inExchange, state = .outside inExchange instances := by
    intro state
    cases state with
    | outside inExchange read =>
      cases read with
      | nil =>
        simp only [ReaderState.atEnd, ReaderState.outside.injEq]
        constructor
        · intro failed
          cases failed
        · rintro ⟨found, _, _, rfl⟩
          exact absurd rfl found
      | cons first rest =>
        simp only [ReaderState.atEnd, ReaderState.outside.injEq]
        constructor
        · intro same
          obtain rfl := Except.ok.inj same
          exact ⟨List.cons_ne_nil _ _, inExchange, rfl, rfl⟩
        · rintro ⟨_, _, _, rfl⟩
          rfl
    | inInstance => simp [ReaderState.atEnd]
    | inProperty => simp [ReaderState.atEnd]
  constructor
  · intro parsed
    obtain ⟨state, ran, parsed⟩ := bind_ok.mp parsed
    split at parsed
    · cases parsed
    · rename_i quiet
      obtain ⟨found, inExchange, rfl⟩ := (ending state).mp parsed
      exact ⟨quiet, found, inExchange, ran⟩
  · rintro ⟨quiet, found, inExchange, ran⟩
    refine bind_ok.mpr ⟨_, ran, ?_⟩
    simp only [quiet]
    exact (ending _).mpr ⟨found, inExchange, rfl⟩

theorem deserializeInstance_xml_ok {data : String} {i : MimInstance} :
    deserializeInstance lib data .xml = .ok i ↔
      ∃ rest, parseXmlInstances lib data = .ok (i :: rest) := by
  constructor
  · intro read
    obtain ⟨instances, parsed, read⟩ := bind_ok.mp read
    cases instances with
    | nil => cases read
    | cons first rest => exact ⟨rest, pure_ok.mp read ▸ parsed⟩
  · rintro ⟨rest, parsed⟩
    exact bind_ok.mpr ⟨_, parsed, rfl⟩

def ReaderState.All (p : MimInstance → Prop) : ReaderState → Prop
  | .outside _ instances => ∀ i ∈ instances, p i
  | .inInstance _ instances _ inst => (∀ i ∈ instances, p i) ∧ p inst
  | .inProperty _ instances _ inst _ _ => (∀ i ∈ instances, p i) ∧ p inst

structure ReadInvariant (p : MimInstance → Prop) : Prop where
  new : ∀ className classSemanticId oid, p (.new className classSemanticId oid)
  push : ∀ i property, p i → p (i.pushProperty property)

section Invariant

variable {p : MimInstance → Prop} (inv : ReadInvariant p)
include inv

theorem parseInstanceAttributes_invariant {start : XmlTag} {i : MimInstance}
    (parsed : parseInstanceAttributes lib start = .ok i) : p i := by
  obtain ⟨_, _, parsed⟩ := bind_ok.mp parsed
  obtain ⟨_, _, parsed⟩ := bind_ok.mp parsed
  obtain ⟨_, _, parsed⟩ := bind_ok.mp parsed
  obtain ⟨_, _, parsed⟩ := bind_ok.mp parsed
  exact pure_ok.mp parsed ▸ inv.new _ _ _

omit inv in
theorem all_snoc {instances : List MimInstance} {i : MimInstance} (before : ∀ i ∈ instances, p i)
    (here : p i) : ∀ j ∈ instances ++ [i], p j := by
  intro j mem
  rcases List.mem_append.mp mem with earlier | last
  · exact before j earlier
  · exact List.mem_singleton.mp last ▸ here

theorem outsideStep_invariant {inExchange : Bool} {instances : List MimInstance} {e : XmlEvent}
    {next : ReaderState} (before : ∀ i ∈ instances, p i)
    (step : outsideStep lib inExchange instances e = .ok next) : next.All p := by
  cases e with
  | start tag =>
    simp only [outsideStep] at step
    split at step
    · exact pure_ok.mp step ▸ before
    · split at step
      · obtain ⟨inst, parsed, step⟩ := bind_ok.mp step
        exact pure_ok.mp step ▸ ⟨before, parseInstanceAttributes_invariant inv parsed⟩
      · exact pure_ok.mp step ▸ before
  | empty tag =>
    simp only [outsideStep] at step
    split at step
    · obtain ⟨inst, parsed, step⟩ := bind_ok.mp step
      exact pure_ok.mp step ▸ all_snoc before (parseInstanceAttributes_invariant inv parsed)
    · exact pure_ok.mp step ▸ before
  | finish name => exact pure_ok.mp step ▸ before
  | text s => exact pure_ok.mp step ▸ before
  | cdata s => exact pure_ok.mp step ▸ before
  | other => exact pure_ok.mp step ▸ before

theorem instanceStep_invariant {inExchange : Bool} {instances : List MimInstance}
    {classTag : String} {inst : MimInstance} (before : ∀ i ∈ instances, p i) (here : p inst)
    (e : XmlEvent) : (instanceStep lib inExchange instances classTag inst e).All p := by
  cases e with
  | start tag =>
    simp only [instanceStep]
    split
    · exact ⟨before, inv.push _ _ here⟩
    · exact ⟨before, here⟩
  | empty tag => exact ⟨before, inv.push _ _ here⟩
  | finish name =>
    simp only [instanceStep]
    split
    · exact all_snoc before here
    · exact ⟨before, here⟩
  | text s => exact ⟨before, here⟩
  | cdata s => exact ⟨before, here⟩
  | other => exact ⟨before, here⟩

theorem propertyStep_invariant {inExchange : Bool} {instances : List MimInstance}
    {classTag : String} {inst : MimInstance} {start : XmlTag} {text : String}
    (before : ∀ i ∈ instances, p i) (here : p inst) (e : XmlEvent) :
    (propertyStep lib inExchange instances classTag inst start text e).All p := by
  cases e with
  | finish name =>
    simp only [propertyStep]
    split
    · exact ⟨before, inv.push _ _ here⟩
    · exact ⟨before, here⟩
  | start tag => exact ⟨before, here⟩
  | empty tag => exact ⟨before, here⟩
  | text s => exact ⟨before, here⟩
  | cdata s => exact ⟨before, here⟩
  | other => exact ⟨before, here⟩

theorem readEvent_invariant (state : ReaderState) (e : XmlEvent) (next : ReaderState)
    (before : state.All p) (step : state.readEvent lib e = .ok next) : next.All p := by
  cases state with
  | outside inExchange instances => exact outsideStep_invariant inv before step
  | inInstance inExchange instances classTag inst =>
    exact Except.ok.inj step ▸ instanceStep_invariant inv before.1 before.2 e
  | inProperty inExchange instances classTag inst start text =>
    exact Except.ok.inj step ▸ propertyStep_invariant inv before.1 before.2 e

theorem parseXmlInstances_invariant {data : String} {instances : List MimInstance}
    (parsed : parseXmlInstances lib data = .ok instances) : ∀ i ∈ instances, p i := by
  obtain ⟨_, _, inExchange, ran⟩ := parseXmlInstances_ok.mp parsed
  have first : (ReaderState.outside false []).All p := fun i mem => absurd mem List.not_mem_nil
  exact foldlM_invariant (readEvent_invariant inv) _ first ran

end Invariant

theorem deserializeInstance_xml_metadata {data : String} {i : MimInstance}
    (read : deserializeInstance lib data .xml = .ok i) : i.metadata = {} := by
  have bare : ReadInvariant fun i => i.metadata = {} := ⟨fun _ _ _ => rfl, fun _ _ kept => kept⟩
  obtain ⟨rest, parsed⟩ := deserializeInstance_xml_ok.mp read
  exact parseXmlInstances_invariant bare parsed i List.mem_cons_self

end Read

end MimRuntime
