import MimStack.Transport.Envelope

/-!
The format of a payload is guessed from its text. Of what a serializer writes only
plain JSON can be taken for something else, and the reader it is then given to reads
it all the same.
-/
namespace MimTransport
open RustText IndexedMap JsonText MarkupText Fallible MimCore MimModel MimRuntime

structure SameInstance (i j : MimInstance) : Prop where
  oid : i.oid = j.oid
  className : i.className = j.className
  classSemanticId : i.classSemanticId = j.classSemanticId
  metadata : i.metadata = j.metadata
  properties : i.properties = j.properties
  associations : ∀ role, i.associations.get role = j.associations.get role

inductive SameResult : Except MimError MimInstance → Except MimError MimInstance → Prop where
  | ok {i j : MimInstance} (same : SameInstance i j) : SameResult (.ok i) (.ok j)
  | error (e : MimError) : SameResult (.error e) (.error e)

theorem sameResult_refl (result : Except MimError MimInstance) : SameResult result result := by
  cases result with
  | error e => exact .error e
  | ok i => exact .ok ⟨rfl, rfl, rfl, rfl, rfl, fun _ => rfl⟩

section Detection

theorem detect_object {text : String} {rest : List Char} (begun : text.toList = '\x7b' :: rest) :
    detectPayloadFormat text = if contains "@context" text then .jsonLd else .json := by
  have kept : trimStartMatches isWhitespace text = text :=
    trimStartMatches_kept begun (by decide)
  have markup : startsWith "<" text = false := by
    rw [startsWith, begun]
    rfl
  have object : startsWith "\x7b" text = true := by
    rw [startsWith, begun]
    rfl
  simp only [detectPayloadFormat, kept, markup, object, Bool.false_eq_true, if_false, Bool.true_and]

theorem jsonldDocument_fields (s : Serializer) (i : MimInstance) :
    ∃ rest, jsonldDocument s i = .object (("@context", .string mimJsonldContext) :: rest) := by
  refine ⟨[("@id", .string i.oid.text), ("@type", .string ("mim:" ++ i.className)),
    ("mim:data", toValue i), ("mim:modelVersion", .string s.modelVersion),
    ("mim:semanticId", .string i.classSemanticId.asStr)], ?_⟩
  simp [jsonldDocument, Value.ofFields, List.insertionSort]

theorem detect_written_jsonld (s : Serializer) (i : MimInstance) :
    detectPayloadFormat (jsonldDocument s i).toPrettyText = .jsonLd := by
  obtain ⟨rest, shape⟩ := jsonldDocument_fields s i
  obtain ⟨later, text⟩ := pretty_first_member "@context" (.string mimJsonldContext) rest
  have key : quoted "@context" = '"' :: ("@context".toList ++ ['"']) := by decide
  have shown : contains "@context" (jsonldDocument s i).toPrettyText = true := by
    rw [contains, decide_eq_true_eq, shape, text, key]
    exact ⟨'\x7b' :: (newLine 1 ++ ['"']),
      '"' :: ':' :: ' ' :: (prettyAt 1 (.string mimJsonldContext) ++ later), by simp⟩
  rw [← shape] at text
  rw [detect_object text, shown, if_pos rfl]

end Detection

section Bare

theorem toValue_bare (i : MimInstance) : (toValue i).asObject.bind (field "mim:data") = none := by
  have shape : (toValue i).asObject.bind (field "mim:data") = field "mim:data"
      (List.insertionSort (fun a b => a.1 ≤ b.1) [("oid", .string i.oid.text),
        ("className", .string i.className), ("classSemanticId", .string i.classSemanticId.asStr),
        ("metadata", serializeMetadata .ofFields i.metadata),
        ("properties", .array (i.properties.map (serializeProperty .ofFields))),
        ("associations", .ofFields (i.associations.entries.map fun e =>
          (e.1, .array (e.2.map fun target => .string target.text))))]) := rfl
  rw [shape, field_sorted (by simp)]
  simp [field]

theorem fromJsonld_bare {lib : WireLibraries} {data : String} {value : Value}
    (parsed : lib.parseValue data = .ok value)
    (bare : value.asObject.bind (field "mim:data") = none) :
    fromJsonld lib data = (lib.instanceOfValue value).mapError .serialization := by
  have read : (lib.parseValue data).mapError MimError.serialization = pure value := by
    rw [parsed]
    rfl
  rw [fromJsonld, read, pure_bind, bare]

end Bare

section Harmless

/-- What the JSON library does with the instance. A struct is written as an object, and a value
indented; a text that was written for an instance is read as one and as its value, or refused for
the same reason; and a value is taken for an instance equal to the one it was made from. -/
structure SerdeJson (lib : WireLibraries) (i : MimInstance) : Prop where
  object : ∃ rest, (lib.prettyInstance i).toList = '\x7b' :: rest
  pretty : ∀ v, lib.prettyValue v = v.toPrettyText
  parse : (∃ r, lib.parseInstance (lib.prettyInstance i) = .ok r ∧
      lib.parseValue (lib.prettyInstance i) = .ok (toValue r)) ∨
    ∃ e, lib.parseInstance (lib.prettyInstance i) = .error e ∧
      lib.parseValue (lib.prettyInstance i) = .error e
  fromValue : ∀ r, lib.parseInstance (lib.prettyInstance i) = .ok r →
    ∃ j, lib.instanceOfValue (toValue r) = .ok j ∧ SameInstance j r

variable {lib : WireLibraries} {i : MimInstance}

theorem json_read_as_jsonld (serde : SerdeJson lib i) :
    SameResult (deserializeInstance lib (lib.prettyInstance i) .jsonLd)
      (deserializeInstance lib (lib.prettyInstance i) .json) := by
  have plain : deserializeInstance lib (lib.prettyInstance i) .json =
    (lib.parseInstance (lib.prettyInstance i)).mapError .serialization := rfl
  have wrapped : deserializeInstance lib (lib.prettyInstance i) .jsonLd =
    fromJsonld lib (lib.prettyInstance i) := rfl
  rw [plain, wrapped]
  rcases serde.parse with ⟨r, typed, value⟩ | ⟨e, typed, value⟩
  · obtain ⟨j, taken, same⟩ := serde.fromValue r typed
    rw [fromJsonld_bare value (toValue_bare r), taken, typed]
    exact .ok same
  · rw [fromJsonld, value, typed]
    exact .error _

variable [MarkupEscape]

/-- Reading a written instance in the format it is taken for is reading it in its own. -/
theorem detection_harmless (s : Serializer) (serde : SerdeJson lib i) (format : WirePayloadFormat)
    {text : String} (written : s.serializeInstance lib i format.serializationFormat = .ok text) :
    SameResult
      (deserializeInstance lib text (detectPayloadFormat text).serializationFormat)
      (deserializeInstance lib text format.serializationFormat) := by
  cases format with
  | json =>
    obtain rfl := Except.ok.inj written
    obtain ⟨rest, begun⟩ := serde.object
    rw [detect_object begun]
    split
    · exact json_read_as_jsonld serde
    · exact sameResult_refl _
  | xml =>
    rw [detect_written_xml written]
    exact sameResult_refl _
  | jsonLd =>
    obtain rfl := Except.ok.inj written
    rw [serde.pretty, detect_written_jsonld]
    exact sameResult_refl _

end Harmless

section Fixtures

theorem instanceValue_oid (i : MimInstance) : ∃ later, (instanceValue i).toPrettyText.toList =
    '\x7b' :: (newLine 1 ++ quoted "oid" ++ ':' :: ' ' :: (quoted i.oid.text ++ later)) :=
  pretty_first_member "oid" (.string i.oid.text) _

def disguised (roles : List String) : MimInstance :=
  { MimInstance.new "Unit" ⟨0x00000000000040008000000000000001⟩ ⟨"@context"⟩ with
    properties := [{ name := "nameText", value := .value (.string "<a>") }]
    associations := .ofList (roles.map fun role => (role, [⟨"b"⟩])) }

def disguisedText : String := (instanceValue (disguised ["peer", "head"])).toPrettyText

def disguisedLibraries : WireLibraries where
  readXml _ := ⟨[], some "syntax error"⟩
  parseUuid _ := none
  prettyInstance i := (instanceValue i).toPrettyText
  prettyValue v := v.toPrettyText
  parseValue text :=
    if text = disguisedText then .ok (toValue (disguised ["peer", "head"]))
    else .error "expected value"
  parseInstance text :=
    if text = disguisedText then .ok (disguised ["peer", "head"]) else .error "expected value"
  instanceOfValue v :=
    if v.toText = (toValue (disguised ["peer", "head"])).toText then .ok (disguised ["head", "peer"])
    else .error "invalid type"

theorem disguised_written :
    disguisedLibraries.prettyInstance (disguised ["peer", "head"]) = disguisedText := rfl

theorem disguised_taken : detectPayloadFormat disguisedText = .jsonLd := by
  obtain ⟨later, text⟩ := instanceValue_oid (disguised ["peer", "head"])
  rw [← disguisedText] at text
  have oid : quoted (disguised ["peer", "head"]).oid.text =
    '"' :: ("@context".toList ++ ['"']) := by decide
  have shown : contains "@context" disguisedText = true := by
    rw [contains, decide_eq_true_eq, text, oid]
    exact ⟨'\x7b' :: (newLine 1 ++ quoted "oid" ++ [':', ' ', '"']), '"' :: later, by simp⟩
  rw [detect_object text, shown, if_pos rfl]

theorem disguised_same : SameInstance (disguised ["head", "peer"]) (disguised ["peer", "head"]) := by
  refine ⟨rfl, rfl, rfl, rfl, rfl, ?_⟩
  intro role
  simp only [disguised, IndexMap.ofList, List.map_cons, List.map_nil, List.foldl_cons,
    List.foldl_nil, IndexMap.get_insert, IndexMap.get_empty]
  by_cases head : role = "head"
  · simp [head]
  · simp [head]

theorem disguised_serde : SerdeJson disguisedLibraries (disguised ["peer", "head"]) := by
  have typed : disguisedLibraries.parseInstance disguisedText =
      .ok (disguised ["peer", "head"]) := by
    simp only [disguisedLibraries, if_true]
  have value : disguisedLibraries.parseValue disguisedText =
      .ok (toValue (disguised ["peer", "head"])) := by
    simp only [disguisedLibraries, if_true]
  have taken : disguisedLibraries.instanceOfValue (toValue (disguised ["peer", "head"])) =
      .ok (disguised ["head", "peer"]) := by
    simp only [disguisedLibraries, if_true]
  obtain ⟨later, text⟩ := instanceValue_oid (disguised ["peer", "head"])
  constructor
  · exact ⟨_, text⟩
  · intro v
    rfl
  · rw [disguised_written]
    exact .inl ⟨_, typed, value⟩
  · intro r read
    rw [disguised_written, typed] at read
    obtain rfl := Except.ok.inj read
    exact ⟨_, taken, disguised_same⟩

theorem disguised_harmless : letI := entityEscape
    SameResult (deserializeInstance disguisedLibraries disguisedText .jsonLd)
      (deserializeInstance disguisedLibraries disguisedText .json) := by
  let : MarkupEscape := entityEscape
  have written : wireSerializer.serializeInstance disguisedLibraries
      (disguised ["peer", "head"]) .json = .ok disguisedText := by
    rw [← disguised_written]
    rfl
  have harmless := detection_harmless wireSerializer disguised_serde .json written
  rw [disguised_taken] at harmless
  exact harmless

end Fixtures

end MimTransport
