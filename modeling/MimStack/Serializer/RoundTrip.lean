import MimStack.Serializer
import MimStack.Lib.MarkupReader

/-!
Instances and stores of instances through their XML form. The writer puts out one
element for each property that is not absent; the reader, which has a loop inside a
loop inside a loop, takes them up again one by one.
-/
namespace MimRuntime
open RustText IndexedMap JsonText MarkupText Fallible MimCore

structure ExchangePayload where
  modelVersion : String
  instances : List MimInstance

structure JsonLdExchangePayload where
  context : String
  modelVersion : String
  instances : List MimInstance

/-- The libraries, with what they do for whole stores. -/
structure ExchangeLibraries extends WireLibraries where
  prettyExchange : ExchangePayload → String
  prettyJsonLdExchange : JsonLdExchangePayload → String
  parseExchange : String → Except String ExchangePayload
  parseJsonLdExchange : String → Except String JsonLdExchangePayload

def exchangeAttributes : List (String × String) :=
  [("xmlns:mim", "https://www.mimworld.org/mim/exchange"),
    ("xmlns:xsi", "http://www.w3.org/2001/XMLSchema-instance")]

def Serializer.serializeStore [MarkupEscape] (lib : ExchangeLibraries) (s : Serializer)
    (store : InstanceStore) : SerializationFormat → Except MimError String
  | .json => .ok (lib.prettyExchange ⟨s.modelVersion, store.values⟩)
  | .jsonLd => .ok (lib.prettyJsonLdExchange ⟨mimJsonldContext, s.modelVersion, store.values⟩)
  | .xml => do
    let fragments ← store.values.mapM writeInstanceFragment
    return .ofList (renderEvents (.decl "1.0" "UTF-8" :: .start "mim:Exchange" exchangeAttributes ::
      fragments.flatten ++ [.finish "mim:Exchange"]))

def deserializeStore (lib : ExchangeLibraries) (data : String) :
    SerializationFormat → Except MimError (List MimInstance)
  | .json => ((lib.parseExchange data).mapError .serialization).map (·.instances)
  | .jsonLd => ((lib.parseJsonLdExchange data).mapError .serialization).map (·.instances)
  | .xml => parseXmlInstances lib.toWireLibraries data

section Names

theorem keptFirst_single {c : Char} (one : (keptFirst c).length = 1) :
    keptFirst c = [c] ∧ c ≠ ':' := by
  unfold keptFirst at one ⊢
  split at one
  · rename_i letter
    refine ⟨if_pos letter, ?_⟩
    rintro rfl
    revert letter
    decide
  · split at one
    · cases one
    · cases one

theorem keptLater_colonless (c : Char) : keptLater c ≠ ':' := by
  unfold keptLater
  split
  · rename_i plain
    rintro rfl
    revert plain
    decide
  · decide

theorem sanitized_chars {name : String} (same : sanitizeXmlName name = .ok name) :
    ∃ first later, name.toList = first :: later ∧ first ≠ ':' ∧ later.map keptLater = later := by
  unfold sanitizeXmlName at same
  split at same
  · cases same
  · rename_i first later shape
    dsimp only at same
    split at same
    · cases same
    · have chars := congrArg String.toList (Except.ok.inj same)
      rw [String.toList_ofList, shape] at chars
      have size := congrArg List.length chars
      rw [List.length_append, List.length_map, List.length_cons] at size
      obtain ⟨kept, letter⟩ := keptFirst_single (c := first) (by omega)
      rw [kept, List.singleton_append, List.cons.injEq] at chars
      exact ⟨first, later, shape, letter, chars.2⟩

theorem sanitized_colonless {name : String} (same : sanitizeXmlName name = .ok name) :
    ':' ∉ name.toList := by
  obtain ⟨first, later, shape, letter, kept⟩ := sanitized_chars same
  rw [shape]
  intro mem
  rcases List.mem_cons.mp mem with here | after
  · exact letter here.symm
  · rw [← kept] at after
    obtain ⟨c, _, coded⟩ := List.mem_map.mp after
    exact keptLater_colonless c coded

theorem localName_sanitized {name : String} (same : sanitizeXmlName name = .ok name) :
    localName name = name := by
  have unbroken : ∀ c ∈ name.toList, (c == ':') = false := by
    intro c mem
    have other : c ≠ ':' := fun colon => sanitized_colonless same (colon ▸ mem)
    simpa using other
  rw [localName, split_whole unbroken]
  rfl

/-- The names of the instance are names of elements as they stand, and none is the root's. -/
structure MimInstance.XmlNamed (i : MimInstance) : Prop where
  className : sanitizeXmlName i.className = .ok i.className
  notExchange : i.className ≠ "Exchange"
  properties : ∀ p ∈ i.properties, sanitizeXmlName p.name = .ok p.name

end Names

section Written

def propertyEvents (p : PropertyValue) : List Event :=
  match p.value with
  | .nil reason => [.empty p.name [("xsi:nil", "true"), ("nilReason", reason.asStr)]]
  | .value value => [.start p.name [], .text value.toText, .finish p.name]
  | .absent => []

def fragmentOf (i : MimInstance) : List Event :=
  .start i.className [("oid", i.oid.text), ("semanticId", i.classSemanticId.asStr)] ::
    i.properties.flatMap propertyEvents ++ [.finish i.className]

def instanceDocument (i : MimInstance) : List Event := .decl "1.0" "UTF-8" :: fragmentOf i

def storeDocument (instances : List MimInstance) : List Event :=
  .decl "1.0" "UTF-8" :: .start "mim:Exchange" exchangeAttributes ::
    instances.flatMap fragmentOf ++ [.finish "mim:Exchange"]

theorem writeProperty_named {p : PropertyValue} (named : sanitizeXmlName p.name = .ok p.name) :
    writeProperty p = .ok (propertyEvents p) := by
  refine bind_ok.mpr ⟨p.name, named, ?_⟩
  unfold propertyEvents
  cases p.value with
  | value value => rfl
  | nil reason => rfl
  | absent => rfl

theorem writeInstanceFragment_named {i : MimInstance} (named : i.XmlNamed) :
    writeInstanceFragment i = .ok (fragmentOf i) := by
  have properties : i.properties.mapM writeProperty = .ok (i.properties.map propertyEvents) :=
    mapM_succeeds i.properties fun p mem => writeProperty_named (named.properties p mem)
  refine bind_ok.mpr ⟨_, named.className, bind_ok.mpr ⟨_, properties, ?_⟩⟩
  rw [← List.flatMap_def]
  rfl

variable [MarkupEscape]

theorem serializeInstance_named (s : Serializer) (lib : WireLibraries) {i : MimInstance}
    (named : i.XmlNamed) : s.serializeInstance lib i .xml =
      .ok (.ofList (renderEvents (instanceDocument i))) :=
  bind_ok.mpr ⟨_, writeInstanceFragment_named named, rfl⟩

theorem serializeStore_named (s : Serializer) (lib : ExchangeLibraries) {store : InstanceStore}
    (named : ∀ i ∈ store.values, i.XmlNamed) : s.serializeStore lib store .xml =
      .ok (.ofList (renderEvents (storeDocument store.values))) := by
  have fragments : store.values.mapM writeInstanceFragment = .ok (store.values.map fragmentOf) :=
    mapM_succeeds store.values fun i mem => writeInstanceFragment_named (named i mem)
  refine bind_ok.mpr ⟨_, fragments, ?_⟩
  rw [← List.flatMap_def]
  rfl

end Written

section Read

def writtenTag (name : String) (attributes : List (String × String)) : XmlTag :=
  ⟨name, attributes.map fun a => (a.1, .ok a.2)⟩

def streamed : Event → List XmlEvent
  | .decl _ _ => [.other]
  | .start name attributes => [.start (writtenTag name attributes)]
  | .empty name attributes => [.empty (writtenTag name attributes)]
  | .text s =>
    if (trimBlank s.toList).isEmpty then [] else [.text (.ok (.ofList (trimBlank s.toList)))]
  | .finish name => [.finish name]

/-- The identifier and the values of the instance are read as they are written. -/
structure TextsRead (lib : WireLibraries) (i : MimInstance) : Prop where
  semanticId : lib.parseUuid i.classSemanticId.asStr = some i.classSemanticId.uuid
  value : ∀ p ∈ i.properties, ∀ v, p.value = .value v →
    v.Printed ∧ lib.parseValue v.toText = .ok v

def writtenProperties (properties : List PropertyValue) : List PropertyValue :=
  (properties.filter fun p => !p.value.isAbsent).map fun p => { name := p.name, value := p.value }

def MimInstance.asWritten (i : MimInstance) : MimInstance :=
  { MimInstance.new i.className i.classSemanticId i.oid with
    properties := writtenProperties i.properties }

theorem graphic_visible {c : Char} (graphic : Graphic c) :
    isBlank c = false ∧ isWhitespace c = false := by
  obtain ⟨low, high⟩ := graphic
  constructor
  · simp only [isBlank, Bool.or_eq_false_iff, beq_eq_false_iff_ne, ne_eq]
    refine ⟨⟨⟨?_, ?_⟩, ?_⟩, ?_⟩
    all_goals
      rintro rfl
      revert low
      decide
  · simp only [isWhitespace, Bool.or_eq_false_iff, Bool.and_eq_false_iff, decide_eq_false_iff_not,
      beq_eq_false_iff_ne, ne_eq]
    omega

theorem value_trimmed {v : Value} (printed : v.Printed) :
    trimBlank v.toText.toList = v.toText.toList ∧ trim v.toText = v.toText ∧
      isEmpty v.toText = false := by
  obtain ⟨filled, first, last⟩ := compact_ends printed
  have chars : v.toText.toList = compact v := String.toList_ofList
  refine ⟨?_, ?_, ?_⟩
  · rw [chars]
    exact trimBlank_eq (fun c mem => (graphic_visible (first c mem)).1)
      fun c mem => (graphic_visible (last c mem)).1
  · rw [trim_whole_iff, chars]
    exact ⟨fun c mem => (graphic_visible (first c mem)).2,
      fun c mem => (graphic_visible (last c mem)).2⟩
  · rw [isEmpty, chars, List.isEmpty_eq_false_iff]
    exact filled

theorem streamed_value {v : Value} (printed : v.Printed) :
    streamed (.text v.toText) = [.text (.ok v.toText)] := by
  obtain ⟨kept, _, filled⟩ := value_trimmed printed
  rw [isEmpty] at filled
  rw [streamed, kept, filled, String.ofList_toList]
  rfl

theorem nilTag_read (name : String) (reason : NilReason) :
    (writtenTag name [("xsi:nil", "true"), ("nilReason", reason.asStr)]).isXsiNil = true ∧
      (writtenTag name [("xsi:nil", "true"), ("nilReason", reason.asStr)]).nilReason = reason := by
  have qualified : localName "xsi:nil" = "nil" := by decide +kernel
  have bare : localName "nilReason" = "nilReason" := by decide +kernel
  constructor
  · simp [XmlTag.isXsiNil, writtenTag, qualified, Except.toOption]
  · simp [XmlTag.nilReason, writtenTag, qualified, bare, Except.toOption, NilReason.fromStr_asStr]

variable {lib : WireLibraries} (inExchange : Bool) (instances : List MimInstance)

theorem writtenProperties_single (p : PropertyValue) : writtenProperties [p] =
    if p.value.isAbsent then [] else [{ name := p.name, value := p.value }] := by
  unfold writtenProperties
  cases shape : p.value.isAbsent with
  | true => simp [shape]
  | false => simp [shape]

theorem nilProperty_read {name : String} (own : localName name = name) (reason : NilReason)
    (classTag : String) (inst : MimInstance) :
    instanceStep lib inExchange instances classTag inst
        (.empty (writtenTag name [("xsi:nil", "true"), ("nilReason", reason.asStr)])) =
      .inInstance inExchange instances classTag
        (inst.pushProperty { name := name, value := .nil reason }) := by
  obtain ⟨isNil, same⟩ := nilTag_read name reason
  have tagName : localName
    (writtenTag name [("xsi:nil", "true"), ("nilReason", reason.asStr)]).name = name := own
  rw [instanceStep, parsePropertyAttributes, isNil, same, tagName, if_pos rfl]

theorem valueProperty_read {name : String} (own : localName name = name) {v : Value}
    (printed : v.Printed) (parsed : lib.parseValue v.toText = .ok v) (classTag : String)
    (inst : MimInstance) :
    [XmlEvent.start (writtenTag name []), .text (.ok v.toText), .finish name].foldlM
        (ReaderState.readEvent lib) (.inInstance inExchange instances classTag inst) =
      .ok (.inInstance inExchange instances classTag
        (inst.pushProperty { name := name, value := .value v })) := by
  obtain ⟨_, whole, filled⟩ := value_trimmed printed
  have kept : (some v.toText).filter (fun text => !isEmpty text) = some v.toText := by
    simp [Option.filter, filled]
  have present : (writtenTag name []).isXsiNil = false := rfl
  have same : localName name = localName (writtenTag name []).name := rfl
  have closed : propertyStep lib inExchange instances classTag inst (writtenTag name [])
      ("" ++ v.toText) (.finish name) = .inInstance inExchange instances classTag
        (inst.pushProperty { name := name, value := .value v }) := by
    rw [propertyStep, if_pos same, ← same, own, String.empty_append, whole,
      parsePropertyAttributes, present, kept]
    simp only [Bool.false_eq_true, if_false, parsed]
    rfl
  exact congrArg Except.ok closed

theorem property_read {p : PropertyValue} (named : sanitizeXmlName p.name = .ok p.name)
    (texts : ∀ v, p.value = .value v → v.Printed ∧ lib.parseValue v.toText = .ok v)
    (classTag : String) (inst : MimInstance) :
    ((propertyEvents p).flatMap streamed).foldlM (ReaderState.readEvent lib)
        (.inInstance inExchange instances classTag inst) =
      .ok (.inInstance inExchange instances classTag
        { inst with properties := inst.properties ++ writtenProperties [p] }) := by
  have own := localName_sanitized named
  rw [writtenProperties_single, propertyEvents]
  cases shape : p.value with
  | absent =>
    have same : inst.properties ++ [] = inst.properties := List.append_nil _
    simp only [Nillable.isAbsent, if_true, same]
    rfl
  | nil reason => exact congrArg Except.ok (nilProperty_read inExchange instances own reason _ _)
  | value v =>
    obtain ⟨printed, parsed⟩ := texts v shape
    have events : [Event.start p.name [], .text v.toText, .finish p.name].flatMap streamed =
        [.start (writtenTag p.name []), .text (.ok v.toText), .finish p.name] := by
      simp only [List.flatMap_cons, streamed_value printed, List.flatMap_nil]
      rfl
    rw [events]
    exact valueProperty_read inExchange instances own printed parsed classTag inst

theorem properties_read {properties : List PropertyValue}
    (named : ∀ p ∈ properties, sanitizeXmlName p.name = .ok p.name)
    (texts : ∀ p ∈ properties, ∀ v, p.value = .value v →
      v.Printed ∧ lib.parseValue v.toText = .ok v) (classTag : String) (inst : MimInstance) :
    ((properties.flatMap propertyEvents).flatMap streamed).foldlM (ReaderState.readEvent lib)
        (.inInstance inExchange instances classTag inst) =
      .ok (.inInstance inExchange instances classTag
        { inst with properties := inst.properties ++ writtenProperties properties }) := by
  induction properties generalizing inst with
  | nil =>
    have none : writtenProperties [] = [] := rfl
    rw [none, List.append_nil]
    rfl
  | cons p rest ih =>
    have first := property_read inExchange instances (named p List.mem_cons_self)
      (texts p List.mem_cons_self) classTag inst
    have later := ih (fun q mem => named q (List.mem_cons_of_mem p mem))
      (fun q mem => texts q (List.mem_cons_of_mem p mem))
      { inst with properties := inst.properties ++ writtenProperties [p] }
    have joined : writtenProperties (p :: rest) =
        writtenProperties [p] ++ writtenProperties rest := by
      rw [writtenProperties, ← List.singleton_append, List.filter_append, List.map_append]
      rfl
    rw [List.flatMap_cons, List.flatMap_append, List.foldlM_append, joined,
      ← List.append_assoc]
    exact bind_ok.mpr ⟨_, first, later⟩

def ObjectIdentifier.Visible (oid : ObjectIdentifier) : Prop :=
  ∃ c ∈ oid.text.toList, isWhitespace c = false

theorem objectIdentifier_new_iff (value : String) (oid : ObjectIdentifier) :
    ObjectIdentifier.new value = .ok oid ↔ oid.Visible ∧ oid.text = value := by
  unfold ObjectIdentifier.new
  constructor
  · intro made
    split at made
    · cases made
    · rename_i filled
      obtain rfl := Except.ok.inj made
      exact ⟨(trim_nonempty_iff value).mp (Bool.eq_false_iff.mpr filled), rfl⟩
  · intro kept
    obtain ⟨visible, same⟩ := kept
    subst same
    rw [(trim_nonempty_iff oid.text).mpr visible]
    rfl

def fragmentTag (i : MimInstance) : XmlTag :=
  writtenTag i.className [("oid", i.oid.text), ("semanticId", i.classSemanticId.asStr)]

theorem fragmentTag_attributes (i : MimInstance) : (fragmentTag i).isInstanceStart = true ∧
    (fragmentTag i).requiredAttribute "oid" = .ok i.oid.text ∧
      (fragmentTag i).requiredAttribute "semanticId" = .ok i.classSemanticId.asStr := by
  have oid : localName "oid" = "oid" := by decide +kernel
  have semanticId : localName "semanticId" = "semanticId" := by decide +kernel
  refine ⟨?_, ?_, ?_⟩
  · simp [XmlTag.isInstanceStart, fragmentTag, writtenTag, oid]
  · simp [XmlTag.requiredAttribute, fragmentTag, writtenTag, oid, Except.mapError]
  · simp [XmlTag.requiredAttribute, fragmentTag, writtenTag, oid, semanticId, Except.mapError]

theorem parseInstanceAttributes_fragment {i : MimInstance} (named : i.XmlNamed)
    (texts : TextsRead lib i) (inst : MimInstance) :
    parseInstanceAttributes lib (fragmentTag i) = .ok inst ↔
      i.oid.Visible ∧ inst = .new i.className i.classSemanticId i.oid := by
  obtain ⟨_, oid, semanticRaw⟩ := fragmentTag_attributes i
  have semanticId : parseSemanticId lib i.classSemanticId.asStr = .ok i.classSemanticId := by
    rw [parseSemanticId, semanticId_asStr_trimmed, texts.semanticId]
  have name : localName (fragmentTag i).name = i.className := localName_sanitized named.className
  constructor
  · intro parsed
    obtain ⟨oidText, oid', parsed⟩ := bind_ok.mp parsed
    obtain ⟨raw, raw', parsed⟩ := bind_ok.mp parsed
    obtain ⟨id, id', parsed⟩ := bind_ok.mp parsed
    obtain ⟨made, new, parsed⟩ := bind_ok.mp parsed
    obtain rfl := Except.ok.inj (oid.symm.trans oid')
    obtain rfl := Except.ok.inj (semanticRaw.symm.trans raw')
    obtain rfl := Except.ok.inj (semanticId.symm.trans ((mapError_ok _ _ _).mp id'))
    obtain ⟨visible, same⟩ := (objectIdentifier_new_iff _ _).mp new
    obtain rfl : made = i.oid := congrArg ObjectIdentifier.mk same
    rw [name] at parsed
    exact ⟨visible, (pure_ok.mp parsed).symm⟩
  · intro kept
    obtain ⟨visible, same⟩ := kept
    rw [same, ← name]
    exact bind_ok.mpr ⟨_, oid, bind_ok.mpr ⟨_, semanticRaw, bind_ok.mpr ⟨_,
      (mapError_ok _ _ _).mpr semanticId, bind_ok.mpr ⟨_,
        (objectIdentifier_new_iff _ _).mpr ⟨visible, rfl⟩, rfl⟩⟩⟩⟩

theorem fragment_opened {i : MimInstance} (named : i.XmlNamed) :
    ReaderState.readEvent lib (.outside inExchange instances) (.start (fragmentTag i)) =
      parseInstanceAttributes lib (fragmentTag i) >>= fun inst =>
        pure (.inInstance inExchange instances i.className inst) := by
  have tagName : localName (fragmentTag i).name = i.className :=
    localName_sanitized named.className
  rw [ReaderState.readEvent, outsideStep, tagName, if_neg named.notExchange,
    (fragmentTag_attributes i).1, Bool.or_true, if_pos rfl]

theorem fragment_inside {i : MimInstance} (named : i.XmlNamed) (texts : TextsRead lib i) :
    ((i.properties.flatMap propertyEvents).flatMap streamed ++
      [XmlEvent.finish i.className]).foldlM (ReaderState.readEvent lib)
        (.inInstance inExchange instances i.className
          (.new i.className i.classSemanticId i.oid)) =
      .ok (.outside inExchange (instances ++ [i.asWritten])) := by
  have inner := properties_read inExchange instances named.properties texts.value i.className
    (.new i.className i.classSemanticId i.oid)
  have closed : instanceStep lib inExchange instances i.className i.asWritten
      (.finish i.className) = .outside inExchange (instances ++ [i.asWritten]) := by
    rw [instanceStep, if_pos (localName_sanitized named.className)]
  rw [List.foldlM_append]
  exact bind_ok.mpr ⟨_, inner, congrArg Except.ok closed⟩

theorem fragment_read_iff {i : MimInstance} (named : i.XmlNamed) (texts : TextsRead lib i)
    (next : ReaderState) :
    ((fragmentOf i).flatMap streamed).foldlM (ReaderState.readEvent lib)
        (.outside inExchange instances) = .ok next ↔
      i.oid.Visible ∧ next = .outside inExchange (instances ++ [i.asWritten]) := by
  have events : (fragmentOf i).flatMap streamed = .start (fragmentTag i) ::
      ((i.properties.flatMap propertyEvents).flatMap streamed ++ [.finish i.className]) := by
    rw [fragmentOf, List.cons_append, List.flatMap_cons, List.flatMap_append]
    rfl
  have inside := fragment_inside inExchange instances named texts
  rw [events, List.foldlM_cons, fragment_opened inExchange instances named]
  constructor
  · intro ran
    obtain ⟨_, begun, ran⟩ := bind_ok.mp ran
    obtain ⟨inst, parsed, begun⟩ := bind_ok.mp begun
    obtain ⟨visible, rfl⟩ := (parseInstanceAttributes_fragment named texts inst).mp parsed
    obtain rfl := pure_ok.mp begun
    exact ⟨visible, Except.ok.inj (ran.symm.trans inside)⟩
  · intro kept
    obtain ⟨visible, same⟩ := kept
    rw [same]
    have parsed := (parseInstanceAttributes_fragment named texts _).mpr ⟨visible, rfl⟩
    exact bind_ok.mpr ⟨_, bind_ok.mpr ⟨_, parsed, rfl⟩, inside⟩

theorem fragments_read_iff {items : List MimInstance} (named : ∀ i ∈ items, i.XmlNamed)
    (texts : ∀ i ∈ items, TextsRead lib i) (next : ReaderState) :
    ((items.flatMap fragmentOf).flatMap streamed).foldlM (ReaderState.readEvent lib)
        (.outside inExchange instances) = .ok next ↔
      (∀ i ∈ items, i.oid.Visible) ∧
        next = .outside inExchange (instances ++ items.map MimInstance.asWritten) := by
  induction items generalizing instances with
  | nil =>
    rw [List.map_nil, List.append_nil]
    constructor
    · intro ran
      exact ⟨fun i mem => absurd mem List.not_mem_nil, (Except.ok.inj ran).symm⟩
    · intro kept
      obtain ⟨_, same⟩ := kept
      rw [same]
      rfl
  | cons i rest ih =>
    have first := fragment_read_iff inExchange instances (named i List.mem_cons_self)
      (texts i List.mem_cons_self)
    have later := ih (instances ++ [i.asWritten])
      (fun j mem => named j (List.mem_cons_of_mem i mem))
      fun j mem => texts j (List.mem_cons_of_mem i mem)
    have joined : instances ++ (i :: rest).map MimInstance.asWritten =
        instances ++ [i.asWritten] ++ rest.map MimInstance.asWritten := by
      rw [List.append_assoc]
      rfl
    rw [List.flatMap_cons, List.flatMap_append, List.foldlM_append, joined]
    constructor
    · intro ran
      obtain ⟨between, ran, rest⟩ := bind_ok.mp ran
      obtain ⟨visible, rfl⟩ := (first between).mp ran
      obtain ⟨others, same⟩ := later.mp rest
      exact ⟨List.forall_mem_cons.mpr ⟨visible, others⟩, same⟩
    · intro kept
      obtain ⟨visible, same⟩ := kept
      obtain ⟨here, others⟩ := List.forall_mem_cons.mp visible
      exact bind_ok.mpr ⟨_, (first _).mpr ⟨here, rfl⟩, later.mpr ⟨others, same⟩⟩

theorem storeDocument_opened (items : List MimInstance) :
    ((storeDocument items).flatMap streamed).foldlM (ReaderState.readEvent lib)
        (.outside false []) =
      ((items.flatMap fragmentOf).flatMap streamed ++
        [XmlEvent.finish "mim:Exchange"]).foldlM (ReaderState.readEvent lib)
          (.outside true []) := by
  have events : (storeDocument items).flatMap streamed =
      .other :: .start (writtenTag "mim:Exchange" exchangeAttributes) ::
        ((items.flatMap fragmentOf).flatMap streamed ++ [.finish "mim:Exchange"]) := by
    rw [storeDocument, List.cons_append, List.cons_append, List.flatMap_cons, List.flatMap_cons,
      List.flatMap_append]
    rfl
  have prolog : ReaderState.readEvent lib (.outside false []) .other =
    pure (.outside false []) := rfl
  have opened : ReaderState.readEvent lib (.outside false [])
      (.start (writtenTag "mim:Exchange" exchangeAttributes)) = .ok (.outside true []) := by
    have name : localName (writtenTag "mim:Exchange" exchangeAttributes).name = "Exchange" := by
      decide +kernel
    rw [ReaderState.readEvent, outsideStep, name, if_pos rfl]
    rfl
  rw [events, List.foldlM_cons, prolog, pure_bind, List.foldlM_cons, opened]
  rfl

end Read

section RoundTrip

/-- What comes back of an instance. -/
structure Restores (i j : MimInstance) : Prop where
  oid : j.oid = i.oid
  className : j.className = i.className
  classSemanticId : j.classSemanticId = i.classSemanticId
  properties : j.properties.map (fun p => (p.name, p.value)) =
    (i.properties.filter fun p => !p.value.isAbsent).map fun p => (p.name, p.value)

theorem asWritten_restores (i : MimInstance) : Restores i i.asWritten := by
  refine ⟨rfl, rfl, rfl, ?_⟩
  simp [MimInstance.asWritten, writtenProperties]

variable [MarkupEscape]

/-- The reader reports what was written. -/
def StreamsBack (lib : WireLibraries) (document : List Event) : Prop :=
  lib.readXml (.ofList (renderEvents document)) = ⟨document.flatMap streamed, none⟩

variable {lib : WireLibraries}

theorem instanceDocument_read_iff {i : MimInstance} (named : i.XmlNamed) (texts : TextsRead lib i)
    (streams : StreamsBack lib (instanceDocument i)) (read : List MimInstance) :
    parseXmlInstances lib (.ofList (renderEvents (instanceDocument i))) = .ok read ↔
      i.oid.Visible ∧ read = [i.asWritten] := by
  have declared : ((instanceDocument i).flatMap streamed).foldlM (ReaderState.readEvent lib)
      (.outside false []) = ((fragmentOf i).flatMap streamed).foldlM (ReaderState.readEvent lib)
        (.outside false []) := rfl
  rw [parseXmlInstances_ok, streams]
  dsimp only
  rw [declared]
  constructor
  · intro parsed
    obtain ⟨_, _, inExchange, ran⟩ := parsed
    obtain ⟨visible, same⟩ := (fragment_read_iff _ _ named texts _).mp ran
    exact ⟨visible, (ReaderState.outside.inj same).2⟩
  · intro kept
    obtain ⟨visible, same⟩ := kept
    rw [same]
    exact ⟨rfl, List.cons_ne_nil _ _, false, (fragment_read_iff _ _ named texts _).mpr ⟨visible, rfl⟩⟩

theorem storeDocument_read_iff {items : List MimInstance} (filled : items ≠ [])
    (named : ∀ i ∈ items, i.XmlNamed) (texts : ∀ i ∈ items, TextsRead lib i)
    (streams : StreamsBack lib (storeDocument items)) (read : List MimInstance) :
    parseXmlInstances lib (.ofList (renderEvents (storeDocument items))) = .ok read ↔
      (∀ i ∈ items, i.oid.Visible) ∧ read = items.map MimInstance.asWritten := by
  rw [parseXmlInstances_ok, streams]
  dsimp only
  rw [storeDocument_opened, List.foldlM_append]
  constructor
  · intro parsed
    obtain ⟨_, _, inExchange, ran⟩ := parsed
    obtain ⟨between, ran, last⟩ := bind_ok.mp ran
    obtain ⟨visible, rfl⟩ := (fragments_read_iff _ _ named texts _).mp ran
    exact ⟨visible, (ReaderState.outside.inj (Except.ok.inj last)).2.symm⟩
  · intro kept
    obtain ⟨visible, same⟩ := kept
    rw [same]
    refine ⟨rfl, fun empty => filled (List.map_eq_nil_iff.mp empty), true, ?_⟩
    exact bind_ok.mpr ⟨_, (fragments_read_iff _ _ named texts _).mpr ⟨visible, rfl⟩, rfl⟩

variable (s : Serializer)

theorem instance_round_trip_iff {i : MimInstance} (named : i.XmlNamed) (texts : TextsRead lib i)
    (streams : StreamsBack lib (instanceDocument i)) :
    (∃ text j, s.serializeInstance lib i .xml = .ok text ∧
      deserializeInstance lib text .xml = .ok j ∧ Restores i j) ↔ i.oid.Visible := by
  constructor
  · intro restored
    obtain ⟨text, j, written, read, _⟩ := restored
    obtain rfl := Except.ok.inj ((serializeInstance_named s lib named).symm.trans written)
    obtain ⟨rest, parsed⟩ := deserializeInstance_xml_ok.mp read
    exact ((instanceDocument_read_iff named texts streams _).mp parsed).1
  · intro visible
    have parsed := (instanceDocument_read_iff named texts streams _).mpr ⟨visible, rfl⟩
    exact ⟨_, _, serializeInstance_named s lib named,
      deserializeInstance_xml_ok.mpr ⟨[], parsed⟩, asWritten_restores i⟩

theorem store_round_trip_iff {lib : ExchangeLibraries} {store : InstanceStore}
    (filled : store.values ≠ []) (named : ∀ i ∈ store.values, i.XmlNamed)
    (texts : ∀ i ∈ store.values, TextsRead lib.toWireLibraries i)
    (streams : StreamsBack lib.toWireLibraries (storeDocument store.values)) :
    (∃ text read, s.serializeStore lib store .xml = .ok text ∧
      deserializeStore lib text .xml = .ok read ∧ List.Forall₂ Restores store.values read) ↔
        ∀ i ∈ store.values, i.oid.Visible := by
  constructor
  · intro restored
    obtain ⟨text, read, written, parsed, _⟩ := restored
    obtain rfl := Except.ok.inj ((serializeStore_named s lib named).symm.trans written)
    exact ((storeDocument_read_iff filled named texts streams _).mp parsed).1
  · intro visible
    refine ⟨_, _, serializeStore_named s lib named,
      (storeDocument_read_iff filled named texts streams _).mpr ⟨visible, rfl⟩, ?_⟩
    exact List.forall₂_map_right_iff.mpr (List.forall₂_same.mpr fun i _ => asWritten_restores i)

/-- XML brings instances back, one or a store of them, exactly when no identifier is blank. -/
theorem xml_exchange_iff (lib : ExchangeLibraries) :
    (∀ i : MimInstance, i.XmlNamed → TextsRead lib.toWireLibraries i →
      StreamsBack lib.toWireLibraries (instanceDocument i) →
        ((∃ text j, s.serializeInstance lib.toWireLibraries i .xml = .ok text ∧
          deserializeInstance lib.toWireLibraries text .xml = .ok j ∧ Restores i j) ↔
            i.oid.Visible)) ∧
    ∀ store : InstanceStore, store.values ≠ [] → (∀ i ∈ store.values, i.XmlNamed) →
      (∀ i ∈ store.values, TextsRead lib.toWireLibraries i) →
        StreamsBack lib.toWireLibraries (storeDocument store.values) →
          ((∃ text read, s.serializeStore lib store .xml = .ok text ∧
            deserializeStore lib text .xml = .ok read ∧
              List.Forall₂ Restores store.values read) ↔ ∀ i ∈ store.values, i.oid.Visible) :=
  ⟨fun _ named texts streams => instance_round_trip_iff s named texts streams,
    fun _ filled named texts streams => store_round_trip_iff s filled named texts streams⟩

end RoundTrip

section Fixtures

def exchangedUnit (oid : String) : MimInstance :=
  { MimInstance.new "Unit" ⟨0x00000000000040008000000000000001⟩ ⟨oid⟩ with
    properties := [
      { name := "nameText", value := .value (.string "a<b") },
      { name := "Unit", value := .nil .withheld },
      { name := "strength", value := .absent }] }

def prettyPayload (p : ExchangePayload) : String :=
  (Value.object [("modelVersion", .string p.modelVersion),
    ("instances", .array (p.instances.map instanceValue))]).toPrettyText

def prettyJsonLdPayload (p : JsonLdExchangePayload) : String :=
  (Value.object [("@context", .string p.context), ("model_version", .string p.modelVersion),
    ("instances", .array (p.instances.map instanceValue))]).toPrettyText

def librariesFor [MarkupEscape] (document : List Event) : ExchangeLibraries where
  readXml data :=
    if data = .ofList (renderEvents document) then ⟨document.flatMap streamed, none⟩
    else ⟨[], some "syntax error"⟩
  parseUuid s :=
    if s = "00000000-0000-4000-8000-000000000001" then some 0x00000000000040008000000000000001
    else none
  prettyInstance i := (instanceValue i).toPrettyText
  prettyValue v := v.toPrettyText
  parseValue text :=
    if text = "\"a<b\"" then .ok (.string "a<b") else .error "expected value"
  parseInstance _ := .error "expected value"
  instanceOfValue _ := .error "invalid type"
  prettyExchange := prettyPayload
  prettyJsonLdExchange := prettyJsonLdPayload
  parseExchange _ := .error "expected value"
  parseJsonLdExchange _ := .error "expected value"

theorem exchangedUnit_named (oid : String) : (exchangedUnit oid).XmlNamed := by
  have className : sanitizeXmlName "Unit" = .ok "Unit" := by decide +kernel
  have notExchange : "Unit" ≠ "Exchange" := by decide
  refine ⟨className, notExchange, ?_⟩
  intro p mem
  simp only [exchangedUnit, List.mem_cons, List.not_mem_nil, or_false] at mem
  rcases mem with rfl | rfl | rfl
  all_goals decide +kernel

theorem exchangedUnit_texts [MarkupEscape] (document : List Event) (oid : String) :
    TextsRead (librariesFor document).toWireLibraries (exchangedUnit oid) := by
  have text : (SemanticId.mk 0x00000000000040008000000000000001).asStr =
      "00000000-0000-4000-8000-000000000001" := by decide
  refine ⟨if_pos text, ?_⟩
  intro p mem v shape
  simp only [exchangedUnit, List.mem_cons, List.not_mem_nil, or_false] at mem
  rcases mem with rfl | rfl | rfl
  · obtain rfl := Nillable.value.inj shape
    refine ⟨trivial, ?_⟩
    have text : (Value.string "a<b").toText = "\"a<b\"" := by decide
    rw [text]
    rfl
  · cases shape
  · cases shape

theorem librariesFor_streams [MarkupEscape] (document : List Event) :
    StreamsBack (librariesFor document).toWireLibraries document := if_pos rfl

theorem exchangedUnit_round_trip : letI := entityEscape
    let s : Serializer := ⟨"5.1.0"⟩
    let one := librariesFor (instanceDocument (exchangedUnit "a"))
    let store := InstanceStore.empty.insert (exchangedUnit "a") |>.insert (exchangedUnit "b")
    let all := librariesFor (storeDocument store.values)
    (∃ text j, s.serializeInstance one.toWireLibraries (exchangedUnit "a") .xml = .ok text ∧
      deserializeInstance one.toWireLibraries text .xml = .ok j ∧ Restores (exchangedUnit "a") j) ∧
    ∃ text read, s.serializeStore all store .xml = .ok text ∧
      deserializeStore all text .xml = .ok read ∧ List.Forall₂ Restores store.values read := by
  let : MarkupEscape := entityEscape
  intro s one store all
  have stored : store.values = [exchangedUnit "a", exchangedUnit "b"] := rfl
  have visible : ∀ oid ∈ ["a", "b"], (exchangedUnit oid).oid.Visible := by
    intro oid listed
    simp only [List.mem_cons, List.not_mem_nil, or_false] at listed
    rcases listed with rfl | rfl
    · exact ⟨'a', by decide, by decide⟩
    · exact ⟨'b', by decide, by decide⟩
  have units : ∀ i ∈ store.values, ∃ oid ∈ ["a", "b"], i = exchangedUnit oid := by
    rw [stored]
    simp
  refine ⟨((xml_exchange_iff s one).1 (exchangedUnit "a") (exchangedUnit_named "a")
    (exchangedUnit_texts _ "a") (librariesFor_streams _)).mpr (visible "a" (by decide)),
    ((xml_exchange_iff s all).2 store ?_ ?_ ?_ (librariesFor_streams _)).mpr ?_⟩
  · rw [stored]
    exact List.cons_ne_nil _ _
  · intro i mem
    obtain ⟨oid, _, rfl⟩ := units i mem
    exact exchangedUnit_named oid
  · intro i mem
    obtain ⟨oid, _, rfl⟩ := units i mem
    exact exchangedUnit_texts _ oid
  · intro i mem
    obtain ⟨oid, listed, rfl⟩ := units i mem
    exact visible oid listed

/-- A blank identifier is written and then refused. -/
theorem blank_oid_lost : letI := entityEscape
    let i := exchangedUnit " "
    let lib := (librariesFor (instanceDocument i)).toWireLibraries
    i.XmlNamed ∧ TextsRead lib i ∧ StreamsBack lib (instanceDocument i) ∧
      validateSerializedInstance i = .ok () ∧
      ¬ ∃ text j, Serializer.serializeInstance lib ⟨"5.1.0"⟩ i .xml = .ok text ∧
        deserializeInstance lib text .xml = .ok j ∧ Restores i j := by
  let : MarkupEscape := entityEscape
  intro i lib
  have named := exchangedUnit_named " "
  have texts := exchangedUnit_texts (instanceDocument i) " "
  have streams := librariesFor_streams (instanceDocument i)
  refine ⟨named, texts, streams, ?_, ?_⟩
  · rw [validateSerializedInstance_ok]
    refine ⟨by decide, by decide, ?_⟩
    intro p mem
    simp only [i, exchangedUnit, List.mem_cons, List.not_mem_nil, or_false] at mem
    rcases mem with rfl | rfl | rfl
    all_goals decide
  · rw [instance_round_trip_iff ⟨"5.1.0"⟩ named texts streams]
    intro seen
    obtain ⟨c, mem, visible⟩ := seen
    have blank : c = ' ' := List.mem_singleton.mp mem
    rw [blank] at visible
    revert visible
    decide

end Fixtures

end MimRuntime
