import MimStack.Serializer
import MimStack.Stanag4778
import MimStack.Transport.Secured

/-!
Objects put in signed envelopes. An envelope that verifies is unwrapped to the
instance its payload decodes to, and from there on the put is one like any other:
the label it is decided on is the one in the instance's metadata.
-/
namespace MimTransport
open RustText ByteText Fallible MarkupText MimCore MimModel MimRuntime MimRuntime.InstanceStore
open MimLabeling MimSpif MimPolicy MimCrypto MimStanag ExchangeBroker

def TransportError.ofMim : MimError → TransportError
  | .notFound m => .notFound m
  | .serialization m => .serialization m
  | .validation m => .validation m
  | other => .validation other.toString

inductive WirePayloadFormat where
  | json
  | xml
  | jsonLd
  deriving DecidableEq

def WirePayloadFormat.serializationFormat : WirePayloadFormat → SerializationFormat
  | .json => .json
  | .xml => .xml
  | .jsonLd => .jsonLd

def detectPayloadFormat (payload : String) : WirePayloadFormat :=
  let trimmed := trimStartMatches isWhitespace payload
  if startsWith "<" trimmed then .xml
  else if startsWith "\x7b" trimmed && contains "@context" trimmed then .jsonLd
  else .json

theorem detect_markup (rest : List Char) :
    detectPayloadFormat (.ofList ('<' :: rest)) = .xml := by
  have kept : trimStartMatches isWhitespace (.ofList ('<' :: rest)) = .ofList ('<' :: rest) :=
    trimStartMatches_kept String.toList_ofList (by decide)
  have opened : startsWith "<" (.ofList ('<' :: rest)) = true := by
    simp [startsWith]
  simp only [detectPayloadFormat, kept, opened, if_true]

def formatFromContentType (contentType : String) : Option WirePayloadFormat :=
  let mime := toAsciiLowercase (trim ((split (· == ';') contentType).headD ""))
  if mime ∈ ["application/mim+xml", "application/xml", "text/xml"] then some .xml
  else if mime = "application/ld+json" then some .jsonLd
  else if mime ∈ ["application/mim+json", "application/json"] then some .json
  else none

def wireSerializer : Serializer := ⟨"5.1.0"⟩

section Envelopes

variable [MarkupEscape] (P : CryptoProvider) (lib : WireLibraries)

def wrapPutObjectWithFormat (label : ConfidentialityLabel) (request : PutObjectRequest)
    (signingKey : SigningKey) (format : WirePayloadFormat) : Except LabelError RestEnvelope := do
  let payload ← (wireSerializer.serializeInstance lib request.inst
    format.serializationFormat).mapError fun e => .serialization e.toString
  RestEnvelope.wrap P label (utf8 payload) signingKey

def wrapPutObject (label : ConfidentialityLabel) (request : PutObjectRequest)
    (signingKey : SigningKey) : Except LabelError RestEnvelope :=
  wrapPutObjectWithFormat P lib label request signingKey .json

def unwrapPutObjectWithFormat (envelope : RestEnvelope) (verifyingKey : VerifyingKey)
    (format : Option WirePayloadFormat) : Except TransportError PutObjectRequest := do
  (envelope.verify P verifyingKey).mapError fun e => .forbidden e.toString
  let format := format.getD (detectPayloadFormat envelope.payload)
  let inst ← (deserializeInstance lib envelope.payload format.serializationFormat).mapError .ofMim
  return ⟨inst⟩

def unwrapPutObject (envelope : RestEnvelope) (verifyingKey : VerifyingKey) :
    Except TransportError PutObjectRequest :=
  unwrapPutObjectWithFormat P lib envelope verifyingKey none

variable {P lib}

theorem detect_written_xml {s : Serializer} {i : MimInstance} {text : String}
    (written : s.serializeInstance lib i .xml = .ok text) :
    detectPayloadFormat text = .xml := by
  obtain ⟨events, _, written⟩ := bind_ok.mp written
  exact pure_ok.mp written ▸ detect_markup _

theorem wrapPutObjectWithFormat_ok_iff {label : ConfidentialityLabel} {request : PutObjectRequest}
    {key : SigningKey} {format : WirePayloadFormat} {e : RestEnvelope} :
    wrapPutObjectWithFormat P lib label request key format = .ok e ↔
      ∃ payload, wireSerializer.serializeInstance lib request.inst format.serializationFormat =
        .ok payload ∧ RestEnvelope.wrap P label (utf8 payload) key = .ok e := by
  constructor
  · intro wrapped
    obtain ⟨payload, written, wrapped⟩ := bind_ok.mp wrapped
    exact ⟨payload, (mapError_ok _ _ _).mp written, wrapped⟩
  · rintro ⟨payload, written, wrapped⟩
    exact bind_ok.mpr ⟨payload, (mapError_ok _ _ _).mpr written, wrapped⟩

theorem unwrapPutObjectWithFormat_ok_iff {e : RestEnvelope} {key : VerifyingKey}
    {format : Option WirePayloadFormat} {request : PutObjectRequest} :
    unwrapPutObjectWithFormat P lib e key format = .ok request ↔
      e.verify P key = .ok () ∧ deserializeInstance lib e.payload
        (format.getD (detectPayloadFormat e.payload)).serializationFormat = .ok request.inst := by
  constructor
  · intro unwrapped
    obtain ⟨verified, unwrapped⟩ := check_ok.mp unwrapped
    obtain ⟨inst, decoded, unwrapped⟩ := bind_ok.mp unwrapped
    obtain rfl := pure_ok.mp unwrapped
    exact ⟨(mapError_ok _ _ _).mp verified, (mapError_ok _ _ _).mp decoded⟩
  · rintro ⟨verified, decoded⟩
    refine check_ok.mpr ⟨(mapError_ok _ _ _).mpr verified, ?_⟩
    exact bind_ok.mpr ⟨request.inst, (mapError_ok _ _ _).mpr decoded, rfl⟩

end Envelopes

section SignedLabel

def Admits (l : ConfidentialityLabel) (country : String) : Prop :=
  l.releasableCountries = [] ∨ country ∈ l.releasableCountries

structure AtLeastAsStrict (used signed : ConfidentialityLabel) : Prop where
  classification : signed.classification ≤ used.classification
  countries : ∀ country, Admits used country → Admits signed country

variable [UnicodeCase] [MarkupEscape] (P : CryptoProvider) (lib : WireLibraries)
variable (R : MarkupReader) (readTime : TimeReader)

def SecuredExchangeBroker.putObjectEnvelopedAs (s : SecuredExchangeBroker)
    (subject : SubjectAttributes) (envelope : RestEnvelope) (verifyingKey : VerifyingKey) :
    Option (Except TransportError PutObjectResponse × SecuredExchangeBroker) :=
  match unwrapPutObject P lib envelope verifyingKey with
  | .error e => some (.error e, s)
  | .ok request => s.putObjectAs subject request

/-- The object was stored under the label its write was decided on, which is as strict as the one
the envelope signs. -/
def StoredUnderSigned (s : SecuredExchangeBroker) (subject : SubjectAttributes) (e : RestEnvelope)
    (response : PutObjectResponse) (after : SecuredExchangeBroker) : Prop :=
  ∃ i used decision signed, after.inner.store.get response.oid = some i ∧
    instanceLabel i = .ok used ∧
    s.pep.enforceAccess subject used .write s.domain = .ok decision ∧
    e.Signs R readTime signed ∧ AtLeastAsStrict used signed

/-- What an envelope and the broker have to satisfy for the put to be carried out. -/
structure EnvelopeAdmitted (s : SecuredExchangeBroker) (subject : SubjectAttributes)
    (e : RestEnvelope) (key : VerifyingKey) (format : WirePayloadFormat) (i : MimInstance) :
    Prop where
  verified : e.verify P key = .ok ()
  decoded : deserializeInstance lib e.payload format.serializationFormat = .ok i
  permitted : ∃ d, s.authorize subject i .write = .ok d
  valid : validatePut s.inner.registry i = some (.ok ())

/-- The signed text encodes a label, and the label in the payload is as strict. -/
def LabelsConsistent (e : RestEnvelope) (format : WirePayloadFormat) : Prop :=
  ∀ i used, deserializeInstance lib e.payload format.serializationFormat = .ok i →
    instanceLabel i = .ok used → ∃ signed, e.Signs R readTime signed ∧ AtLeastAsStrict used signed

variable {P lib R readTime} {s : SecuredExchangeBroker} {subject : SubjectAttributes}

omit [MarkupEscape] in
theorem putObjectAs_ok_iff {i : MimInstance} {response : PutObjectResponse}
    {after : SecuredExchangeBroker} :
    s.putObjectAs subject ⟨i⟩ = some (.ok response, after) ↔
      (∃ d, s.authorize subject i .write = .ok d) ∧
        validatePut s.inner.registry i = some (.ok ()) ∧
        response = ⟨i.oid, !s.inner.storeContains i.oid⟩ ∧
        after = s.withInner (s.inner.commitPut i) := by
  constructor
  · intro ran
    rcases putObjectAs_cases s subject ⟨i⟩ _ _ ran with ⟨⟨e, failed⟩, _⟩ | ⟨permitted, valid, _⟩
    · cases failed
    · have accepted := putObjectAs_accepted s subject i (isOk_iff.mpr permitted) valid
      obtain ⟨answer, rfl⟩ := Prod.mk.inj (Option.some.inj (ran.symm.trans accepted))
      exact ⟨permitted, valid, Except.ok.inj answer, rfl⟩
  · rintro ⟨permitted, valid, rfl, rfl⟩
    exact putObjectAs_accepted s subject i (isOk_iff.mpr permitted) valid

theorem storedUnderSigned_iff {e : RestEnvelope} {i : MimInstance} {response : PutObjectResponse}
    {after : SecuredExchangeBroker}
    (ran : s.putObjectAs subject ⟨i⟩ = some (.ok response, after)) :
    StoredUnderSigned R readTime s subject e response after ↔ ∀ used, instanceLabel i = .ok used →
      ∃ signed, e.Signs R readTime signed ∧ AtLeastAsStrict used signed := by
  obtain ⟨⟨d, permitted⟩, _, rfl, rfl⟩ := putObjectAs_ok_iff.mp ran
  have stored : (s.withInner (s.inner.commitPut i)).inner.store.get i.oid = some i := by simp
  constructor
  · rintro ⟨j, used, _, signed, found, labelled, _, covered, strict⟩ used' labelled'
    obtain rfl := Option.some.inj (stored.symm.trans found)
    obtain rfl := Except.ok.inj (labelled.symm.trans labelled')
    exact ⟨signed, covered, strict⟩
  · intro strict
    obtain ⟨used, labelled, enforced⟩ := (authorize_ok_iff s subject i .write d).mp permitted
    obtain ⟨signed, covered, bounded⟩ := strict used labelled
    exact ⟨i, used, d, signed, stored, labelled, enforced, covered, bounded⟩

theorem admitted_iff {e : RestEnvelope} {key : VerifyingKey} {format : WirePayloadFormat}
    {i : MimInstance} : EnvelopeAdmitted P lib s subject e key format i ↔
      unwrapPutObjectWithFormat P lib e key (some format) = .ok ⟨i⟩ ∧
        ∃ response after, s.putObjectAs subject ⟨i⟩ = some (.ok response, after) := by
  rw [unwrapPutObjectWithFormat_ok_iff]
  constructor
  · rintro ⟨verified, decoded, permitted, valid⟩
    exact ⟨⟨verified, decoded⟩, _, _, putObjectAs_ok_iff.mpr ⟨permitted, valid, rfl, rfl⟩⟩
  · rintro ⟨⟨verified, decoded⟩, response, after, ran⟩
    obtain ⟨permitted, valid, _⟩ := putObjectAs_ok_iff.mp ran
    exact ⟨verified, decoded, permitted, valid⟩

theorem putObjectEnvelopedAs_ok_iff {e : RestEnvelope} {key : VerifyingKey}
    {response : PutObjectResponse} {after : SecuredExchangeBroker} :
    s.putObjectEnvelopedAs P lib subject e key = some (.ok response, after) ↔
      ∃ i, EnvelopeAdmitted P lib s subject e key (detectPayloadFormat e.payload) i ∧
        s.putObjectAs subject ⟨i⟩ = some (.ok response, after) := by
  have detected : unwrapPutObject P lib e key =
      unwrapPutObjectWithFormat P lib e key (some (detectPayloadFormat e.payload)) := rfl
  unfold SecuredExchangeBroker.putObjectEnvelopedAs
  constructor
  · intro ran
    split at ran
    · cases ran
    · rename_i request unwrapped
      exact ⟨request.inst, admitted_iff.mpr ⟨detected ▸ unwrapped, response, after, ran⟩, ran⟩
  · rintro ⟨i, admitted, ran⟩
    rw [detected, (admitted_iff.mp admitted).1]
    exact ran

theorem stored_iff_consistent {e : RestEnvelope} {key : VerifyingKey} {format : WirePayloadFormat}
    {i : MimInstance} {response : PutObjectResponse} {after : SecuredExchangeBroker}
    (admitted : EnvelopeAdmitted P lib s subject e key format i)
    (ran : s.putObjectAs subject ⟨i⟩ = some (.ok response, after)) :
    StoredUnderSigned R readTime s subject e response after ↔
      LabelsConsistent lib R readTime e format := by
  rw [storedUnderSigned_iff ran]
  constructor
  · intro strict j used decoded labelled
    obtain rfl := Except.ok.inj (admitted.decoded.symm.trans decoded)
    exact strict used labelled
  · intro consistent used labelled
    exact consistent i used admitted.decoded labelled

end SignedLabel

section Fixtures

def wireXml : String :=
  "<?xml version=\"1.0\" encoding=\"UTF-8\"?>" ++
    "<Wire oid=\"a\" semanticId=\"00000000-0000-4000-8000-000000000001\"></Wire>"

def wireTag : XmlTag :=
  ⟨"Wire", [("oid", .ok "a"), ("semanticId", .ok "00000000-0000-4000-8000-000000000001")]⟩

def wireLibraries : WireLibraries where
  readXml data :=
    if data = wireXml then ⟨[.other, .start wireTag, .finish "Wire"], none⟩
    else ⟨[], some "syntax error"⟩
  parseUuid s :=
    if s = "00000000-0000-4000-8000-000000000001" then some 0x00000000000040008000000000000001
    else none
  prettyInstance i := (instanceValue i).toPrettyText
  prettyValue v := v.toPrettyText
  parseValue _ := .error "expected value"
  parseInstance _ := .error "expected value"
  instanceOfValue _ := .error "invalid type"

theorem wireXml_written (security : SecurityClassification) : letI := entityEscape
    wireSerializer.serializeInstance wireLibraries (wireInstance "a" security) .xml =
      .ok wireXml := by
  let : MarkupEscape := entityEscape
  have written : (wireSerializer.serializeInstance wireLibraries (wireInstance "a" {}) .xml) =
      .ok wireXml := by
    decide +kernel
  exact written

theorem wireXml_read :
    deserializeInstance wireLibraries wireXml .xml = .ok (wireInstance "a" {}) := by
  have stream : wireLibraries.readXml wireXml =
      ⟨[.other, .start wireTag, .finish "Wire"], none⟩ := by
    simp only [wireLibraries, if_true]
  have parsed : parseInstanceAttributes wireLibraries wireTag = .ok (wireInstance "a" {}) := by
    have oid : wireTag.requiredAttribute "oid" = .ok "a" := by decide +kernel
    have raw : wireTag.requiredAttribute "semanticId" =
        .ok "00000000-0000-4000-8000-000000000001" := by
      decide +kernel
    have semanticId : parseSemanticId wireLibraries "00000000-0000-4000-8000-000000000001" =
        .ok ⟨0x00000000000040008000000000000001⟩ := by
      decide +kernel
    refine bind_ok.mpr ⟨_, oid, bind_ok.mpr ⟨_, raw, bind_ok.mpr ⟨_, ?_, rfl⟩⟩⟩
    exact (mapError_ok _ _ _).mpr semanticId
  refine deserializeInstance_xml_ok.mpr ⟨[], parseXmlInstances_ok.mpr ?_⟩
  rw [stream]
  refine ⟨rfl, List.cons_ne_nil _ _, false, ?_⟩
  have opened : outsideStep wireLibraries false [] (.start wireTag) =
      .ok (.inInstance false [] "Wire" (wireInstance "a" {})) := by
    have name : localName wireTag.name = "Wire" := by decide +kernel
    have instanceStart : wireTag.isInstanceStart = true := by decide +kernel
    have other : "Wire" ≠ "Exchange" := by decide
    simp only [outsideStep, name, if_neg other, instanceStart, Bool.or_true, if_true]
    exact bind_ok.mpr ⟨_, parsed, rfl⟩
  have closed : instanceStep wireLibraries false [] "Wire" (wireInstance "a" {}) (.finish "Wire") =
      .outside false [wireInstance "a" {}] := by
    have name : localName "Wire" = "Wire" := by decide +kernel
    simp only [instanceStep, name, if_true, List.nil_append]
  exact bind_ok.mpr ⟨_, rfl, bind_ok.mpr ⟨_, opened, bind_ok.mpr ⟨_, congrArg Except.ok closed, rfl⟩⟩⟩

end Fixtures

section XmlPath

/-- What access decisions compare. -/
structure SameControls (a b : ConfidentialityLabel) : Prop where
  policy : a.policy = b.policy
  classification : a.classification = b.classification
  countries : a.releasableCountries = b.releasableCountries

variable [UnicodeCase]

theorem labelFromSecurity_default :
    labelFromSecurity {} = .ok (.new .nato .unclassified) := rfl

theorem labelFromSecurity_level (level : ClassificationLevel) :
    labelFromSecurity { classification := .value level.asStanagStr } = .ok (.new .nato level) := by
  have made : ConfidentialityLabel.fromMimSecurity
      { classification := .value level.asStanagStr } = .ok (.new .nato level) := by
    unfold ConfidentialityLabel.fromMimSecurity
    dsimp only [Nillable.asOption, Option.getD]
    rw [ClassificationLevel.parse_asStanagStr]
    rfl
  rw [labelFromSecurity, made]
  rfl

theorem labelFromSecurity_policy {security : SecurityClassification} {l : ConfidentialityLabel}
    (labelled : labelFromSecurity security = .ok l) :
    l.policy = LabelPolicy.nato.withIdentifier l.policy.identifier := by
  unfold labelFromSecurity ConfidentialityLabel.fromMimSecurity at labelled
  dsimp only at labelled
  split at labelled
  · split at labelled
    · cases labelled
    · rename_i made
      obtain rfl := Except.ok.inj labelled
      split at made
      · cases made
      · split at made
        · exact Except.ok.inj made ▸ rfl
        · split at made
          · exact Except.ok.inj made ▸ rfl
          · exact Except.ok.inj made ▸ rfl
  · exact Except.ok.inj labelled ▸ rfl

variable [MarkupEscape] {P : CryptoProvider} {lib : WireLibraries}

/-- The XML path keeps a label exactly when it is the one an instance without metadata gets. -/
theorem xml_path_keeps_label_iff {i : MimInstance} {own bound : ConfidentialityLabel}
    {signing : SigningKey} {verifying : VerifyingKey} {e : RestEnvelope}
    {request : PutObjectRequest} (labelled : labelFromSecurity i.metadata.security = .ok own)
    (_wrapped : wrapPutObjectWithFormat P lib bound ⟨i⟩ signing .xml = .ok e)
    (unwrapped : unwrapPutObjectWithFormat P lib e verifying (some .xml) = .ok request) :
    (∃ restored, labelFromSecurity request.inst.metadata.security = .ok restored ∧
        SameControls restored own) ↔
      own.policy.identifier = "NATO" ∧ own.classification = .unclassified ∧
        own.releasableCountries = [] := by
  have bare : request.inst.metadata = {} :=
    deserializeInstance_xml_metadata (unwrapPutObjectWithFormat_ok_iff.mp unwrapped).2
  rw [bare]
  constructor
  · rintro ⟨restored, back, same⟩
    obtain rfl := Except.ok.inj (labelFromSecurity_default.symm.trans back)
    exact ⟨congrArg LabelPolicy.identifier same.policy.symm, same.classification.symm,
      same.countries.symm⟩
  · rintro ⟨identifier, classification, countries⟩
    refine ⟨_, labelFromSecurity_default, ?_, classification.symm, countries.symm⟩
    rw [labelFromSecurity_policy labelled, identifier]
    rfl

omit [UnicodeCase] in
theorem wrap_unwrap {signing : SigningKey} {verifying : VerifyingKey}
    (paired : P.Paired signing verifying) {label : ConfidentialityLabel}
    (policy : SpifRegistry.withDefaults.validateLabel label = .ok ()) {i j : MimInstance}
    (format : WirePayloadFormat) {text : String}
    (written : wireSerializer.serializeInstance lib i format.serializationFormat = .ok text)
    (read : deserializeInstance lib text format.serializationFormat = .ok j) :
    ∃ e a, wrapPutObjectWithFormat P lib label ⟨i⟩ signing format = .ok e ∧
      e.assertion = some a ∧ e.payload = text ∧
      e.originatorConfidentialityLabel = xmlSerialize label ∧
      a.signature.keyId = verifying.keyId ∧ e.SignsText (xmlSerialize label) ∧
      unwrapPutObjectWithFormat P lib e verifying (some format) = .ok ⟨j⟩ := by
  obtain ⟨e, a, wrapped, assertion, rfl, shown, keyId, verified, signs⟩ :=
    RestEnvelope.wrap_verifies paired policy text
  refine ⟨e, a, wrapPutObjectWithFormat_ok_iff.mpr ⟨_, written, wrapped⟩, assertion, rfl, shown,
    keyId, signs, ?_⟩
  exact unwrapPutObjectWithFormat_ok_iff.mpr ⟨verified, read⟩

omit [UnicodeCase] [MarkupEscape] in
theorem xml_path_keeps_label_fixture : letI := entityEscape
    letI := asciiCase
    let request : PutObjectRequest := ⟨classified "a" "UNCLASSIFIED"⟩
    let label := ConfidentialityLabel.new .nato .unclassified
    ∃ e restored, wrapPutObjectWithFormat echoProvider wireLibraries label request ⟨"nmb", [3]⟩
        .xml = .ok e ∧
      unwrapPutObjectWithFormat echoProvider wireLibraries e ⟨"nmb", [3]⟩ (some .xml) =
        .ok restored ∧
      ∃ l, labelFromSecurity restored.inst.metadata.security = .ok l ∧ SameControls l label := by
  let : MarkupEscape := entityEscape
  let : UnicodeCase := asciiCase
  intro request label
  have policy : SpifRegistry.withDefaults.validateLabel label = .ok () :=
    nato_accepts .unclassified (by decide) [] (by decide)
  obtain ⟨e, a, wrapped, _, _, _, _, _, unwrapped⟩ := wrap_unwrap
    (echoProvider_paired ⟨"nmb", [3]⟩ ⟨"nmb", [3]⟩ rfl rfl) policy .xml
    (wireXml_written { classification := .value "UNCLASSIFIED" }) wireXml_read
  have labelled : labelFromSecurity request.inst.metadata.security = .ok label :=
    labelFromSecurity_level .unclassified
  exact ⟨e, _, wrapped, unwrapped,
    (xml_path_keeps_label_iff labelled wrapped unwrapped).mpr ⟨rfl, rfl, rfl⟩⟩

omit [UnicodeCase] [MarkupEscape] in
/-- A secret object comes back unclassified. -/
theorem secret_lost_over_xml : letI := entityEscape
    letI := asciiCase
    let request : PutObjectRequest := ⟨classified "a" "SECRET"⟩
    let label := ConfidentialityLabel.new .nato .secret
    ∃ e restored, labelFromSecurity request.inst.metadata.security = .ok label ∧
      wrapPutObjectWithFormat echoProvider wireLibraries label request ⟨"nmb", [3]⟩ .xml = .ok e ∧
      unwrapPutObjectWithFormat echoProvider wireLibraries e ⟨"nmb", [3]⟩ (some .xml) =
        .ok restored ∧
      labelFromSecurity restored.inst.metadata.security = .ok (.new .nato .unclassified) ∧
      ¬ ∃ l, labelFromSecurity restored.inst.metadata.security = .ok l ∧ SameControls l label := by
  let : MarkupEscape := entityEscape
  let : UnicodeCase := asciiCase
  intro request label
  have policy : SpifRegistry.withDefaults.validateLabel label = .ok () :=
    nato_accepts .secret (by decide) [] (by decide)
  obtain ⟨e, a, wrapped, _, _, _, _, _, unwrapped⟩ := wrap_unwrap
    (echoProvider_paired ⟨"nmb", [3]⟩ ⟨"nmb", [3]⟩ rfl rfl) policy .xml
    (wireXml_written { classification := .value "SECRET" }) wireXml_read
  refine ⟨e, _, labelFromSecurity_level .secret, wrapped, unwrapped, labelFromSecurity_default, ?_⟩
  rintro ⟨l, back, same⟩
  obtain rfl := Except.ok.inj (labelFromSecurity_default.symm.trans back)
  cases same.classification

end XmlPath

end MimTransport
