import MimStack.Http.Identity
import MimStack.Http.Notify
import MimStack.Stanag4774.RoundTrip
import MimStack.Transport.Envelope

/-!
The put route. Before it takes the broker's lock it looks up the key the envelope
names, compares the label header with the envelope's outer label, unwraps the
payload and resolves the subject.
-/
namespace MimHttp.Routes
open RustText ByteText Fallible MarkupText MimCore MimRuntime MimLabeling MimSpif MimPolicy
open MimCrypto MimStanag MimTransport

def payloadFormat (headers : HeaderMap) (envelope : RestEnvelope) : WirePayloadFormat :=
  (((headers.text "Content-Type").bind formatFromContentType).or
    ((headers.text "X-MIM-Payload-Format").bind formatFromContentType)).getD
      (detectPayloadFormat envelope.payload)

variable [MarkupEscape] (P : CryptoProvider) (lib : WireLibraries) (codec : BearerCodec)
variable (trustStore : NmbTrustStore) (state : AppState)

def namedKey (envelope : RestEnvelope) : Except TransportError VerifyingKey :=
  match envelope.assertion with
  | none => .error (.forbidden "REST envelope missing NMBS assertion")
  | some a => (trustStore.verifyKeyFor a.signature.keyId).mapError fun e => .validation e.toString

/-- `handle_put` up to the lock. -/
def admitPut (headers : HeaderMap) (tlsIdentity : Option TlsClientIdentity)
    (envelope : RestEnvelope) : Except TransportError (SubjectAttributes × PutObjectRequest) := do
  let format := payloadFormat headers envelope
  let verifyingKey ← namedKey trustStore envelope
  if headers.text "X-NATO-Confidentiality-Label" ≠ some envelope.originatorConfidentialityLabel then
    throw (.forbidden "REST envelope label header mismatch")
  else
    let request ← unwrapPutObjectWithFormat P lib envelope verifyingKey (some format)
    let subject ← resolveSubjectForRequest codec state headers tlsIdentity
    return (subject, request)

variable [UnicodeCase]

def handlePut (s : SecuredExchangeBroker) (headers : HeaderMap)
    (tlsIdentity : Option TlsClientIdentity) (envelope : RestEnvelope) :
    Option (Except TransportError PutObjectResponse × SecuredExchangeBroker) :=
  match admitPut P lib codec trustStore state headers tlsIdentity envelope with
  | .error e => some (.error e, s)
  | .ok (subject, request) => s.putObjectAs subject request

theorem handlePut_broker (s : Server) (headers : HeaderMap)
    (tlsIdentity : Option TlsClientIdentity) (envelope : RestEnvelope) :
    (MimHttp.handlePut s (admitPut P lib codec trustStore state headers tlsIdentity envelope)).map
        Server.broker =
      (handlePut P lib codec trustStore state s.broker headers tlsIdentity envelope).map
        Prod.snd := by
  unfold MimHttp.handlePut handlePut
  cases admitPut P lib codec trustStore state headers tlsIdentity envelope with
  | error e => rfl
  | ok admitted =>
    simp only
    cases s.broker.putObjectAs admitted.1 admitted.2 with
    | none => rfl
    | some ran =>
      obtain ⟨result, broker⟩ := ran
      cases result <;> rfl

/-- The checks of the route that are not about the payload. -/
structure RouteAdmitted (headers : HeaderMap) (tlsIdentity : Option TlsClientIdentity)
    (e : RestEnvelope) (key : VerifyingKey) (subject : SubjectAttributes) : Prop where
  key : namedKey trustStore e = .ok key
  header : headers.text "X-NATO-Confidentiality-Label" = some e.originatorConfidentialityLabel
  subject : resolveSubjectForRequest codec state headers tlsIdentity = .ok subject

variable {P lib codec trustStore state}

omit [UnicodeCase] in
theorem admitPut_ok_iff {headers : HeaderMap} {tlsIdentity : Option TlsClientIdentity}
    {e : RestEnvelope} {subject : SubjectAttributes} {request : PutObjectRequest} :
    admitPut P lib codec trustStore state headers tlsIdentity e = .ok (subject, request) ↔
      ∃ key, RouteAdmitted codec trustStore state headers tlsIdentity e key subject ∧
        unwrapPutObjectWithFormat P lib e key (some (payloadFormat headers e)) = .ok request := by
  constructor
  · intro admitted
    obtain ⟨key, found, admitted⟩ := bind_ok.mp admitted
    split at admitted
    · cases admitted
    · rename_i header
      obtain ⟨unwrapped, decoded, admitted⟩ := bind_ok.mp admitted
      obtain ⟨resolved, known, admitted⟩ := bind_ok.mp admitted
      obtain ⟨rfl, rfl⟩ := Prod.mk.inj (pure_ok.mp admitted)
      exact ⟨key, ⟨found, not_not.mp header, known⟩, decoded⟩
  · rintro ⟨key, ⟨found, header, known⟩, decoded⟩
    refine bind_ok.mpr ⟨key, found, ?_⟩
    rw [if_neg (not_not.mpr header)]
    exact bind_ok.mpr ⟨request, decoded, bind_ok.mpr ⟨subject, known, rfl⟩⟩

theorem handlePut_ok_iff {s after : SecuredExchangeBroker} {headers : HeaderMap}
    {tlsIdentity : Option TlsClientIdentity} {e : RestEnvelope} {response : PutObjectResponse} :
    handlePut P lib codec trustStore state s headers tlsIdentity e = some (.ok response, after) ↔
      ∃ key subject i, RouteAdmitted codec trustStore state headers tlsIdentity e key subject ∧
        EnvelopeAdmitted P lib s subject e key (payloadFormat headers e) i ∧
        s.putObjectAs subject ⟨i⟩ = some (.ok response, after) := by
  unfold handlePut
  constructor
  · intro ran
    split at ran
    · cases ran
    · rename_i subject request admitted
      obtain ⟨key, route, unwrapped⟩ := admitPut_ok_iff.mp admitted
      exact ⟨key, subject, request.inst, route,
        admitted_iff.mpr ⟨unwrapped, response, after, ran⟩, ran⟩
  · rintro ⟨key, subject, i, route, admitted, ran⟩
    rw [admitPut_ok_iff.mpr ⟨key, route, (admitted_iff.mp admitted).1⟩]
    exact ran

section SignedLabel

variable {R : MarkupReader} {readTime : TimeReader}

variable (P lib R readTime) in
/-- A put through the broker stores the object under a label as strict as the signed one. -/
def BrokerEnforces (s : SecuredExchangeBroker) (subject : SubjectAttributes) (e : RestEnvelope)
    (key : VerifyingKey) : Prop :=
  ∀ response after, s.putObjectEnvelopedAs P lib subject e key = some (.ok response, after) →
    StoredUnderSigned R readTime s subject e response after

variable (P lib codec trustStore state R readTime) in
/-- A put through the route does, for the subject it resolves. -/
def RouteEnforces (s : SecuredExchangeBroker) (headers : HeaderMap)
    (tlsIdentity : Option TlsClientIdentity) (e : RestEnvelope) : Prop :=
  ∀ response after,
    handlePut P lib codec trustStore state s headers tlsIdentity e = some (.ok response, after) →
    ∃ subject, resolveSubjectForRequest codec state headers tlsIdentity = .ok subject ∧
      StoredUnderSigned R readTime s subject e response after

theorem brokerEnforces_iff {s : SecuredExchangeBroker} {subject : SubjectAttributes}
    {e : RestEnvelope} {key : VerifyingKey} : BrokerEnforces P lib R readTime s subject e key ↔
      LabelsConsistent lib R readTime e (detectPayloadFormat e.payload) ∨
        ¬ ∃ i, EnvelopeAdmitted P lib s subject e key (detectPayloadFormat e.payload) i := by
  constructor
  · intro enforces
    by_cases admits : ∃ i, EnvelopeAdmitted P lib s subject e key (detectPayloadFormat e.payload) i
    · obtain ⟨i, admitted⟩ := admits
      obtain ⟨_, response, after, ran⟩ := admitted_iff.mp admitted
      have stored := enforces response after (putObjectEnvelopedAs_ok_iff.mpr ⟨i, admitted, ran⟩)
      exact .inl ((stored_iff_consistent admitted ran).mp stored)
    · exact .inr admits
  · intro condition response after put
    obtain ⟨i, admitted, ran⟩ := putObjectEnvelopedAs_ok_iff.mp put
    rcases condition with consistent | refused
    · exact (stored_iff_consistent admitted ran).mpr consistent
    · exact absurd ⟨i, admitted⟩ refused

theorem routeEnforces_iff {s : SecuredExchangeBroker} {headers : HeaderMap}
    {tlsIdentity : Option TlsClientIdentity} {e : RestEnvelope} :
    RouteEnforces P lib codec trustStore state R readTime s headers tlsIdentity e ↔
      LabelsConsistent lib R readTime e (payloadFormat headers e) ∨
        ¬ ∃ key subject i, RouteAdmitted codec trustStore state headers tlsIdentity e key subject ∧
          EnvelopeAdmitted P lib s subject e key (payloadFormat headers e) i := by
  constructor
  · intro enforces
    by_cases admits : ∃ key subject i,
        RouteAdmitted codec trustStore state headers tlsIdentity e key subject ∧
          EnvelopeAdmitted P lib s subject e key (payloadFormat headers e) i
    · obtain ⟨key, subject, i, route, admitted⟩ := admits
      obtain ⟨_, response, after, ran⟩ := admitted_iff.mp admitted
      obtain ⟨subject', resolved, stored⟩ := enforces response after
        (handlePut_ok_iff.mpr ⟨key, subject, i, route, admitted, ran⟩)
      obtain rfl := Except.ok.inj (route.subject.symm.trans resolved)
      exact .inl ((stored_iff_consistent admitted ran).mp stored)
    · exact .inr admits
  · intro condition response after put
    obtain ⟨key, subject, i, route, admitted, ran⟩ := handlePut_ok_iff.mp put
    rcases condition with consistent | refused
    · exact ⟨subject, route.subject, (stored_iff_consistent admitted ran).mpr consistent⟩
    · exact absurd ⟨key, subject, i, route, admitted⟩ refused

/-- Either way of putting an envelope enforces the signed label exactly when the payload's own
label is as strict, or the envelope is not admitted. -/
theorem signed_label_enforced_iff (P : CryptoProvider) (lib : WireLibraries) (codec : BearerCodec)
    (trustStore : NmbTrustStore) (state : AppState) (R : MarkupReader) (readTime : TimeReader)
    (s : SecuredExchangeBroker) (subject : SubjectAttributes) (key : VerifyingKey)
    (headers : HeaderMap) (tlsIdentity : Option TlsClientIdentity) (e : RestEnvelope) :
    (BrokerEnforces P lib R readTime s subject e key ↔
      LabelsConsistent lib R readTime e (detectPayloadFormat e.payload) ∨
        ¬ ∃ i, EnvelopeAdmitted P lib s subject e key (detectPayloadFormat e.payload) i) ∧
    (RouteEnforces P lib codec trustStore state R readTime s headers tlsIdentity e ↔
      LabelsConsistent lib R readTime e (payloadFormat headers e) ∨
        ¬ ∃ key subject i, RouteAdmitted codec trustStore state headers tlsIdentity e key subject ∧
          EnvelopeAdmitted P lib s subject e key (payloadFormat headers e) i) :=
  ⟨brokerEnforces_iff, routeEnforces_iff⟩

omit [MarkupEscape] [UnicodeCase] in
theorem labelled_request {text : String} (visible : ∀ c ∈ text.toList, Visible c) :
    ∃ headers : HeaderMap, headers.text "X-NATO-Confidentiality-Label" = some text ∧
      headers.text "Content-Type" = none ∧ headers.text "X-MIM-Payload-Format" = none ∧
      resolveSubjectForRequest codecFixture requiredFixture headers none =
        .ok { subjectId := "gbr", clearance := .restricted } := by
  let headers := insertText (principalHeaders "gbr") "X-NATO-Confidentiality-Label" (some text)
  have bearer : bearerAuthorization headers = none := by
    unfold bearerAuthorization
    rw [insertText_other _ _ _ _ (by decide)]
    decide +kernel
  have principal : headers.text headerMimClientPrincipal = some "gbr" := by
    rw [insertText_other _ _ _ _ (by decide)]
    decide +kernel
  have resolved : requiredFixture.subjectResolver.resolve "gbr" =
      .ok { subjectId := "gbr", clearance := .restricted } := by
    decide +kernel
  refine ⟨headers, insertText_same _ _ _ visible, ?_, ?_, ?_⟩
  · rw [insertText_other _ _ _ _ (by decide)]
    decide +kernel
  · rw [insertText_other _ _ _ _ (by decide)]
    decide +kernel
  · rw [resolveSubject_required _ _ rfl, resolveRequestSubject]
    simp only [bearer, principal, resolved, asTransport]

omit [MarkupEscape] [UnicodeCase] in
/-- What is signed as secret is stored unclassified, by an operator cleared for restricted. -/
theorem secret_envelope_stored_unclassified : letI := entityEscape
    letI := asciiCase
    let secret := ConfidentialityLabel.new .nato .secret
    let gbr : SubjectAttributes := { subjectId := "gbr", clearance := .restricted }
    ∃ e headers, wrapPutObjectWithFormat echoProvider wireLibraries secret ⟨wireInstance "a" {}⟩
        ⟨"nmb", [3]⟩ .xml = .ok e ∧
      (∃ signed, e.Signs entityReader plainTime signed ∧ signed.classification = .secret) ∧
      ¬ BrokerEnforces echoProvider wireLibraries entityReader plainTime securedFixture gbr e
        ⟨"nmb", [3]⟩ ∧
      ¬ RouteEnforces echoProvider wireLibraries codecFixture ⟨[⟨"nmb", [3]⟩]⟩ requiredFixture
        entityReader plainTime securedFixture headers none e := by
  let : MarkupEscape := entityEscape
  let : UnicodeCase := asciiCase
  intro secret gbr
  have policy : SpifRegistry.withDefaults.validateLabel secret = .ok () :=
    nato_accepts .secret (by decide) [] (by decide)
  obtain ⟨e, a, wrapped, assertion, payload, shown, keyId, text, unwrapped⟩ := wrap_unwrap
    (echoProvider_paired ⟨"nmb", [3]⟩ ⟨"nmb", [3]⟩ rfl rfl) policy .xml (wireXml_written {})
    wireXml_read
  obtain ⟨signed, decoded', states⟩ := secret_document_read plainTime [] (by decide) (by decide)
  have signs : e.Signs entityReader plainTime signed := ⟨_, text, decoded'⟩
  have secrecy : signed.classification = .secret := congrArg Stated.classification states
  have visible : ∀ c ∈ (xmlSerialize secret).toList, Visible c := by
    have checked : (renderEvents (labelEvents secret)).all (fun c => 32 ≤ c.toNat ∧ c.toNat < 127) =
        true := by
      decide +kernel
    rw [xmlSerialize, String.toList_ofList]
    simpa [Visible] using checked
  obtain ⟨headers, header, noType, noFormat, resolved⟩ := labelled_request visible
  have format : detectPayloadFormat e.payload = .xml := by
    rw [payload]
    exact detect_written_xml (wireXml_written {})
  have routeFormat : payloadFormat headers e = .xml := by
    rw [payloadFormat, noType, noFormat, Option.bind_none, Option.or_none, Option.getD_none]
    exact format
  obtain ⟨verified, decoded⟩ := unwrapPutObjectWithFormat_ok_iff.mp unwrapped
  have permitted : (securedFixture.authorize gbr (wireInstance "a" {}) .write).isOk = true := by
    decide +kernel
  have admitted : EnvelopeAdmitted echoProvider wireLibraries securedFixture gbr e ⟨"nmb", [3]⟩
      .xml (wireInstance "a" {}) :=
    ⟨verified, decoded, isOk_iff.mp permitted, wireInstance_accepted "a" {} (by decide)⟩
  have inconsistent : ¬ LabelsConsistent wireLibraries entityReader plainTime e .xml := by
    intro consistent
    obtain ⟨other, also, strict⟩ := consistent _ (.new .nato .unclassified) decoded rfl
    obtain rfl := RestEnvelope.signs_unique also signs
    have lower : ¬ ClassificationLevel.secret ≤ ClassificationLevel.unclassified := by decide
    exact lower (secrecy ▸ strict.classification)
  have found : namedKey ⟨[⟨"nmb", [3]⟩]⟩ e = .ok ⟨"nmb", [3]⟩ := by
    unfold namedKey
    rw [assertion]
    simp only [keyId]
    rfl
  refine ⟨e, headers, wrapped, ⟨signed, signs, secrecy⟩, fun enforces => ?_, fun enforces => ?_⟩
  · rcases format ▸ brokerEnforces_iff.mp enforces with consistent | refused
    · exact inconsistent consistent
    · exact refused ⟨_, admitted⟩
  · rcases routeFormat ▸ routeEnforces_iff.mp enforces with consistent | refused
    · exact inconsistent consistent
    · exact refused ⟨_, gbr, _, ⟨found, shown ▸ header, resolved⟩, admitted⟩

end SignedLabel

end MimHttp.Routes
