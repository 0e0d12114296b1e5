import MimStack.Stanag4778

/-!
The carriers of bindings: data objects that keep the label beside the digest, with
a signature or without, envelopes for requests and headers for mail. Each verifies
the payload it was made for and no other; none checks the label that it shows.
-/
namespace MimStanag
open ByteText Fallible MarkupText JsonText MimLabeling MimSpif MimCrypto

def MetadataBinding.embeddedJson : MetadataBinding where
  method := .embedded
  profile := .jsonSidecar
  labelLocation := "metadata.security"
  dataDigest := none

def MetadataBinding.encapsulatedXml : MetadataBinding where
  method := .encapsulated
  profile := .xmlEmbedded
  labelLocation := "originatorConfidentialityLabel"
  dataDigest := none

variable [MarkupEscape] (P : CryptoProvider)

namespace BindingDataObject

/-- `Stanag4774Codec::serialize` with the JSON format; the writer itself cannot fail. -/
def serializeJsonText (l : ConfidentialityLabel) : Except LabelError String :=
  (serializeJson l).map Value.toPrettyText

def signedBy (label : ConfidentialityLabel) (payload : Bytes) (signingKey : Option SigningKey) :
    Except LabelError (Option AssertionBinding) :=
  match signingKey with
  | none => .ok none
  | some key => (AssertionBinding.create P label payload key).map some

/-- What the constructors with an optional signature share: they differ in the text they keep of
the label and in the binding they state. -/
def withNmb (serialize : ConfidentialityLabel → Except LabelError String)
    (binding : String → MetadataBinding) (label : ConfidentialityLabel) (payload : Bytes)
    (signingKey : Option SigningKey) : Except LabelError BindingDataObject := do
  label.validate
  SpifRegistry.withDefaults.validateLabel label
  let encoded ← serialize label
  let assertion ← signedBy P label payload signingKey
  let digest := P.sha256Base64 payload
  return ⟨binding digest, label, encoded, digest, assertion⟩

def embeddedWithNmb :
    ConfidentialityLabel → Bytes → Option SigningKey → Except LabelError BindingDataObject :=
  withNmb P serializeJsonText fun _ => .embeddedJson

def xmlEmbeddedWithNmb :
    ConfidentialityLabel → Bytes → Option SigningKey → Except LabelError BindingDataObject :=
  withNmb P serializeXml fun _ => .encapsulatedXml

def encapsulatedWithNmb :
    ConfidentialityLabel → Bytes → Option SigningKey → Except LabelError BindingDataObject :=
  withNmb P serializeXml fun digest =>
    ⟨.encapsulated, .xmlEmbedded, "ConfidentialityLabel", some digest⟩

def detachedWithNmb (labelUri : String) :
    ConfidentialityLabel → Bytes → Option SigningKey → Except LabelError BindingDataObject :=
  withNmb P serializeXml fun digest => ⟨.detached, .jsonSidecar, labelUri, some digest⟩

variable {P}

theorem withNmb_ok {serialize : ConfidentialityLabel → Except LabelError String}
    {binding : String → MetadataBinding} {label : ConfidentialityLabel} {payload : Bytes}
    {signingKey : Option SigningKey} {b : BindingDataObject}
    (made : withNmb P serialize binding label payload signingKey = .ok b) :
    SpifRegistry.withDefaults.validateLabel label = .ok () ∧ ∃ encoded assertion,
      signedBy P label payload signingKey = .ok assertion ∧
      b = ⟨binding (P.sha256Base64 payload), label, encoded, P.sha256Base64 payload, assertion⟩ := by
  obtain ⟨_, made⟩ := check_ok.mp made
  obtain ⟨policy, made⟩ := check_ok.mp made
  obtain ⟨encoded, _, made⟩ := bind_ok.mp made
  obtain ⟨assertion, signed, made⟩ := bind_ok.mp made
  exact ⟨policy, encoded, assertion, signed, (pure_ok.mp made).symm⟩

/-- Where something was signed, the verifying key given belongs to the signing key. -/
def Fits (P : CryptoProvider) (signing : Option SigningKey) (verifying : Option VerifyingKey) : Prop :=
  ∀ s, signing = some s → ∃ v, verifying = some v ∧ P.Paired s v

theorem signedBy_present {label : ConfidentialityLabel} {payload : Bytes}
    {signing : Option SigningKey} {verifying : Option VerifyingKey} (fits : Fits P signing verifying)
    {assertion : Option AssertionBinding} (signed : signedBy P label payload signing = .ok assertion) :
    verifyPresent P assertion payload verifying = .ok () := by
  cases signing with
  | none =>
    obtain rfl := Except.ok.inj signed
    rfl
  | some key =>
    obtain ⟨a, created, rfl⟩ := map_ok.mp signed
    obtain ⟨v, rfl, paired⟩ := fits key rfl
    exact (AssertionBinding.verify_ok_iff _ _ _).mpr (AssertionBinding.create_accepted paired created)

theorem withNmb_verifies {serialize : ConfidentialityLabel → Except LabelError String}
    {binding : String → MetadataBinding} {label : ConfidentialityLabel} {payload : Bytes}
    {signing : Option SigningKey} {verifying : Option VerifyingKey} {b : BindingDataObject}
    (fits : Fits P signing verifying)
    (made : withNmb P serialize binding label payload signing = .ok b)
    (own : ∀ digest d, (binding digest).dataDigest = some d → d = digest)
    (resolver : DetachedLabelResolver) (method : verifyMethod P b payload verifying resolver = .ok ()) :
    b.verify P payload verifying resolver = .ok () := by
  obtain ⟨policy, encoded, assertion, signed, rfl⟩ := withNmb_ok made
  apply (verify_stages_iff _ _ _ _).mpr
  exact ⟨(accepted_stages policy).1, rfl, own _, signedBy_present fits signed, method⟩

theorem verifyMethod_inside {b : BindingDataObject}
    (inside : b.binding.method = .embedded ∨ b.binding.method = .encapsulated)
    (policy : SpifRegistry.withDefaults.validateLabel b.label = .ok ()) (payload : Bytes)
    (key : Option VerifyingKey) (resolver : DetachedLabelResolver) :
    verifyMethod P b payload key resolver = .ok () := by
  unfold verifyMethod
  rcases inside with method | method <;> rw [method] <;> exact policy

end BindingDataObject

structure SmtpHeaderBinding where
  headerName : String
  labelEncoding : String
  payloadDigest : String
  assertion : AssertionBinding

namespace SmtpHeaderBinding

def create (label : ConfidentialityLabel) (payload : Bytes) (signingKey : SigningKey) :
    Except LabelError SmtpHeaderBinding := do
  let encoded ← serializeXml label
  let assertion ← AssertionBinding.create P label payload signingKey
  return ⟨"X-NATO-Confidentiality-Label", encoded, P.sha256Base64 payload, assertion⟩

def verify (b : SmtpHeaderBinding) (payload : Bytes) (verifyingKey : VerifyingKey) :
    Except LabelError Unit :=
  if b.payloadDigest ≠ P.sha256Base64 payload then
    throw (.binding "SMTP header binding payload digest mismatch")
  else b.assertion.verify P payload verifyingKey

variable {P}

theorem verify_ok_iff (b : SmtpHeaderBinding) (payload : Bytes) (key : VerifyingKey) :
    b.verify P payload key = .ok () ↔
      b.payloadDigest = P.sha256Base64 payload ∧ b.assertion.Accepted P payload key := by
  unfold verify
  by_cases digest : b.payloadDigest = P.sha256Base64 payload
  · rw [if_neg (not_not.mpr digest), AssertionBinding.verify_ok_iff]
    exact (and_iff_right digest).symm
  · rw [if_pos digest]
    simp [digest, throw_ok]

theorem create_ok_iff (label : ConfidentialityLabel) (payload : Bytes) (key : SigningKey)
    (b : SmtpHeaderBinding) : create P label payload key = .ok b ↔
      ∃ a, AssertionBinding.create P label payload key = .ok a ∧
        b = ⟨"X-NATO-Confidentiality-Label", xmlSerialize label, P.sha256Base64 payload, a⟩ := by
  constructor
  · intro created
    obtain ⟨encoded, text, created⟩ := bind_ok.mp created
    obtain ⟨a, made, created⟩ := bind_ok.mp created
    obtain ⟨_, rfl⟩ := serializeXml_ok.mp text
    exact ⟨a, made, (pure_ok.mp created).symm⟩
  · intro held
    obtain ⟨a, made, rfl⟩ := held
    have valid := (accepted_stages ((AssertionBinding.create_ok_iff _ _ _ _).mp made).1).1
    exact bind_ok.mpr ⟨_, serializeXml_ok.mpr ⟨valid, rfl⟩, bind_ok.mpr ⟨a, made, rfl⟩⟩

end SmtpHeaderBinding

section Exact

/-- Verification takes this payload and refuses every other. -/
def VerifiesExactly {α : Type} (verify : α → Except LabelError Unit) (payload : α) : Prop :=
  verify payload = .ok () ∧ ∀ other, other ≠ payload → ∃ e, verify other = .error e

omit [MarkupEscape] in
theorem verifiesExactly_of_digest {α : Type} {verify : α → Except LabelError Unit} {payload : α}
    (verified : verify payload = .ok ())
    (determined : ∀ other, verify other = .ok () → other = payload) : VerifiesExactly verify payload := by
  apply And.intro verified
  intro other differs
  rcases ok_or_error (verify other) with accepted | refused
  · exact absurd (determined other accepted) differs
  · exact refused

/-- The constructors of data objects; `embedded`, `xml_embedded` and `encapsulated` are the first
three without a key. -/
inductive Constructed (P : CryptoProvider) (label : ConfidentialityLabel) (payload : Bytes) :
    Option SigningKey → BindingDataObject → Prop
  | embedded {signing : Option SigningKey} {b : BindingDataObject}
      (made : BindingDataObject.embeddedWithNmb P label payload signing = .ok b) :
      Constructed P label payload signing b
  | xmlEmbedded {signing : Option SigningKey} {b : BindingDataObject}
      (made : BindingDataObject.xmlEmbeddedWithNmb P label payload signing = .ok b) :
      Constructed P label payload signing b
  | encapsulated {signing : Option SigningKey} {b : BindingDataObject}
      (made : BindingDataObject.encapsulatedWithNmb P label payload signing = .ok b) :
      Constructed P label payload signing b
  | assertionBound {key : SigningKey} {b : BindingDataObject}
      (made : BindingDataObject.assertionBound P label payload key = .ok b) :
      Constructed P label payload (some key) b

variable {P}

theorem constructed_verifies {label : ConfidentialityLabel} {payload : Bytes} {signing : Option SigningKey}
    {verifying : Option VerifyingKey} {b : BindingDataObject}
    (made : Constructed P label payload signing b)
    (fits : BindingDataObject.Fits P signing verifying) (resolver : DetachedLabelResolver) :
    b.verify P payload verifying resolver = .ok () := by
  have inside : ∀ (serialize : ConfidentialityLabel → Except LabelError String)
      (binding : String → MetadataBinding) (b : BindingDataObject),
      (∀ digest, (binding digest).method = .embedded ∨ (binding digest).method = .encapsulated) →
      (∀ digest d, (binding digest).dataDigest = some d → d = digest) →
      BindingDataObject.withNmb P serialize binding label payload signing = .ok b →
      b.verify P payload verifying resolver = .ok () := by
    intro serialize binding b method own made
    obtain ⟨policy, encoded, assertion, _, shape⟩ := BindingDataObject.withNmb_ok made
    have stated : b.binding.method = .embedded ∨ b.binding.method = .encapsulated := by
      rw [shape]
      exact method _
    have kept : SpifRegistry.withDefaults.validateLabel b.label = .ok () := by
      rw [shape]
      exact policy
    apply BindingDataObject.withNmb_verifies fits made own
    exact BindingDataObject.verifyMethod_inside stated kept payload verifying resolver
  cases made with
  | embedded made => exact inside _ _ b (fun _ => .inl rfl) (fun _ _ absent => by cases absent) made
  | xmlEmbedded made => exact inside _ _ b (fun _ => .inr rfl) (fun _ _ absent => by cases absent) made
  | encapsulated made =>
    exact inside _ _ b (fun _ => .inr rfl) (fun _ _ own => (Option.some.inj own).symm) made
  | assertionBound made =>
    obtain ⟨v, rfl, paired⟩ := fits _ rfl
    obtain ⟨a, created, rfl⟩ := (BindingDataObject.assertionBound_ok_iff _ _ _ _).mp made
    have accepted := AssertionBinding.create_accepted paired created
    obtain ⟨policy, signature, signed, rfl⟩ := (AssertionBinding.create_ok_iff _ _ _ _).mp created
    apply (BindingDataObject.verify_ok_iff rfl _ _ _).mpr
    exact ⟨accepted.valid, rfl, (fun _ absent => by cases absent), _, rfl, accepted⟩

theorem constructed_digest {label : ConfidentialityLabel} {payload : Bytes} {signing : Option SigningKey}
    {b : BindingDataObject} (made : Constructed P label payload signing b) :
    b.payloadDigest = P.sha256Base64 payload := by
  cases made with
  | embedded made =>
    obtain ⟨_, _, _, _, rfl⟩ := BindingDataObject.withNmb_ok made
    rfl
  | xmlEmbedded made =>
    obtain ⟨_, _, _, _, rfl⟩ := BindingDataObject.withNmb_ok made
    rfl
  | encapsulated made =>
    obtain ⟨_, _, _, _, rfl⟩ := BindingDataObject.withNmb_ok made
    rfl
  | assertionBound made =>
    obtain ⟨a, created, rfl⟩ := (BindingDataObject.assertionBound_ok_iff _ _ _ _).mp made
    obtain ⟨_, _, _, rfl⟩ := (AssertionBinding.create_ok_iff _ _ _ _).mp created
    rfl

theorem wrapped_payload {label : ConfidentialityLabel} {payload : Bytes} {key : SigningKey}
    {e : RestEnvelope} (wrapped : RestEnvelope.wrap P label payload key = .ok e) :
    payload = utf8 e.payload := by
  obtain ⟨_, wrapped⟩ := check_ok.mp wrapped
  obtain ⟨_, _, wrapped⟩ := bind_ok.mp wrapped
  obtain ⟨_, _, wrapped⟩ := bind_ok.mp wrapped
  obtain ⟨text, read, wrapped⟩ := bind_ok.mp wrapped
  obtain rfl := pure_ok.mp wrapped
  exact ((fromUtf8_ok_iff _ _).mp ((mapError_ok _ _ _).mp read)).symm

/-- Every carrier verifies with the matching key for the payload it was made for, and for no other
put in its place. -/
theorem bindings_verify_exactly (injective : Function.Injective P.sha256Base64)
    (resolver : DetachedLabelResolver) (label : ConfidentialityLabel) (payload : Bytes) :
    (∀ signing verifying b, Constructed P label payload signing b →
      BindingDataObject.Fits P signing verifying →
      VerifiesExactly (b.verify P · verifying resolver) payload) ∧
    (∀ signing verifying e, RestEnvelope.wrap P label payload signing = .ok e →
      P.Paired signing verifying → utf8 e.payload = payload ∧
      VerifiesExactly (fun text => ({ e with payload := text } : RestEnvelope).verify P verifying)
        e.payload) ∧
    (∀ signing verifying b, SmtpHeaderBinding.create P label payload signing = .ok b →
      P.Paired signing verifying → VerifiesExactly (b.verify P · verifying) payload) := by
  refine ⟨?_, ?_, ?_⟩
  · intro signing verifying b made fits
    apply verifiesExactly_of_digest
    · exact constructed_verifies made fits resolver
    · intro other verified
      have digest := ((BindingDataObject.verify_stages_iff _ _ _ _).mp verified).2.1
      exact injective (digest.symm.trans (constructed_digest made))
  · intro signing verifying e wrapped paired
    obtain rfl := wrapped_payload wrapped
    obtain ⟨a, made, shape⟩ := (RestEnvelope.wrap_ok_iff _ _ _ _).mp wrapped
    have own : e.payloadDigest = P.sha256Base64 (utf8 e.payload) := by
      obtain ⟨_, _, _, rfl⟩ := (AssertionBinding.create_ok_iff _ _ _ _).mp made
      rw [shape]
    refine ⟨rfl, ?_⟩
    apply verifiesExactly_of_digest
    · apply (RestEnvelope.verify_ok_iff _ _).mpr
      exact ⟨own, a, by rw [shape], AssertionBinding.create_accepted paired made⟩
    · intro other verified
      have digest := ((RestEnvelope.verify_ok_iff _ _).mp verified).1
      exact utf8_injective (injective (digest.symm.trans own))
  · intro signing verifying b created paired
    obtain ⟨a, made, rfl⟩ := (SmtpHeaderBinding.create_ok_iff _ _ _ _).mp created
    apply verifiesExactly_of_digest
    · exact (SmtpHeaderBinding.verify_ok_iff _ _ _).mpr
        ⟨rfl, AssertionBinding.create_accepted paired made⟩
    · intro other verified
      exact injective ((SmtpHeaderBinding.verify_ok_iff _ _ _).mp verified).1.symm

omit [MarkupEscape] in
theorem bindings_verify_exactly_fixture : letI := entityEscape
    let secret := (ConfidentialityLabel.new .nato .secret).withCategory (.releasableTo ["USA"])
    let signing : SigningKey := ⟨"nmb", [3]⟩
    let verifying : VerifyingKey := ⟨"nmb", [3]⟩
    let resolver : DetachedLabelResolver := fun uri => .error (.parse uri)
    (∃ b, BindingDataObject.encapsulatedWithNmb echoProvider secret (utf8 "ok") (some signing) = .ok b ∧
      VerifiesExactly (b.verify echoProvider · (some verifying) resolver) (utf8 "ok")) ∧
    (∃ e, RestEnvelope.wrap echoProvider secret (utf8 "ok") signing = .ok e ∧
      VerifiesExactly (fun text =>
        ({ e with payload := text } : RestEnvelope).verify echoProvider verifying) e.payload) ∧
    ∃ b, SmtpHeaderBinding.create echoProvider secret (utf8 "ok") signing = .ok b ∧
      VerifiesExactly (b.verify echoProvider · verifying) (utf8 "ok") := by
  let : MarkupEscape := entityEscape
  intro secret signing verifying resolver
  have policy : SpifRegistry.withDefaults.validateLabel secret = .ok () :=
    nato_accepts .secret (by decide) [.releasableTo ["USA"]] (by decide)
  have valid := (accepted_stages policy).1
  have paired : echoProvider.Paired signing verifying := echoProvider_paired _ _ rfl rfl
  have fits : BindingDataObject.Fits echoProvider (some signing) (some verifying) := by
    intro s same
    obtain rfl := Option.some.inj same
    exact ⟨verifying, rfl, paired⟩
  obtain ⟨a, created, _⟩ := AssertionBinding.create_verifies paired policy (utf8 "ok")
  have made : BindingDataObject.encapsulatedWithNmb echoProvider secret (utf8 "ok") (some signing) =
      .ok _ :=
    check_ok.mpr ⟨valid, check_ok.mpr ⟨policy, bind_ok.mpr ⟨_, serializeXml_ok.mpr ⟨valid, rfl⟩,
      bind_ok.mpr ⟨some a, map_ok.mpr ⟨a, created, rfl⟩, rfl⟩⟩⟩⟩
  have wrapped : RestEnvelope.wrap echoProvider secret (utf8 "ok") signing = .ok _ :=
    (RestEnvelope.wrap_ok_iff _ _ _ _).mpr ⟨a, created, rfl⟩
  have header : SmtpHeaderBinding.create echoProvider secret (utf8 "ok") signing = .ok _ :=
    (SmtpHeaderBinding.create_ok_iff _ _ _ _).mpr ⟨a, created, rfl⟩
  obtain ⟨objects, envelopes, headers⟩ := bindings_verify_exactly echoProvider_injective resolver
    secret (utf8 "ok")
  refine ⟨⟨_, made, objects _ _ _ (.encapsulated made) fits⟩, ⟨_, wrapped, ?_⟩, ⟨_, header, ?_⟩⟩
  · exact (envelopes _ _ _ wrapped paired).2
  · exact headers _ _ _ header paired

end Exact

section Shown

def RestEnvelope.showing (e : RestEnvelope) (text : String) : RestEnvelope :=
  { e with originatorConfidentialityLabel := text }

def SmtpHeaderBinding.showing (b : SmtpHeaderBinding) (text : String) : SmtpHeaderBinding :=
  { b with labelEncoding := text }

/-- If it verifies, the readable label is the text that the signature covers. -/
def RestEnvelope.ShowsSigned (e : RestEnvelope) (key : VerifyingKey) : Prop :=
  e.verify P key = .ok () →
    ∃ a, e.assertion = some a ∧ a.signedText = .ok e.originatorConfidentialityLabel

def SmtpHeaderBinding.ShowsSigned (b : SmtpHeaderBinding) (payload : Bytes) (key : VerifyingKey) :
    Prop :=
  b.verify P payload key = .ok () → b.assertion.signedText = .ok b.labelEncoding

/-- The checks on an envelope; the readable label is not looked at. -/
structure RestEnvelope.Accepted (e : RestEnvelope) (key : VerifyingKey) : Prop where
  digest : e.payloadDigest = P.sha256Base64 (utf8 e.payload)
  assertion : ∃ a, e.assertion = some a ∧ a.Accepted P (utf8 e.payload) key

structure SmtpHeaderBinding.Accepted (b : SmtpHeaderBinding) (payload : Bytes) (key : VerifyingKey) :
    Prop where
  digest : b.payloadDigest = P.sha256Base64 payload
  assertion : b.assertion.Accepted P payload key

variable {P}

theorem RestEnvelope.showing_verify_iff (e : RestEnvelope) (text : String) (key : VerifyingKey) :
    (e.showing text).verify P key = .ok () ↔ e.Accepted P key := by
  rw [RestEnvelope.verify_ok_iff]
  constructor
  · intro checks
    exact ⟨checks.1, checks.2⟩
  · intro accepted
    exact ⟨accepted.digest, accepted.assertion⟩

theorem SmtpHeaderBinding.showing_verify_iff (b : SmtpHeaderBinding) (text : String) (payload : Bytes)
    (key : VerifyingKey) :
    (b.showing text).verify P payload key = .ok () ↔ b.Accepted P payload key := by
  rw [SmtpHeaderBinding.verify_ok_iff]
  constructor
  · intro checks
    exact ⟨checks.1, checks.2⟩
  · intro accepted
    exact ⟨accepted.digest, accepted.assertion⟩

omit [MarkupEscape] in
theorem every_shown_iff {accepted : Prop} {signed : String → Prop}
    (one : ∀ a b, signed a → signed b → a = b) :
    (∀ text, accepted → signed text) ↔ ¬ accepted := by
  constructor
  · intro every holds
    have same : "" = "?" := one _ _ (every "" holds) (every "?" holds)
    revert same
    decide
  · intro refused text holds
    exact absurd holds refused

/-- Whatever readable label is put in place, an envelope or a header that is accepted is accepted
with it; so the label shown is the one signed only where it happens to be, and every replacement is
refused only where the original is. -/
theorem shown_label_iff :
    (∀ (e : RestEnvelope) (key : VerifyingKey),
      (∀ text, (e.showing text).ShowsSigned P key ↔
        (∃ a, e.assertion = some a ∧ a.signedText = .ok text) ∨ ¬ e.Accepted P key) ∧
      ((∀ text, (e.showing text).ShowsSigned P key) ↔ ¬ e.Accepted P key)) ∧
    ∀ (b : SmtpHeaderBinding) (payload : Bytes) (key : VerifyingKey),
      (∀ text, (b.showing text).ShowsSigned P payload key ↔
        b.assertion.signedText = .ok text ∨ ¬ b.Accepted P payload key) ∧
      ((∀ text, (b.showing text).ShowsSigned P payload key) ↔ ¬ b.Accepted P payload key) := by
  constructor
  · intro e key
    have shows : ∀ text, (e.showing text).ShowsSigned P key ↔
        (e.Accepted P key → ∃ a, e.assertion = some a ∧ a.signedText = .ok text) := by
      intro text
      rw [RestEnvelope.ShowsSigned, RestEnvelope.showing_verify_iff]
      rfl
    have one : ∀ s t, (∃ a, e.assertion = some a ∧ a.signedText = .ok s) →
        (∃ a, e.assertion = some a ∧ a.signedText = .ok t) → s = t := by
      intro s t before after
      obtain ⟨a, held, first⟩ := before
      obtain ⟨b, held', second⟩ := after
      obtain rfl := Option.some.inj (held.symm.trans held')
      exact Except.ok.inj (first.symm.trans second)
    simp only [shows]
    exact ⟨fun _ => imp_iff_or_not, every_shown_iff one⟩
  · intro b payload key
    have shows : ∀ text, (b.showing text).ShowsSigned P payload key ↔
        (b.Accepted P payload key → b.assertion.signedText = .ok text) := by
      intro text
      rw [SmtpHeaderBinding.ShowsSigned, SmtpHeaderBinding.showing_verify_iff]
      rfl
    simp only [shows]
    exact ⟨fun _ => imp_iff_or_not,
      every_shown_iff fun _ _ first second => Except.ok.inj (first.symm.trans second)⟩

omit [MarkupEscape] in
/-- Secret envelopes and headers that show an unclassified label verify. -/
theorem unclassified_shown : letI := entityEscape
    let secret := (ConfidentialityLabel.new .nato .secret).withCategory (.releasableTo ["USA"])
    let signing : SigningKey := ⟨"nmb", [3]⟩
    let verifying : VerifyingKey := ⟨"nmb", [3]⟩
    let shown := xmlSerialize (ConfidentialityLabel.new .nato .unclassified)
    (∃ e, RestEnvelope.wrap echoProvider secret (utf8 "ok") signing = .ok e ∧
      (e.showing shown).verify echoProvider verifying = .ok () ∧
      ¬ (e.showing shown).ShowsSigned echoProvider verifying) ∧
    ∃ b, SmtpHeaderBinding.create echoProvider secret (utf8 "ok") signing = .ok b ∧
      (b.showing shown).verify echoProvider (utf8 "ok") verifying = .ok () ∧
      ¬ (b.showing shown).ShowsSigned echoProvider (utf8 "ok") verifying := by
  let : MarkupEscape := entityEscape
  intro secret signing verifying shown
  have policy : SpifRegistry.withDefaults.validateLabel secret = .ok () :=
    nato_accepts .secret (by decide) [.releasableTo ["USA"]] (by decide)
  have paired : echoProvider.Paired signing verifying := echoProvider_paired _ _ rfl rfl
  obtain ⟨a, created, _, digest, stored, accepted⟩ :=
    AssertionBinding.create_verifies paired policy (utf8 "ok")
  have other : a.signedText ≠ .ok shown := by
    rw [AssertionBinding.signedText, stored]
    intro same
    have secrecy := (xmlSerialize_determines _ _ (Except.ok.inj same)).classification
    cases secrecy
  refine ⟨⟨_, (RestEnvelope.wrap_ok_iff _ _ _ _).mpr ⟨a, created, rfl⟩, ?_, ?_⟩,
    ⟨_, (SmtpHeaderBinding.create_ok_iff _ _ _ _).mpr ⟨a, created, rfl⟩, ?_, ?_⟩⟩
  · exact (RestEnvelope.showing_verify_iff _ _ _).mpr ⟨digest, a, rfl, accepted⟩
  · intro shows
    obtain ⟨_, held, signed⟩ :=
      shows ((RestEnvelope.showing_verify_iff _ _ _).mpr ⟨digest, a, rfl, accepted⟩)
    obtain rfl := Option.some.inj held
    exact other signed
  · exact (SmtpHeaderBinding.showing_verify_iff _ _ _ _).mpr ⟨rfl, accepted⟩
  · intro shows
    exact other (shows ((SmtpHeaderBinding.showing_verify_iff _ _ _ _).mpr ⟨rfl, accepted⟩))

end Shown

end MimStanag
