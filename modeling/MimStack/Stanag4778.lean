import MimStack.Crypto
import MimStack.Spif
import MimStack.Stanag4774.Decoder

/-!
Bindings of a label to a payload. An assertion binding holds the label twice, as
the structure its consumers read and as the text its signature covers.
-/
namespace MimStanag
open ByteText Fallible MarkupText MimLabeling MimSpif MimCrypto

structure BindingSignature where
  algorithm : String
  algorithmUri : String
  keyId : String
  signature : String

structure AssertionBinding where
  label : ConfidentialityLabel
  payloadDigest : String
  signature : BindingSignature
  signedLabelXml : Option String

variable [MarkupEscape] (P : CryptoProvider)

namespace AssertionBinding

def signBinding (labelXml payloadDigest : String) (signingKey : SigningKey) :
    Except LabelError BindingSignature := do
  let signature ← (P.signNmbBinding signingKey (utf8 labelXml) payloadDigest).mapError
    fun e => .binding e.toString
  return ⟨nmbsAlgorithm, nmbsAlgorithmUri, signingKey.keyId, signature⟩

def create (label : ConfidentialityLabel) (payload : Bytes) (signingKey : SigningKey) :
    Except LabelError AssertionBinding := do
  label.validate
  SpifRegistry.withDefaults.validateLabel label
  let payloadDigest := P.sha256Base64 payload
  let labelXml ← serializeXml label
  let signature ← signBinding P labelXml payloadDigest signingKey
  return ⟨label, payloadDigest, signature, some labelXml⟩

/-- The label text the signature is checked over. -/
def signedText (b : AssertionBinding) : Except LabelError String :=
  match b.signedLabelXml with
  | some xml => .ok xml
  | none => serializeXml b.label

def verify (b : AssertionBinding) (payload : Bytes) (verifyingKey : VerifyingKey) :
    Except LabelError Unit := do
  b.label.validate
  SpifRegistry.withDefaults.validateLabel b.label
  if b.payloadDigest ≠ P.sha256Base64 payload then
    throw (.binding "payload digest mismatch — binding integrity failed")
  else if b.signature.keyId ≠ verifyingKey.keyId then
    throw (.binding ("NMBS key id mismatch: expected " ++ verifyingKey.keyId ++ ", got " ++
      b.signature.keyId))
  else
    let labelXml ← b.signedText
    (P.verifyNmbBinding verifyingKey (utf8 labelXml) b.payloadDigest b.signature.signature).mapError
      fun e => .binding e.toString

/-- The checks of `verify`. -/
structure Accepted (b : AssertionBinding) (payload : Bytes) (verifyingKey : VerifyingKey) :
    Prop where
  valid : b.label.validate = .ok ()
  policy : SpifRegistry.withDefaults.validateLabel b.label = .ok ()
  digest : b.payloadDigest = P.sha256Base64 payload
  keyId : b.signature.keyId = verifyingKey.keyId
  signed : ∃ xml, b.signedText = .ok xml ∧
    P.verifyNmbBinding verifyingKey (utf8 xml) b.payloadDigest b.signature.signature = .ok ()

variable {P}

theorem verify_ok_iff (b : AssertionBinding) (payload : Bytes) (key : VerifyingKey) :
    b.verify P payload key = .ok () ↔ b.Accepted P payload key := by
  constructor
  · intro verified
    obtain ⟨valid, verified⟩ := check_ok.mp verified
    obtain ⟨policy, verified⟩ := check_ok.mp verified
    split at verified
    · cases verified
    · rename_i digest
      split at verified
      · cases verified
      · rename_i keyId
        obtain ⟨xml, text, signed⟩ := bind_ok.mp verified
        exact ⟨valid, policy, not_not.mp digest, not_not.mp keyId, xml, text,
          (mapError_ok _ _ _).mp signed⟩
  · rintro ⟨valid, policy, digest, keyId, xml, text, signed⟩
    refine check_ok.mpr ⟨valid, check_ok.mpr ⟨policy, ?_⟩⟩
    rw [if_neg (not_not.mpr digest), if_neg (not_not.mpr keyId)]
    exact bind_ok.mpr ⟨xml, text, (mapError_ok _ _ _).mpr signed⟩

theorem create_ok_iff (label : ConfidentialityLabel) (payload : Bytes) (key : SigningKey)
    (b : AssertionBinding) : create P label payload key = .ok b ↔
      SpifRegistry.withDefaults.validateLabel label = .ok () ∧
      ∃ signature, P.signNmbBinding key (utf8 (xmlSerialize label)) (P.sha256Base64 payload) =
          .ok signature ∧
        b = ⟨label, P.sha256Base64 payload, ⟨nmbsAlgorithm, nmbsAlgorithmUri, key.keyId, signature⟩,
          some (xmlSerialize label)⟩ := by
  constructor
  · intro created
    obtain ⟨_, created⟩ := check_ok.mp created
    obtain ⟨policy, created⟩ := check_ok.mp created
    obtain ⟨xml, text, created⟩ := bind_ok.mp created
    obtain ⟨_, rfl⟩ := serializeXml_ok.mp text
    obtain ⟨bound, signing, created⟩ := bind_ok.mp created
    obtain ⟨signature, signed, built⟩ := bind_ok.mp signing
    obtain rfl := pure_ok.mp built
    exact ⟨policy, signature, (mapError_ok _ _ _).mp signed, (pure_ok.mp created).symm⟩
  · rintro ⟨policy, signature, signed, rfl⟩
    have valid := (accepted_stages policy).1
    refine check_ok.mpr ⟨valid, check_ok.mpr ⟨policy, ?_⟩⟩
    refine bind_ok.mpr ⟨_, serializeXml_ok.mpr ⟨valid, rfl⟩, bind_ok.mpr ⟨_, ?_, rfl⟩⟩
    exact bind_ok.mpr ⟨signature, (mapError_ok _ _ _).mpr signed, rfl⟩

theorem create_accepted {signing : SigningKey} {verifying : VerifyingKey}
    (paired : P.Paired signing verifying) {label : ConfidentialityLabel} {payload : Bytes}
    {b : AssertionBinding} (created : create P label payload signing = .ok b) :
    b.Accepted P payload verifying := by
  obtain ⟨policy, signature, signed, rfl⟩ := (create_ok_iff _ _ _ _).mp created
  obtain ⟨signature', signed', valid⟩ := paired.nmbBinding (utf8 (xmlSerialize label))
    (P.sha256Base64 payload)
  obtain rfl := Except.ok.inj (signed.symm.trans signed')
  exact ⟨(accepted_stages policy).1, policy, rfl, paired.keyId, _, rfl, valid⟩

theorem create_verifies {signing : SigningKey} {verifying : VerifyingKey}
    (paired : P.Paired signing verifying) {label : ConfidentialityLabel}
    (policy : SpifRegistry.withDefaults.validateLabel label = .ok ()) (payload : Bytes) :
    ∃ b, create P label payload signing = .ok b ∧ b.label = label ∧
      b.payloadDigest = P.sha256Base64 payload ∧ b.signedLabelXml = some (xmlSerialize label) ∧
      b.Accepted P payload verifying := by
  obtain ⟨signature, signed, _⟩ := paired.nmbBinding (utf8 (xmlSerialize label))
    (P.sha256Base64 payload)
  have created := (create_ok_iff label payload signing _).mpr ⟨policy, signature, signed, rfl⟩
  exact ⟨_, created, rfl, rfl, rfl, create_accepted paired created⟩

def retouched (l : ConfidentialityLabel) (identifier : String)
    (classification : ClassificationLevel) (categories : List CategoryMarking) :
    ConfidentialityLabel :=
  { l with policy := l.policy.withIdentifier identifier, classification, categories }

def withLabel (b : AssertionBinding) (l : ConfidentialityLabel) : AssertionBinding :=
  { b with label := l }

variable (P) in
/-- A binding that verifies carries the label that was signed, and no other label in its place
verifies. -/
def Authenticates (b : AssertionBinding) (payload : Bytes) (key : VerifyingKey) : Prop :=
  b.verify P payload key = .ok () →
    (∀ l xml, b.signedText = .ok xml → serializeXml l = .ok xml → Agree b.label l) ∧
    ∀ identifier classification categories,
      ¬ Agree (retouched b.label identifier classification categories) b.label →
      ∃ e, (b.withLabel (retouched b.label identifier classification categories)).verify P payload
        key = .error e

theorem authenticates_of_unstored (ideal : P.IdealSignature) {b : AssertionBinding}
    {payload : Bytes} {key : VerifyingKey} (unstored : b.signedLabelXml = none) :
    b.Authenticates P payload key := by
  have textOf : ∀ l, (b.withLabel l).signedText = serializeXml l := by
    intro l
    simp only [signedText, withLabel, unstored]
  intro verified
  obtain ⟨xml, text, signed⟩ := ((verify_ok_iff b payload key).mp verified).signed
  constructor
  · intro l other otherText same
    rw [show b.signedText = _ from textOf b.label] at otherText
    obtain ⟨_, own⟩ := serializeXml_ok.mp otherText
    obtain ⟨_, theirs⟩ := serializeXml_ok.mp same
    exact xmlSerialize_determines _ _ (own.trans theirs.symm)
  · intro identifier classification categories differs
    rcases ok_or_error ((b.withLabel (retouched b.label identifier classification
      categories)).verify P payload key) with verified' | failed
    · obtain ⟨xml', text', signed'⟩ := ((verify_ok_iff _ payload key).mp verified').signed
      have same := utf8_injective (ideal.label_bytes signed' signed)
      rw [textOf] at text'
      rw [show b.signedText = _ from textOf b.label] at text
      have texts := (serializeXml_ok.mp text').2.trans (same.trans (serializeXml_ok.mp text).2.symm)
      exact absurd (xmlSerialize_determines _ _ texts) differs
    · exact failed

theorem withLabel_accepted {b : AssertionBinding} {payload : Bytes} {key : VerifyingKey}
    {xml : String} (stored : b.signedLabelXml = some xml) (accepted : b.Accepted P payload key)
    {l : ConfidentialityLabel} (policy : SpifRegistry.withDefaults.validateLabel l = .ok ()) :
    (b.withLabel l).Accepted P payload key := by
  have text : ∀ l, (b.withLabel l).signedText = .ok xml := by
    intro l
    simp only [signedText, withLabel, stored]
  obtain ⟨xml', text', signed⟩ := accepted.signed
  rw [show b.signedText = _ from text b.label] at text'
  obtain rfl := Except.ok.inj text'
  exact ⟨(accepted_stages policy).1, policy, accepted.digest, accepted.keyId, xml, text l, signed⟩

theorem authenticates_iff (ideal : P.IdealSignature) (b : AssertionBinding) (payload : Bytes)
    (key : VerifyingKey) : b.Authenticates P payload key ↔
      b.signedLabelXml = none ∨ ¬ b.Accepted P payload key := by
  constructor
  · intro authenticates
    cases stored : b.signedLabelXml with
    | none => exact .inl rfl
    | some xml =>
      refine .inr fun accepted => ?_
      obtain ⟨categories, other, policy⟩ := other_categories_accepted accepted.policy
      have rejected := (authenticates ((verify_ok_iff _ _ _).mpr accepted)).2
        b.label.policy.identifier b.label.classification categories
        fun agree => other agree.categories
      obtain ⟨e, failed⟩ := rejected
      have verified := (verify_ok_iff _ _ _).mpr (withLabel_accepted stored accepted policy)
      rw [show retouched b.label b.label.policy.identifier b.label.classification categories =
        { b.label with categories } from rfl, verified] at failed
      cases failed
  · rintro (unstored | refused)
    · exact authenticates_of_unstored ideal unstored
    · intro verified
      exact absurd ((verify_ok_iff _ _ _).mp verified) refused

omit [MarkupEscape] in
theorem secret_binding : letI := entityEscape
    let secret := (ConfidentialityLabel.new .nato .secret).withCategory (.releasableTo ["USA"])
    ∃ b, create echoProvider secret [1, 2] ⟨"nmb", [3]⟩ = .ok b ∧ b.label = secret ∧
      b.signedLabelXml = some (xmlSerialize secret) ∧
      b.Accepted echoProvider [1, 2] ⟨"nmb", [3]⟩ := by
  let : MarkupEscape := entityEscape
  intro secret
  have policy : SpifRegistry.withDefaults.validateLabel secret = .ok () :=
    nato_accepts .secret (by decide) [.releasableTo ["USA"]] (by decide)
  obtain ⟨b, created, own, _, stored, accepted⟩ := create_verifies
    (echoProvider_paired ⟨"nmb", [3]⟩ ⟨"nmb", [3]⟩ rfl rfl) policy [1, 2]
  exact ⟨b, created, own, stored, accepted⟩

omit [MarkupEscape] in
/-- A created binding whose label is lowered afterwards still verifies. -/
theorem lowered_binding_verifies : letI := entityEscape
    let secret := (ConfidentialityLabel.new .nato .secret).withCategory (.releasableTo ["USA"])
    let signing : SigningKey := ⟨"nmb", [3]⟩
    let verifying : VerifyingKey := ⟨"nmb", [3]⟩
    ∃ b, create echoProvider secret [1, 2] signing = .ok b ∧
      b.verify echoProvider [1, 2] verifying = .ok () ∧
      (b.withLabel (retouched b.label "NATO" .unclassified [])).verify echoProvider [1, 2]
        verifying = .ok () ∧
      ¬ b.Authenticates echoProvider [1, 2] verifying := by
  let : MarkupEscape := entityEscape
  intro secret signing verifying
  obtain ⟨b, created, own, stored, accepted⟩ := secret_binding
  have lowered : SpifRegistry.withDefaults.validateLabel
      (retouched b.label "NATO" .unclassified []) = .ok () := by
    rw [own]
    exact nato_accepts .unclassified (by decide) [] (by decide)
  have verified := (verify_ok_iff _ _ _).mpr accepted
  have verified' := (verify_ok_iff _ _ _).mpr (withLabel_accepted stored accepted lowered)
  refine ⟨b, created, verified, verified', fun authenticates => ?_⟩
  obtain ⟨e, failed⟩ := (authenticates verified).2 "NATO" .unclassified [] (fun agree => by
    have secrecy := agree.classification
    rw [own] at secrecy
    cases secrecy)
  rw [verified'] at failed
  cases failed

omit [MarkupEscape] in
theorem authenticates_fixture : letI := entityEscape
    let secret := (ConfidentialityLabel.new .nato .secret).withCategory (.releasableTo ["USA"])
    let signing : SigningKey := ⟨"nmb", [3]⟩
    let verifying : VerifyingKey := ⟨"nmb", [3]⟩
    ∃ b, create echoProvider secret [1, 2] signing = .ok b ∧
      ({ b with signedLabelXml := none } : AssertionBinding).verify echoProvider [1, 2]
        verifying = .ok () ∧
      ({ b with signedLabelXml := none } : AssertionBinding).Authenticates echoProvider [1, 2]
        verifying ∧
      ¬ b.Authenticates echoProvider [1, 2] verifying := by
  let : MarkupEscape := entityEscape
  intro secret signing verifying
  obtain ⟨b, created, own, stored, accepted⟩ := secret_binding
  obtain ⟨xml, text, signed⟩ := accepted.signed
  simp only [signedText, stored, Except.ok.injEq] at text
  refine ⟨b, created, ?_, ?_, ?_⟩
  · refine (verify_ok_iff _ _ _).mpr ⟨accepted.valid, accepted.policy, accepted.digest,
      accepted.keyId, xml, ?_, signed⟩
    exact serializeXml_ok.mpr ⟨accepted.valid, own ▸ text⟩
  · exact (authenticates_iff echoProvider_ideal _ _ _).mpr (.inl rfl)
  · intro authenticates
    rcases (authenticates_iff echoProvider_ideal _ _ _).mp authenticates with absent | refused
    · rw [stored] at absent
      cases absent
    · exact refused accepted

end AssertionBinding

inductive BindingMethod where
  | embedded
  | encapsulated
  | detached
  | assertion
  deriving DecidableEq

inductive BindingProfile where
  | jsonSidecar
  | xmlEmbedded
  | restEnvelope
  | smtpHeader
  | ztdfAssertion
  deriving DecidableEq

structure MetadataBinding where
  method : BindingMethod
  profile : BindingProfile
  labelLocation : String
  dataDigest : Option String

def MetadataBinding.assertionZtdf : MetadataBinding where
  method := .assertion
  profile := .ztdfAssertion
  labelLocation := "assertions[nato-label]"
  dataDigest := none

/-- Resolves a reference to a label kept elsewhere and decodes it. -/
abbrev DetachedLabelResolver := String → Except LabelError ConfidentialityLabel

def verifyDetachedLabel (bindingLabel : ConfidentialityLabel) (labelUri : String)
    (resolver : DetachedLabelResolver) : Except LabelError Unit := do
  let external ← resolver labelUri
  if external.policy.identifier ≠ bindingLabel.policy.identifier ∨
      external.classification ≠ bindingLabel.classification then
    throw (.binding "detached label content does not match binding label")
  else pure ()

structure BindingDataObject where
  binding : MetadataBinding
  label : ConfidentialityLabel
  labelEncoding : String
  payloadDigest : String
  assertion : Option AssertionBinding

namespace BindingDataObject

/-- The labels a binding carries: its own, its assertion's, and any whose text was signed. -/
def Carries (b : BindingDataObject) (l : ConfidentialityLabel) : Prop :=
  l = b.label ∨ ∃ a, b.assertion = some a ∧
    (l = a.label ∨ ∃ xml, a.signedText = .ok xml ∧ serializeXml l = .ok xml)

def assertionBound (label : ConfidentialityLabel) (payload : Bytes) (signingKey : SigningKey) :
    Except LabelError BindingDataObject := do
  label.validate
  let encoded ← serializeXml label
  let assertion ← AssertionBinding.create P label payload signingKey
  return ⟨.assertionZtdf, label, encoded, assertion.payloadDigest, some assertion⟩

def verifyPresent (assertion : Option AssertionBinding) (payload : Bytes)
    (verifyingKey : Option VerifyingKey) : Except LabelError Unit :=
  match assertion with
  | none => pure ()
  | some assertion =>
    match verifyingKey with
    | none => throw (.binding "NMBS assertion present but no verifying key supplied")
    | some key => assertion.verify P payload key

def verifyMethod (b : BindingDataObject) (payload : Bytes) (verifyingKey : Option VerifyingKey)
    (resolver : DetachedLabelResolver) : Except LabelError Unit :=
  match b.binding.method with
  | .assertion =>
    match b.assertion with
    | none => throw (.binding "assertion binding missing assertion block")
    | some assertion =>
      match verifyingKey with
      | none => throw (.binding "assertion binding requires NMBS verifying key")
      | some key => assertion.verify P payload key
  | .detached => do
    verifyDetachedLabel b.label b.binding.labelLocation resolver
    SpifRegistry.withDefaults.validateLabel b.label
  | .embedded | .encapsulated => SpifRegistry.withDefaults.validateLabel b.label

/-- `verify_with_resolver`; `verify` is this with the resolver that reads files. -/
def verify (b : BindingDataObject) (payload : Bytes) (verifyingKey : Option VerifyingKey)
    (resolver : DetachedLabelResolver) : Except LabelError Unit := do
  b.label.validate
  let digest := P.sha256Base64 payload
  if b.payloadDigest ≠ digest then
    throw (.binding "payload digest mismatch for binding profile")
  else if b.binding.dataDigest.any (· ≠ digest) then
    throw (.binding "metadata binding data digest mismatch")
  else
    verifyPresent P b.assertion payload verifyingKey
    verifyMethod P b payload verifyingKey resolver

/-- The checks of `verify` on an assertion binding. -/
structure Accepted (b : BindingDataObject) (payload : Bytes) (key : VerifyingKey) : Prop where
  valid : b.label.validate = .ok ()
  digest : b.payloadDigest = P.sha256Base64 payload
  dataDigest : ∀ d, b.binding.dataDigest = some d → d = P.sha256Base64 payload
  assertion : ∃ a, b.assertion = some a ∧ a.Accepted P payload key

variable {P}

theorem verify_stages_iff (b : BindingDataObject) (payload : Bytes) (key : Option VerifyingKey)
    (resolver : DetachedLabelResolver) : b.verify P payload key resolver = .ok () ↔
      b.label.validate = .ok () ∧ b.payloadDigest = P.sha256Base64 payload ∧
      (∀ d, b.binding.dataDigest = some d → d = P.sha256Base64 payload) ∧
      verifyPresent P b.assertion payload key = .ok () ∧
      verifyMethod P b payload key resolver = .ok () := by
  have digests : b.binding.dataDigest.any (· ≠ P.sha256Base64 payload) = true ↔
      ¬ ∀ d, b.binding.dataDigest = some d → d = P.sha256Base64 payload := by
    cases b.binding.dataDigest <;> simp
  constructor
  · intro verified
    obtain ⟨valid, verified⟩ := check_ok.mp verified
    simp only at verified
    split at verified
    · cases verified
    · rename_i digest
      split at verified
      · cases verified
      · rename_i dataDigest
        obtain ⟨present, method⟩ := check_ok.mp verified
        exact ⟨valid, not_not.mp digest, not_not.mp fun bad => dataDigest (digests.mpr bad),
          present, method⟩
  · rintro ⟨valid, digest, dataDigest, present, method⟩
    refine check_ok.mpr ⟨valid, ?_⟩
    simp only
    rw [if_neg (not_not.mpr digest), if_neg fun bad => digests.mp bad dataDigest]
    exact check_ok.mpr ⟨present, method⟩

theorem verify_ok_iff {b : BindingDataObject} (assertion : b.binding.method = .assertion)
    (payload : Bytes) (key : VerifyingKey) (resolver : DetachedLabelResolver) :
    b.verify P payload (some key) resolver = .ok () ↔ b.Accepted P payload key := by
  have stages : verifyPresent P b.assertion payload (some key) = .ok () ∧
      verifyMethod P b payload (some key) resolver = .ok () ↔
      ∃ a, b.assertion = some a ∧ a.Accepted P payload key := by
    rw [verifyMethod, assertion]
    cases b.assertion with
    | none => simp [throw_ok]
    | some a => simp [verifyPresent, AssertionBinding.verify_ok_iff]
  rw [verify_stages_iff, stages]
  constructor
  · rintro ⟨valid, digest, dataDigest, signed⟩
    exact ⟨valid, digest, dataDigest, signed⟩
  · rintro ⟨valid, digest, dataDigest, signed⟩
    exact ⟨valid, digest, dataDigest, signed⟩

theorem assertionBound_ok_iff (label : ConfidentialityLabel) (payload : Bytes) (key : SigningKey)
    (b : BindingDataObject) : assertionBound P label payload key = .ok b ↔
      ∃ a, AssertionBinding.create P label payload key = .ok a ∧
        b = ⟨.assertionZtdf, label, xmlSerialize label, a.payloadDigest, some a⟩ := by
  constructor
  · intro bound
    obtain ⟨_, valid, bound⟩ := bind_ok.mp bound
    obtain ⟨encoded, text, bound⟩ := bind_ok.mp bound
    obtain ⟨a, created, bound⟩ := bind_ok.mp bound
    obtain ⟨_, rfl⟩ := serializeXml_ok.mp text
    exact ⟨a, created, (pure_ok.mp bound).symm⟩
  · rintro ⟨a, created, rfl⟩
    have valid := (accepted_stages ((AssertionBinding.create_ok_iff _ _ _ _).mp created).1).1
    exact bind_ok.mpr ⟨(), valid, bind_ok.mpr ⟨_, serializeXml_ok.mpr ⟨valid, rfl⟩,
      bind_ok.mpr ⟨a, created, rfl⟩⟩⟩

theorem assertionBound_verifies {signing : SigningKey} {verifying : VerifyingKey}
    (paired : P.Paired signing verifying) {label : ConfidentialityLabel}
    (policy : SpifRegistry.withDefaults.validateLabel label = .ok ()) (payload : Bytes) :
    ∃ b a, assertionBound P label payload signing = .ok b ∧ b.binding.method = .assertion ∧
      b.label = label ∧ b.assertion = some a ∧ a.label = label ∧
      a.payloadDigest = P.sha256Base64 payload ∧ a.signedLabelXml = some (xmlSerialize label) ∧
      b.Accepted P payload verifying := by
  obtain ⟨a, created, own, digest, stored, accepted⟩ :=
    AssertionBinding.create_verifies paired policy payload
  refine ⟨_, a, (assertionBound_ok_iff _ _ _ _).mpr ⟨a, created, rfl⟩, rfl, rfl, rfl, own, digest,
    stored, ?_⟩
  exact ⟨(accepted_stages policy).1, digest, nofun, a, rfl, accepted⟩

end BindingDataObject

structure RestEnvelope where
  metadataBinding : MetadataBinding
  originatorConfidentialityLabel : String
  payloadDigest : String
  payload : String
  assertion : Option AssertionBinding

namespace RestEnvelope

def wrap (label : ConfidentialityLabel) (payload : Bytes) (signingKey : SigningKey) :
    Except LabelError RestEnvelope := do
  label.validate
  let labelXml ← serializeXml label
  let assertion ← AssertionBinding.create P label payload signingKey
  let text ← (fromUtf8 payload).mapError .serialization
  return {
    metadataBinding := ⟨.assertion, .restEnvelope, "X-NATO-Confidentiality-Label",
      some assertion.payloadDigest⟩
    originatorConfidentialityLabel := labelXml
    payloadDigest := assertion.payloadDigest
    payload := text
    assertion := some assertion }

def verify (e : RestEnvelope) (verifyingKey : VerifyingKey) : Except LabelError Unit :=
  if e.payloadDigest ≠ P.sha256Base64 (utf8 e.payload) then
    throw (.binding "REST envelope payload digest mismatch")
  else
    match e.assertion with
    | none => throw (.binding "REST envelope requires NMBS assertion binding")
    | some assertion => assertion.verify P (utf8 e.payload) verifyingKey

def SignsText (e : RestEnvelope) (text : String) : Prop :=
  ∃ a, e.assertion = some a ∧ a.signedText = .ok text

def Signs (R : MarkupReader) (readTime : TimeReader) (e : RestEnvelope)
    (l : ConfidentialityLabel) : Prop :=
  ∃ text, e.SignsText text ∧ xmlDeserialize R readTime text = .ok l

variable {P}

theorem signs_unique {R : MarkupReader} {readTime : TimeReader} {e : RestEnvelope}
    {a b : ConfidentialityLabel} (one : e.Signs R readTime a) (other : e.Signs R readTime b) :
    a = b := by
  obtain ⟨_, ⟨assertion, held, text⟩, decoded⟩ := one
  obtain ⟨_, ⟨assertion', held', text'⟩, decoded'⟩ := other
  obtain rfl := Option.some.inj (held.symm.trans held')
  obtain rfl := Except.ok.inj (text.symm.trans text')
  exact Except.ok.inj (decoded.symm.trans decoded')

theorem verify_ok_iff (e : RestEnvelope) (key : VerifyingKey) :
    e.verify P key = .ok () ↔ e.payloadDigest = P.sha256Base64 (utf8 e.payload) ∧
      ∃ a, e.assertion = some a ∧ a.Accepted P (utf8 e.payload) key := by
  unfold verify
  by_cases digest : e.payloadDigest = P.sha256Base64 (utf8 e.payload)
  · rw [if_neg (not_not.mpr digest)]
    cases assertion : e.assertion with
    | none => simp [throw_ok]
    | some a => simp [digest, AssertionBinding.verify_ok_iff]
  · rw [if_pos digest]
    simp [digest, throw_ok]

theorem wrap_ok_iff (label : ConfidentialityLabel) (text : String) (key : SigningKey)
    (e : RestEnvelope) : wrap P label (utf8 text) key = .ok e ↔
      ∃ a, AssertionBinding.create P label (utf8 text) key = .ok a ∧
        e = ⟨⟨.assertion, .restEnvelope, "X-NATO-Confidentiality-Label", some a.payloadDigest⟩,
          xmlSerialize label, a.payloadDigest, text, some a⟩ := by
  constructor
  · intro wrapped
    obtain ⟨_, wrapped⟩ := check_ok.mp wrapped
    obtain ⟨xml, labelled, wrapped⟩ := bind_ok.mp wrapped
    obtain ⟨_, rfl⟩ := serializeXml_ok.mp labelled
    obtain ⟨a, created, wrapped⟩ := bind_ok.mp wrapped
    obtain ⟨text', read, wrapped⟩ := bind_ok.mp wrapped
    obtain rfl := Except.ok.inj ((fromUtf8_utf8 text).symm.trans ((mapError_ok _ _ _).mp read))
    exact ⟨a, created, (pure_ok.mp wrapped).symm⟩
  · rintro ⟨a, created, rfl⟩
    have valid := (accepted_stages ((AssertionBinding.create_ok_iff _ _ _ _).mp created).1).1
    refine check_ok.mpr ⟨valid, bind_ok.mpr ⟨_, serializeXml_ok.mpr ⟨valid, rfl⟩, ?_⟩⟩
    refine bind_ok.mpr ⟨a, created, bind_ok.mpr ⟨text, ?_, rfl⟩⟩
    exact (mapError_ok _ _ _).mpr (fromUtf8_utf8 text)

theorem wrap_verifies {signing : SigningKey} {verifying : VerifyingKey}
    (paired : P.Paired signing verifying) {label : ConfidentialityLabel}
    (policy : SpifRegistry.withDefaults.validateLabel label = .ok ()) (text : String) :
    ∃ e a, wrap P label (utf8 text) signing = .ok e ∧ e.assertion = some a ∧ e.payload = text ∧
      e.originatorConfidentialityLabel = xmlSerialize label ∧
      a.signature.keyId = verifying.keyId ∧ e.verify P verifying = .ok () ∧
      e.SignsText (xmlSerialize label) := by
  obtain ⟨a, created, _, digest, stored, accepted⟩ :=
    AssertionBinding.create_verifies paired policy (utf8 text)
  refine ⟨_, a, (wrap_ok_iff _ _ _ _).mpr ⟨a, created, rfl⟩, rfl, rfl, rfl, accepted.keyId, ?_, ?_⟩
  · exact (verify_ok_iff _ _).mpr ⟨digest, a, rfl, accepted⟩
  · exact ⟨a, rfl, by simp only [AssertionBinding.signedText, stored]⟩

end RestEnvelope

end MimStanag
