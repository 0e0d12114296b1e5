import MimStack.Stanag4778
import MimStack.Trail.Envelope

/-!
One key signs audit records and label bindings. The two kinds of message are
told apart by their text alone, and the text of a binding comes with the binding.
-/
namespace MimAudit.Trail
open ByteText Fallible MarkupText MimCrypto MimLabeling MimSpif MimStanag

variable {P : CryptoProvider} {signing : SigningKey} {verifying : VerifyingKey}

def auditContext : String := "audit-record"

namespace AuditEnvelope

def signedMessage (e : AuditEnvelope) : String := auditContext ++ "|" ++ e.recordHash

def withSignature (e : AuditEnvelope) (s : AuditSignature) : AuditEnvelope :=
  { e with signature := some s }

theorem sign_valid (paired : P.Paired signing verifying) (e : AuditEnvelope) :
    ∃ signature, e.sign P signing =
        .ok (e.withSignature ⟨nmbsAlgorithm, signing.keyId, signature⟩) ∧
      P.verifyNmbBinding verifying (utf8 auditContext) e.recordHash signature = .ok () := by
  obtain ⟨signature, signed, valid⟩ := paired.nmbBinding (utf8 auditContext) e.recordHash
  exact ⟨signature, bind_ok.mpr ⟨signature, (mapError_ok _ _ _).mpr signed, rfl⟩, valid⟩

theorem verifySignature_withSignature (e : AuditEnvelope) (s : AuditSignature)
    (key : VerifyingKey) : (e.withSignature s).verifySignature P key = .ok () ↔
      s.keyId = key.keyId ∧
        P.verifyNmbBinding key (utf8 auditContext) e.recordHash s.signature = .ok () := by
  simp only [verifySignature, withSignature]
  by_cases named : s.keyId = key.keyId
  · rw [if_neg (not_not.mpr named), mapError_ok]
    exact (and_iff_right named).symm
  · rw [if_pos named]
    refine ⟨fun failed => ?_, fun accepted => absurd accepted.1 named⟩
    cases failed

end AuditEnvelope

def bearing (b : AssertionBinding) (signature : String) : AssertionBinding :=
  { b with signature := { b.signature with signature } }

/-- The text a binding says was signed, with its payload digest, reads as the message of the
envelope. -/
def Imitates (b : AssertionBinding) (e : AuditEnvelope) : Prop :=
  ∃ text, b.signedLabelXml = some text ∧ text ++ "|" ++ b.payloadDigest = e.signedMessage

theorem label_message_ne [MarkupEscape] (l : ConfidentialityLabel) (digest : String)
    (e : AuditEnvelope) : xmlSerialize l ++ "|" ++ digest ≠ e.signedMessage := by
  intro same
  obtain ⟨rest, start⟩ := xmlSerialize_start l
  have chars := congrArg String.toList same
  simp only [AuditEnvelope.signedMessage, auditContext, String.toList_append, start] at chars
  cases chars

theorem one_text (ideal : P.IdealSignature) {a b digest digest' signature : String}
    (first : P.verifyNmbBinding verifying (utf8 a) digest signature = .ok ())
    (second : P.verifyNmbBinding verifying (utf8 b) digest' signature = .ok ()) :
    a ++ "|" ++ digest = b ++ "|" ++ digest' := by
  have same := ideal.nmbMessage_eq first second
  rw [nmbMessage_text, nmbMessage_text] at same
  exact utf8_injective same

variable [MarkupEscape]

theorem bearing_accepted_iff (ideal : P.IdealSignature) {e : AuditEnvelope} {signature : String}
    (valid : P.verifyNmbBinding verifying (utf8 auditContext) e.recordHash signature = .ok ())
    (b : AssertionBinding) (payload : Bytes) :
    (bearing b signature).Accepted P payload verifying ↔
      Imitates b e ∧ b.label.validate = .ok () ∧
        SpifRegistry.withDefaults.validateLabel b.label = .ok () ∧
        b.payloadDigest = P.sha256Base64 payload ∧ b.signature.keyId = verifying.keyId := by
  constructor
  · rintro ⟨labelled, policy, digest, keyId, xml, text, signed⟩
    have same : xml ++ "|" ++ b.payloadDigest = e.signedMessage := one_text ideal signed valid
    refine ⟨?_, labelled, policy, digest, keyId⟩
    cases stored : b.signedLabelXml with
    | some own =>
      simp only [bearing, AssertionBinding.signedText, stored, Except.ok.injEq] at text
      exact ⟨own, stored, text ▸ same⟩
    | none =>
      simp only [bearing, AssertionBinding.signedText, stored] at text
      obtain ⟨_, rfl⟩ := serializeXml_ok.mp text
      exact absurd same (label_message_ne b.label b.payloadDigest e)
  · rintro ⟨⟨text, stored, same⟩, labelled, policy, digest, keyId⟩
    refine ⟨labelled, policy, digest, keyId, text, ?_, ?_⟩
    · simp only [bearing, AssertionBinding.signedText, stored]
    · have message : nmbMessage (utf8 text) b.payloadDigest =
          nmbMessage (utf8 auditContext) e.recordHash := by
        rw [nmbMessage_text, nmbMessage_text, same]
        rfl
      exact (congrArg (fun m => (P.base64Decode signature).mapError CryptoError.operation >>=
        P.verifyRsaPssSha256 verifying m) message).trans valid

theorem created_signature_refused (ideal : P.IdealSignature) (paired : P.Paired signing verifying)
    {label : ConfidentialityLabel} {content : Bytes} {made : AssertionBinding}
    (created : AssertionBinding.create P label content signing = .ok made) (e : AuditEnvelope)
    {s : AuditSignature} (taken : s.signature = made.signature.signature) :
    (e.withSignature s).verifySignature P verifying ≠ .ok () := by
  intro verified
  obtain ⟨_, asEnvelope⟩ := (e.verifySignature_withSignature s verifying).mp verified
  obtain ⟨xml, text, asBinding⟩ := (AssertionBinding.create_accepted paired created).signed
  obtain ⟨_, _, _, rfl⟩ := (AssertionBinding.create_ok_iff _ _ _ _).mp created
  simp only [AssertionBinding.signedText, Except.ok.injEq] at text
  subst text
  rw [taken] at asEnvelope
  exact label_message_ne label _ e (one_text ideal asBinding asEnvelope)

variable (P) (signing) (verifying) in
/-- The signature of an envelope is accepted in no binding, and that of a binding in no
envelope. -/
structure ContextsDisjoint (e : AuditEnvelope) (b : AssertionBinding) (payload : Bytes) : Prop where
  audit_refused : ∀ signed s, e.sign P signing = .ok signed → signed.signature = some s →
    (bearing b s.signature).verify P payload verifying ≠ .ok ()
  binding_refused : ∀ label content made s,
    AssertionBinding.create P label content signing = .ok made →
    s.signature = made.signature.signature →
    (e.withSignature s).verifySignature P verifying ≠ .ok ()

/-- Which envelopes and bindings the two contexts keep apart. -/
theorem contexts_disjoint_iff (ideal : P.IdealSignature) (paired : P.Paired signing verifying)
    (e : AuditEnvelope) (b : AssertionBinding) (payload : Bytes) :
    ContextsDisjoint P signing verifying e b payload ↔
      ¬ (Imitates b e ∧ b.label.validate = .ok () ∧
        SpifRegistry.withDefaults.validateLabel b.label = .ok () ∧
        b.payloadDigest = P.sha256Base64 payload ∧ b.signature.keyId = verifying.keyId) := by
  obtain ⟨signature, signed, valid⟩ := AuditEnvelope.sign_valid paired e
  rw [← bearing_accepted_iff ideal valid b payload, ← AssertionBinding.verify_ok_iff]
  constructor
  · intro disjoint accepted
    exact disjoint.audit_refused _ _ signed rfl accepted
  · intro refused
    constructor
    · intro other s done taken
      obtain rfl := Except.ok.inj (signed.symm.trans done)
      obtain rfl := Option.some.inj taken
      exact refused
    · intro label content made s created taken
      exact created_signature_refused ideal paired created e taken

section Forged

def releaseRecord : StampedRecord where
  eventKind := .crossDomainTransfer
  subjectId := "cds-guard"
  sourceDomain := some ⟨"HIGH"⟩
  targetDomain := some ⟨"LOW"⟩
  originalLabel := .new .nato .unclassified
  policyRuleId := "cds-transfer"
  decision := "allow"
  reason := "released"
  id := "0b6f2f3e-52a1-4d57-8f0e-6a1d9c3b7e10"
  timestamp := ⟨"2024-06-01T10:00:00Z"⟩

def chainedBytes (r : StampedRecord) : Bytes :=
  utf8 (genesis ++ "|" ++ (recordValue r).toText)

def imitation (r : StampedRecord) : AssertionBinding where
  label := .new .nato .unclassified
  payloadDigest := echoProvider.sha256Base64 (chainedBytes r)
  signature := ⟨nmbsAlgorithm, nmbsAlgorithmUri, "nmb", ""⟩
  signedLabelXml := some auditContext

omit [MarkupEscape] in
/-- The signature of an audit record, put into a binding, makes a label verify that nobody
signed. -/
theorem audit_signature_verifies_label : letI := entityEscape
    let signing : SigningKey := ⟨"nmb", [3]⟩
    let verifying : VerifyingKey := ⟨"nmb", [3]⟩
    let e := AuditEnvelope.sealed echoProvider releaseRecord genesis
    ∃ signed s, e.sign echoProvider signing = .ok signed ∧ signed.signature = some s ∧
      (bearing (imitation releaseRecord) s.signature).verify echoProvider
        (chainedBytes releaseRecord) verifying = .ok () ∧
      ¬ ContextsDisjoint echoProvider signing verifying e (imitation releaseRecord)
        (chainedBytes releaseRecord) := by
  let : MarkupEscape := entityEscape
  intro signing verifying e
  obtain ⟨signature, signed, valid⟩ :=
    AuditEnvelope.sign_valid (echoProvider_paired signing verifying rfl rfl) e
  have policy : SpifRegistry.withDefaults.validateLabel (imitation releaseRecord).label = .ok () :=
    nato_accepts .unclassified (by decide) [] (by decide)
  have imitates : Imitates (imitation releaseRecord) e := ⟨auditContext, rfl, rfl⟩
  have accepted := (bearing_accepted_iff echoProvider_ideal valid (imitation releaseRecord)
    (chainedBytes releaseRecord)).mpr ⟨imitates, (accepted_stages policy).1, policy, rfl, rfl⟩
  have verified := (AssertionBinding.verify_ok_iff _ _ _).mpr accepted
  refine ⟨_, _, signed, rfl, verified, fun disjoint => ?_⟩
  exact disjoint.audit_refused _ _ signed rfl verified

omit [MarkupEscape] in
theorem contexts_disjoint_fixture : letI := entityEscape
    let signing : SigningKey := ⟨"nmb", [3]⟩
    let verifying : VerifyingKey := ⟨"nmb", [3]⟩
    let e := AuditEnvelope.sealed echoProvider releaseRecord genesis
    ContextsDisjoint echoProvider signing verifying e
      { imitation releaseRecord with signedLabelXml := none } (chainedBytes releaseRecord) := by
  let : MarkupEscape := entityEscape
  intro signing verifying e
  refine (contexts_disjoint_iff echoProvider_ideal
    (echoProvider_paired signing verifying rfl rfl) e _ _).mpr ?_
  rintro ⟨⟨text, stored, _⟩, _⟩
  cases stored

end Forged

end MimAudit.Trail
