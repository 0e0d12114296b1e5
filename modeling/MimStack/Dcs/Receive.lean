import MimStack.Dcs.Guard
import MimStack.Stanag4774.RoundTrip
import MimStack.Ztdf

/-!
Receiving a package in the target domain. Access is decided on the label of the
manifest's JSON value, the signature is checked over the label text beside it.
-/
namespace MimDcs
open ByteText Fallible MarkupText MimLabeling MimPolicy MimAudit MimCrypto MimStanag MimZtdf
open ZtdfPackage (Opened sealedPackage reassembled fromZipSealed)

variable [MarkupEscape] (P : CryptoProvider) (z : ZipFormat) (readTime : TimeReader) {σ : Type}

/-- What a receiver brings. -/
structure Reception (σ : Type) where
  subject : SubjectAttributes
  guard : CrossDomainGuard σ
  zip : Bytes
  nmbVerifyingKey : VerifyingKey
  kas : KasClient
  audit : AuditLog σ

namespace Reception

def evaluateRecord (r : Reception σ) (label : ConfidentialityLabel) : AuditRecord where
  eventKind := .crossDomainEvaluate
  subjectId := r.subject.subjectId
  sourceDomain := some r.guard.source.id
  targetDomain := some r.guard.target.id
  originalLabel := label
  policyRuleId := "ztdf-decrypt-pep"
  decision := "evaluate"
  reason := "target-side ZTDF decrypt PEP evaluation"

def transferRecord (r : Reception σ) (label : ConfidentialityLabel) (plaintext : Bytes) :
    AuditRecord where
  eventKind := .crossDomainTransfer
  subjectId := r.subject.subjectId
  sourceDomain := some r.guard.source.id
  targetDomain := some r.guard.target.id
  originalLabel := label
  policyRuleId := "ztdf-decrypt-pep"
  decision := "allow"
  reason := "target-side ZTDF decrypted through PEP gate"
  payloadDigest := some (P.sha256Base64 plaintext)

def receiveZtdfOnTarget (r : Reception σ) : Effect LabelError σ String := do
  let package ← Effect.ofExcept (fromZipSealed z readTime r.zip)
  let label ← Effect.ofExcept (package.manifest.label readTime)
  recordAudit r.audit (r.evaluateRecord label) r.guard.accredited
  let plaintext ← package.decryptWithPolicy P readTime r.subject r.guard.pep r.guard.target r.kas
  Effect.ofExcept (package.verifyBindingPlaintext P readTime plaintext r.nmbVerifyingKey)
  recordAudit r.audit (r.transferRecord P label plaintext) r.guard.accredited
  Effect.ofExcept ((fromUtf8 plaintext).mapError .crossDomain)

/-- The state after the enforcement point noted its decision. -/
def noted (r : Reception σ) (label : ConfidentialityLabel) (decision : PolicyDecision) (s : σ) : σ :=
  r.guard.pep.noted (AuditedPep.accessRecord r.subject label r.guard.target decision)
    (r.audit.record (r.evaluateRecord label) s).2

structure Admits (r : Reception σ) (s : σ) (manifest : ZtdfManifest) (payload : Bytes)
    (assertion : ZtdfAssertion) (label : ConfidentialityLabel) (decision : PolicyDecision)
    (plaintext : Bytes) (text : String) : Prop where
  opened : Opened z readTime r.zip manifest payload assertion label
  evaluated : Recorded r.audit (r.evaluateRecord label) r.guard.accredited s
  permitted : r.guard.pep.pep.enforceAccess r.subject label .read r.guard.target = .ok decision
  decrypted : (sealedPackage manifest payload assertion label).decryptWithKas P r.kas = .ok plaintext
  signed : (reassembled assertion label (P.sha256Base64 plaintext)).Accepted P plaintext
    r.nmbVerifyingKey
  recorded : Recorded r.audit (r.transferRecord P label plaintext) r.guard.accredited
    (r.noted label decision s)
  text : fromUtf8 plaintext = .ok text

variable {P z readTime}

theorem receive_yields {r : Reception σ} {s s' : σ} {text : String} :
    (r.receiveZtdfOnTarget P z readTime).Yields s text s' ↔
      ∃ manifest payload assertion label decision plaintext,
        r.Admits P z readTime s manifest payload assertion label decision plaintext text ∧
        s' = (r.audit.record (r.transferRecord P label plaintext) (r.noted label decision s)).2 := by
  constructor
  · intro yields
    obtain ⟨package, _, opening, rest⟩ := Effect.yields_bind.mp yields
    obtain ⟨sealing, rfl⟩ := Effect.yields_ofExcept.mp opening
    obtain ⟨manifest, payload, assertion, label, opened, rfl⟩ :=
      ZtdfPackage.fromZipSealed_ok_iff.mp sealing
    have decoded := (ZtdfManifest.label_ok opened.found).mpr opened.decoded
    obtain ⟨label', _, labelling, rest₁⟩ := Effect.yields_bind.mp rest
    obtain ⟨decoded', rfl⟩ := Effect.yields_ofExcept.mp labelling
    obtain rfl := Except.ok.inj (decoded.symm.trans decoded')
    obtain ⟨_, recording, rest₂⟩ := Effect.yields_then.mp rest₁
    obtain ⟨evaluated, rfl⟩ := recordAudit_yields.mp recording
    obtain ⟨plaintext, _, decrypting, rest₃⟩ := Effect.yields_bind.mp rest₂
    obtain ⟨label', decision, again, permitted, decrypted, rfl⟩ :=
      ZtdfPackage.decryptWithPolicy_yields.mp decrypting
    obtain rfl := Except.ok.inj (decoded.symm.trans again)
    obtain ⟨_, verifying, last⟩ := Effect.yields_then.mp rest₃
    obtain ⟨verified, rfl⟩ := Effect.yields_ofExcept.mp verifying
    obtain ⟨_, recording', reading⟩ := Effect.yields_then.mp last
    obtain ⟨recorded, rfl⟩ := recordAudit_yields.mp recording'
    obtain ⟨read, rfl⟩ := Effect.yields_ofExcept.mp reading
    exact ⟨manifest, payload, assertion, label, decision, plaintext, ⟨opened, evaluated, permitted,
      decrypted, (ZtdfPackage.sealed_verify_iff opened.found opened.decoded _ _).mp verified,
      recorded, (mapError_ok _ _ _).mp read⟩, rfl⟩
  · rintro ⟨manifest, payload, assertion, label, decision, plaintext, admits, rfl⟩
    have opened := admits.opened
    have decoded := (ZtdfManifest.label_ok opened.found).mpr opened.decoded
    refine Effect.yields_bind.mpr ⟨sealedPackage manifest payload assertion label, s,
      Effect.yields_ofExcept.mpr ⟨ZtdfPackage.fromZipSealed_ok_iff.mpr
        ⟨manifest, payload, assertion, label, opened, rfl⟩, rfl⟩, ?_⟩
    refine Effect.yields_bind.mpr ⟨label, s, Effect.yields_ofExcept.mpr ⟨decoded, rfl⟩, ?_⟩
    refine Effect.yields_then.mpr ⟨_, recordAudit_yields.mpr ⟨admits.evaluated, rfl⟩, ?_⟩
    refine Effect.yields_bind.mpr ⟨plaintext, _, ZtdfPackage.decryptWithPolicy_yields.mpr
      ⟨label, decision, decoded, admits.permitted, admits.decrypted, rfl⟩, ?_⟩
    refine Effect.yields_then.mpr ⟨_, Effect.yields_ofExcept.mpr
      ⟨(ZtdfPackage.sealed_verify_iff opened.found opened.decoded _ _).mpr admits.signed, rfl⟩, ?_⟩
    refine Effect.yields_then.mpr ⟨_, recordAudit_yields.mpr ⟨admits.recorded, rfl⟩, ?_⟩
    exact Effect.yields_ofExcept.mpr ⟨(mapError_ok _ _ _).mpr admits.text, rfl⟩

theorem receive_created {r : Reception σ} {s : σ} {label l back : ConfidentialityLabel}
    {text : String}
    {signing kasSigningKey : SigningKey} {verifyingKey kasPublicKey : VerifyingKey}
    {encrypted : AesGcmCiphertext} {wrapped : Bytes} {a : ZtdfAssertion} {p : ZtdfPackage}
    (created : ZtdfPackage.Created P label (utf8 text) signing verifyingKey kasPublicKey encrypted
      wrapped a p)
    (paired : P.Paired signing r.nmbVerifyingKey)
    (unsealing : ZtdfPackage.Unseals P kasSigningKey kasPublicKey)
    (kas : r.kas = localKasClient P kasSigningKey)
    (entries : z.readZipEntries r.zip = .ok (p.manifest.relabelled l, p.encryptedPayload))
    (policy : MimSpif.SpifRegistry.withDefaults.validateLabel l = .ok ())
    (decoded : deserializeJson readTime (toJsonValue l) = .ok back)
    (granted : ∃ decision,
      r.guard.pep.pep.enforceAccess r.subject l .read r.guard.target = .ok decision)
    (recorded : ∀ record s, Recorded r.audit record r.guard.accredited s) :
    ∃ s', (r.receiveZtdfOnTarget P z readTime).Yields s text s' := by
  have valid := (MimSpif.accepted_stages policy).1
  have agree := json_decoded_agrees valid decoded
  obtain ⟨decision, permitted⟩ := enforceAccess_congr (by decide) agree.classification.symm
    agree.categories.symm (deserializeJson_valid decoded) granted
  have decrypted := ZtdfPackage.create_decrypts unsealing created
  refine ⟨_, receive_yields.mpr ⟨_, _, _, _, decision, utf8 text,
    ⟨ZtdfPackage.opened_relabelled created entries decoded, recorded _ _, permitted, ?_,
      ZtdfPackage.accepted_relabelled created paired (ZtdfPackage.validateLabel_decoded decoded policy),
      recorded _ _, fromUtf8_utf8 text⟩, rfl⟩⟩
  rw [kas, ZtdfPackage.decrypts_sealed]
  exact decrypted

variable (P z readTime) in
/-- Whenever a plaintext is handed out, the label that access was decided on agrees with the one
that the text covered by the package's signature encodes. -/
def UsesSignedLabel (R : MarkupReader) (r : Reception σ) (s : σ) : Prop :=
  ∀ text s', (r.receiveZtdfOnTarget P z readTime).Yields s text s' →
    ∀ package label assertion, fromZipSealed z readTime r.zip = .ok package →
      package.manifest.label readTime = .ok label →
      package.manifest.natoLabelAssertion = some assertion →
      ∃ l, xmlDeserialize R readTime assertion.signedLabelXml = .ok l ∧ Agree label l

variable (P z readTime) in
def Admitted (r : Reception σ) (s : σ) : Prop :=
  ∃ manifest payload assertion label decision plaintext text,
    r.Admits P z readTime s manifest payload assertion label decision plaintext text

variable (z readTime) in
/-- The signed text of the archive encodes a label, and its two labels agree. -/
def Consistent (R : MarkupReader) (r : Reception σ) : Prop :=
  ∀ manifest payload assertion label, Opened z readTime r.zip manifest payload assertion label →
    ∃ l, xmlDeserialize R readTime assertion.signedLabelXml = .ok l ∧ Agree label l

theorem usesSignedLabel_iff (R : MarkupReader) (r : Reception σ) (s : σ) :
    r.UsesSignedLabel P z readTime R s ↔
      r.Consistent z readTime R ∨ ¬ r.Admitted P z readTime s := by
  constructor
  · intro uses
    by_cases admitted : r.Admitted P z readTime s
    · obtain ⟨manifest, payload, assertion, label, decision, plaintext, text, admits⟩ := admitted
      have yields := receive_yields.mpr ⟨manifest, payload, assertion, label, decision, plaintext,
        admits, rfl⟩
      refine .inl fun m p a l opened => ?_
      have sealing := ZtdfPackage.fromZipSealed_ok_iff.mpr ⟨m, p, a, l, opened, rfl⟩
      exact uses text _ yields _ l a sealing
        ((ZtdfManifest.label_ok opened.found).mpr opened.decoded) opened.found
    · exact .inr admitted
  · rintro (consistent | refused) text s' yields package label assertion sealing decoded found
    · obtain ⟨m, p, a, l', opened, rfl⟩ := ZtdfPackage.fromZipSealed_ok_iff.mp sealing
      obtain rfl := Option.some.inj (opened.found.symm.trans found)
      obtain rfl := Except.ok.inj
        (((ZtdfManifest.label_ok opened.found).mpr opened.decoded).symm.trans decoded)
      exact consistent m p a l' opened
    · obtain ⟨m, p, a, l', decision, plaintext, admits, _⟩ := receive_yields.mp yields
      exact absurd ⟨m, p, a, l', decision, plaintext, text, admits⟩ refused

omit [MarkupEscape] in
/-- A secret package whose JSON label says unclassified is handed to an uncleared subject. -/
theorem lowered_manifest_received : letI := entityEscape
    let guard : CrossDomainGuard Unit := .new
      { id := ⟨"HIGH"⟩, name := "High", maxClassification := .secret }
      { id := ⟨"LOW"⟩, name := "Low", maxClassification := .secret }
    let secret := (ConfidentialityLabel.new .nato .secret).withCategory (.releasableTo ["USA"])
    let lowered := ConfidentialityLabel.new .nato .unclassified
    let subject : SubjectAttributes := { subjectId := "visitor", clearance := .unclassified }
    let readTime : TimeReader := fun s => .error s
    let resolver : DetachedLabelResolver := fun uri => .error (.parse uri)
    ∃ p z, ZtdfPackage.create echoProvider resolver secret (utf8 "m") ⟨"nmb", [3]⟩ ⟨"nmb", [3]⟩
        ⟨"kas", [4]⟩ = .ok p ∧
      z.readZipEntries [0] = .ok (p.manifest.relabelled lowered, p.encryptedPayload) ∧
      let r : Reception Unit := ⟨subject, guard, [0], ⟨"nmb", [3]⟩,
        localKasClient echoProvider ⟨"kas", [4]⟩, ⟨fun _ _ => (.ok (), ())⟩⟩
      (r.receiveZtdfOnTarget echoProvider z readTime).Yields () "m" () ∧
      (∃ l, xmlDeserialize entityReader readTime (xmlSerialize secret) = .ok l ∧ Agree l secret) ∧
      ¬ r.UsesSignedLabel echoProvider z readTime entityReader () := by
  let : MarkupEscape := entityEscape
  intro guard secret lowered subject readTime resolver
  have paired := echoProvider_paired ⟨"nmb", [3]⟩ ⟨"nmb", [3]⟩ rfl rfl
  have policy : MimSpif.SpifRegistry.withDefaults.validateLabel secret = .ok () :=
    MimSpif.nato_accepts .secret (by decide) [.releasableTo ["USA"]] (by decide)
  have policy' : MimSpif.SpifRegistry.withDefaults.validateLabel lowered = .ok () :=
    MimSpif.nato_accepts .unclassified (by decide) [] (by decide)
  have digest : RustText.isEmpty (echoProvider.sha256Base64 (utf8 "m")) = false := by
    decide +kernel
  obtain ⟨p, create, _⟩ := ZtdfPackage.create_released paired
    (ZtdfPackage.echoProvider_seals ⟨"kas", [4]⟩) policy digest readTime resolver
  obtain ⟨encrypted, wrapped, a, created⟩ := ZtdfPackage.create_ok_iff.mp create
  let z : ZipFormat := ⟨fun _ _ => .ok "", fun _ _ => .ok p.encryptedPayload, fun _ => .ok [0],
    fun _ => .ok (p.manifest.relabelled lowered), fun _ => .ok ""⟩
  have entries : z.readZipEntries [0] = .ok (p.manifest.relabelled lowered, p.encryptedPayload) :=
    rfl
  have granted : ∃ decision,
      guard.pep.pep.enforceAccess subject lowered .read guard.target = .ok decision := by
    exact isOk_iff.mp (by decide +kernel)
  refine ⟨p, z, create, entries, ?_⟩
  intro r
  have readable : TimesReadable readTime lowered := by
    rintro t (absent | absent) <;> cases absent
  obtain ⟨back, json⟩ := (json_decoded_iff (MimSpif.accepted_stages policy').1).mpr readable
  obtain ⟨s', yields⟩ := receive_created (r := r) (s := ()) created paired
    (ZtdfPackage.echoProvider_unseals _ _) rfl entries policy' json granted
    fun record s closed => by cases closed
  obtain ⟨read, decoded', states⟩ := secret_document_read readTime [.releasableTo ["USA"]] (by decide)
    (by decide)
  have signs : Agree read secret := ⟨congrArg Stated.identifier states,
    congrArg Stated.classification states, congrArg Stated.categories states⟩
  refine ⟨yields, ⟨read, decoded', signs⟩, fun uses => ?_⟩
  have opened := ZtdfPackage.opened_relabelled created entries json
  have decoded := (ZtdfManifest.label_ok opened.found).mpr opened.decoded
  have stored : (a.relabelled lowered).signedLabelXml = xmlSerialize secret :=
    (ZtdfPackage.fromLabel_made created.made).stored
  obtain ⟨l, covered, agree⟩ := uses "m" s' yields _ _ _
    (ZtdfPackage.fromZipSealed_ok_iff.mpr ⟨_, _, _, _, opened, rfl⟩) decoded opened.found
  rw [stored] at covered
  obtain rfl := Except.ok.inj (covered.symm.trans decoded')
  have lower : lowered.classification ≠ secret.classification := by decide
  have shown := (json_decoded_agrees (MimSpif.accepted_stages policy').1 json).classification
  exact lower (shown.symm.trans (agree.classification.trans signs.classification))

end Reception

end MimDcs
