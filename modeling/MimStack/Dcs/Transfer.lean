import MimStack.Dcs.Guard
import MimStack.Ztdf

/-!
The cross-domain transfer. A request names the label to decide on and brings a
binding that carries labels of its own; the binding is verified, the decision is
made on the label of the request.
-/
namespace MimDcs
open ByteText Fallible MarkupText MimLabeling MimPolicy MimAudit MimCrypto MimStanag MimZtdf

inductive TransferOutcome where
  | released (labelXml payload : String) (ztdfManifest : Option String)
      (ztdfPackageZip : Option Bytes)
  | denied (reason : String)

structure CrossDomainTransfer where
  sourceDomain : DomainId
  targetDomain : DomainId
  label : ConfidentialityLabel
  payload : String
  inboundBinding : BindingDataObject
  nmbSigningKey : SigningKey
  nmbVerifyingKey : VerifyingKey
  kasSigningKey : SigningKey
  kasVerifyingKey : VerifyingKey

variable [MarkupEscape] (P : CryptoProvider) (z : ZipFormat) (readTime : TimeReader)
  (resolver : DetachedLabelResolver) {σ : Type}

namespace CrossDomainTransfer

def payloadBytes (t : CrossDomainTransfer) : Bytes := utf8 t.payload

def rejectRecord (t : CrossDomainTransfer) : AuditRecord where
  eventKind := .bindingReject
  subjectId := "cross-domain-guard"
  sourceDomain := some t.sourceDomain
  targetDomain := some t.targetDomain
  originalLabel := t.label
  policyRuleId := "mandatory-assertion-binding"
  decision := "deny"
  reason := "embedded-only bindings rejected at cross-domain boundary"
  payloadDigest := some (P.sha256Base64 t.payloadBytes)

def evaluateRecord (t : CrossDomainTransfer) : AuditRecord where
  eventKind := .crossDomainEvaluate
  subjectId := "cross-domain-guard"
  sourceDomain := some t.sourceDomain
  targetDomain := some t.targetDomain
  originalLabel := t.label
  policyRuleId := "pre-guard-binding-verified"
  decision := "evaluate"
  reason := "inbound NMBS assertion binding verified"
  payloadDigest := some (P.sha256Base64 t.payloadBytes)

def decisionName : GuardDecision → String
  | .allow => "allow"
  | .downgrade => "downgrade"
  | .deny => "deny"

def releaseRecord (t : CrossDomainTransfer) (result : GuardResult)
    (effective : ConfidentialityLabel) : AuditRecord where
  eventKind := .crossDomainTransfer
  subjectId := "cross-domain-guard"
  sourceDomain := some t.sourceDomain
  targetDomain := some t.targetDomain
  originalLabel := t.label
  effectiveLabel := some effective
  policyRuleId := result.reason
  decision := decisionName result.decision
  reason := "cross-domain transfer released"
  payloadDigest := some (P.sha256Base64 t.payloadBytes)

def denyRecord (t : CrossDomainTransfer) (result : GuardResult) : AuditRecord where
  eventKind := .crossDomainTransfer
  subjectId := "cross-domain-guard"
  sourceDomain := some t.sourceDomain
  targetDomain := some t.targetDomain
  originalLabel := t.label
  policyRuleId := result.reason
  decision := "deny"
  reason := "cross-domain transfer denied by guard"

def package (t : CrossDomainTransfer) (effective : ConfidentialityLabel) :
    Except LabelError (String × ZtdfPackage) := do
  let labelXml ← serializeXml effective
  let outbound ← BindingDataObject.assertionBound P effective t.payloadBytes t.nmbSigningKey
  outbound.verify P t.payloadBytes (some t.nmbVerifyingKey) resolver
  let ztdf ← ZtdfPackage.create P resolver effective t.payloadBytes t.nmbSigningKey
    t.nmbVerifyingKey t.kasVerifyingKey
  ztdf.verifyRelease P readTime t.nmbVerifyingKey t.payloadBytes
  return (labelXml, ztdf)

def release (t : CrossDomainTransfer) (guard : CrossDomainGuard σ) (audit : AuditLog σ)
    (result : GuardResult) : Effect LabelError σ TransferOutcome :=
  match result.effectiveLabel with
  | none => .fail (.crossDomain "guard approved transfer but no effective label")
  | some effective => do
    let (labelXml, ztdf) ← Effect.ofExcept (t.package P readTime resolver effective)
    recordAudit audit (t.releaseRecord P result effective) guard.accredited
    let ztdfManifest ← Effect.ofExcept (z.manifestJson ztdf.manifest)
    let ztdfPackageZip ← Effect.ofExcept (ztdf.toZipBytes z)
    return .released labelXml t.payload (some ztdfManifest) (some ztdfPackageZip)

def conclude (t : CrossDomainTransfer) (guard : CrossDomainGuard σ) (audit : AuditLog σ)
    (result : GuardResult) : Effect LabelError σ TransferOutcome :=
  match result.decision with
  | .allow | .downgrade => t.release P z readTime resolver guard audit result
  | .deny => do
    recordAudit audit (t.denyRecord result) guard.accredited
    return .denied result.reason

def execute (t : CrossDomainTransfer) (guard : CrossDomainGuard σ) (audit : AuditLog σ) :
    Effect LabelError σ TransferOutcome := do
  Effect.ofExcept (validateDomainPair t.sourceDomain t.targetDomain)
  if t.inboundBinding.binding.method ≠ .assertion then
    recordAudit audit (t.rejectRecord P) guard.accredited
    .fail (.crossDomain "cross-domain transfer requires STANAG 4778 assertion binding")
  else
    Effect.ofExcept (t.inboundBinding.verify P t.payloadBytes (some t.nmbVerifyingKey) resolver)
    recordAudit audit (t.evaluateRecord P) guard.accredited
    let result ← guard.evaluate t.label
    t.conclude P z readTime resolver guard audit result

structure Packages (t : CrossDomainTransfer) (effective : ConfidentialityLabel)
    (ztdf : ZtdfPackage) : Prop where
  valid : effective.validate = .ok ()
  bound : ∃ b, BindingDataObject.assertionBound P effective t.payloadBytes t.nmbSigningKey = .ok b ∧
    b.Accepted P t.payloadBytes t.nmbVerifyingKey
  created : ZtdfPackage.create P resolver effective t.payloadBytes t.nmbSigningKey
    t.nmbVerifyingKey t.kasVerifyingKey = .ok ztdf
  verified : ztdf.verifyRelease P readTime t.nmbVerifyingKey t.payloadBytes = .ok ()

structure Admits (t : CrossDomainTransfer) (guard : CrossDomainGuard σ) (audit : AuditLog σ) (s : σ)
    (decision : PolicyDecision) (effective : ConfidentialityLabel) (ztdf : ZtdfPackage) : Prop where
  domains : validateDomainPair t.sourceDomain t.targetDomain = .ok ()
  method : t.inboundBinding.binding.method = .assertion
  binding : t.inboundBinding.Accepted P t.payloadBytes t.nmbVerifyingKey
  evaluated : Recorded audit (t.evaluateRecord P) guard.accredited s
  decided : guard.decides t.label = .ok decision
  approved : decision.effect ≠ .deny
  passed : decision.effectiveLabel = some effective
  packages : t.Packages P readTime resolver effective ztdf
  recorded : Recorded audit (t.releaseRecord P (mapDecision decision) effective) guard.accredited
    (guard.noted t.label decision (audit.record (t.evaluateRecord P) s).2)
  manifest : ∃ text, z.manifestJson ztdf.manifest = .ok text
  archive : ∃ zip, ztdf.toZipBytes z = .ok zip

def Admitted (t : CrossDomainTransfer) (guard : CrossDomainGuard σ) (audit : AuditLog σ) (s : σ) :
    Prop :=
  ∃ decision effective ztdf, t.Admits P z readTime resolver guard audit s decision effective ztdf

def Released (t : CrossDomainTransfer) (guard : CrossDomainGuard σ) (audit : AuditLog σ) (s : σ) :
    Prop :=
  ∃ labelXml payload manifest zip s', (t.execute P z readTime resolver guard audit).Yields s
    (.released labelXml payload manifest zip) s'

variable {P z readTime resolver}

theorem package_ok_iff {t : CrossDomainTransfer} {effective : ConfidentialityLabel}
    {labelXml : String} {ztdf : ZtdfPackage} :
    t.package P readTime resolver effective = .ok (labelXml, ztdf) ↔
      t.Packages P readTime resolver effective ztdf ∧ labelXml = xmlSerialize effective := by
  constructor
  · intro packaged
    obtain ⟨xml, text, packaged⟩ := bind_ok.mp packaged
    obtain ⟨outbound, bound, packaged⟩ := bind_ok.mp packaged
    obtain ⟨checked, packaged⟩ := check_ok.mp packaged
    obtain ⟨package, created, packaged⟩ := bind_ok.mp packaged
    obtain ⟨verified, packaged⟩ := check_ok.mp packaged
    obtain ⟨rfl, rfl⟩ := Prod.mk.inj (pure_ok.mp packaged)
    obtain ⟨valid, rfl⟩ := serializeXml_ok.mp text
    obtain ⟨a, _, rfl⟩ := (BindingDataObject.assertionBound_ok_iff _ _ _ _).mp bound
    exact ⟨⟨valid, ⟨_, bound, (BindingDataObject.verify_ok_iff rfl _ _ _).mp checked⟩, created,
      verified⟩, rfl⟩
  · rintro ⟨⟨valid, ⟨b, bound, accepted⟩, created, verified⟩, rfl⟩
    have method : b.binding.method = .assertion := by
      obtain ⟨a, _, rfl⟩ := (BindingDataObject.assertionBound_ok_iff _ _ _ _).mp bound
      rfl
    refine bind_ok.mpr ⟨_, serializeXml_ok.mpr ⟨valid, rfl⟩, bind_ok.mpr ⟨b, bound, ?_⟩⟩
    refine check_ok.mpr ⟨(BindingDataObject.verify_ok_iff method _ _ _).mpr accepted, ?_⟩
    exact bind_ok.mpr ⟨ztdf, created, check_ok.mpr ⟨verified, rfl⟩⟩

theorem release_yields {t : CrossDomainTransfer} {guard : CrossDomainGuard σ} {audit : AuditLog σ}
    {result : GuardResult} {s s' : σ} {outcome : TransferOutcome} :
    (t.release P z readTime resolver guard audit result).Yields s outcome s' ↔
      ∃ effective ztdf text zip, result.effectiveLabel = some effective ∧
        t.Packages P readTime resolver effective ztdf ∧
        Recorded audit (t.releaseRecord P result effective) guard.accredited s ∧
        z.manifestJson ztdf.manifest = .ok text ∧ ztdf.toZipBytes z = .ok zip ∧
        outcome = .released (xmlSerialize effective) t.payload (some text) (some zip) ∧
        s' = (audit.record (t.releaseRecord P result effective) s).2 := by
  unfold release
  cases result.effectiveLabel with
  | none => simp [Effect.yields_fail]
  | some effective =>
    constructor
    · intro yields
      obtain ⟨⟨labelXml, ztdf⟩, _, packaging, rest⟩ := Effect.yields_bind.mp yields
      obtain ⟨packaged, rfl⟩ := Effect.yields_ofExcept.mp packaging
      obtain ⟨packages, rfl⟩ := package_ok_iff.mp packaged
      obtain ⟨_, recording, rest'⟩ := Effect.yields_then.mp rest
      obtain ⟨recorded, rfl⟩ := recordAudit_yields.mp recording
      obtain ⟨text, _, writing, rest''⟩ := Effect.yields_bind.mp rest'
      obtain ⟨manifest, rfl⟩ := Effect.yields_ofExcept.mp writing
      obtain ⟨zip, _, zipping, last⟩ := Effect.yields_bind.mp rest''
      obtain ⟨archive, rfl⟩ := Effect.yields_ofExcept.mp zipping
      obtain ⟨rfl, rfl⟩ := Effect.yields_pure.mp last
      exact ⟨effective, ztdf, text, zip, rfl, packages, recorded, manifest, archive, rfl, rfl⟩
    · rintro ⟨_, ztdf, text, zip, same, packages, recorded, manifest, archive, rfl, rfl⟩
      obtain rfl := Option.some.inj same
      refine Effect.yields_bind.mpr ⟨_, _, Effect.yields_ofExcept.mpr
        ⟨package_ok_iff.mpr ⟨packages, rfl⟩, rfl⟩, ?_⟩
      refine Effect.yields_then.mpr ⟨_, recordAudit_yields.mpr ⟨recorded, rfl⟩, ?_⟩
      refine Effect.yields_bind.mpr ⟨text, _, Effect.yields_ofExcept.mpr ⟨manifest, rfl⟩, ?_⟩
      refine Effect.yields_bind.mpr ⟨zip, _, Effect.yields_ofExcept.mpr ⟨archive, rfl⟩, ?_⟩
      exact Effect.yields_pure.mpr ⟨rfl, rfl⟩

theorem conclude_released {t : CrossDomainTransfer} {guard : CrossDomainGuard σ}
    {audit : AuditLog σ} {result : GuardResult} {s s' : σ} {labelXml payload : String}
    {manifest : Option String} {zip : Option Bytes} :
    (t.conclude P z readTime resolver guard audit result).Yields s
        (.released labelXml payload manifest zip) s' ↔
      result.decision ≠ .deny ∧ (t.release P z readTime resolver guard audit result).Yields s
        (.released labelXml payload manifest zip) s' := by
  unfold conclude
  cases result.decision with
  | allow => simp
  | downgrade => simp
  | deny =>
    refine iff_of_false (fun yields => ?_) (by simp)
    obtain ⟨_, _, last⟩ := Effect.yields_then.mp yields
    cases (Effect.yields_pure.mp last).1

theorem execute_yields_released {t : CrossDomainTransfer} {guard : CrossDomainGuard σ}
    {audit : AuditLog σ} {s s' : σ} {labelXml payload : String} {manifest : Option String}
    {zip : Option Bytes} :
    (t.execute P z readTime resolver guard audit).Yields s
        (.released labelXml payload manifest zip) s' ↔
      ∃ decision effective ztdf text bytes,
        t.Admits P z readTime resolver guard audit s decision effective ztdf ∧
        z.manifestJson ztdf.manifest = .ok text ∧ ztdf.toZipBytes z = .ok bytes ∧
        TransferOutcome.released labelXml payload manifest zip =
          .released (xmlSerialize effective) t.payload (some text) (some bytes) ∧
        s' = (audit.record (t.releaseRecord P (mapDecision decision) effective)
          (guard.noted t.label decision (audit.record (t.evaluateRecord P) s).2)).2 := by
  constructor
  · intro yields
    obtain ⟨_, pairing, rest⟩ := Effect.yields_then.mp yields
    obtain ⟨domains, rfl⟩ := Effect.yields_ofExcept.mp pairing
    split at rest
    · obtain ⟨_, _, failing⟩ := Effect.yields_then.mp rest
      exact absurd failing Effect.yields_fail
    · rename_i method
      have assertion := not_not.mp method
      obtain ⟨_, verifying, rest'⟩ := Effect.yields_then.mp rest
      obtain ⟨verified, rfl⟩ := Effect.yields_ofExcept.mp verifying
      obtain ⟨_, recording, rest''⟩ := Effect.yields_then.mp rest'
      obtain ⟨evaluated, rfl⟩ := recordAudit_yields.mp recording
      obtain ⟨result, _, evaluating, last⟩ := Effect.yields_bind.mp rest''
      obtain ⟨decision, decided, rfl, rfl⟩ := CrossDomainGuard.evaluate_yields.mp evaluating
      obtain ⟨answered, released⟩ := conclude_released.mp last
      have approved := fun deny => answered ((mapDecision_deny decision).mpr deny)
      obtain ⟨effective, ztdf, text, bytes, passed, packages, recorded, written, archive, same,
        after⟩ := release_yields.mp released
      rw [mapDecision_label approved] at passed
      exact ⟨decision, effective, ztdf, text, bytes, ⟨domains, assertion,
        (BindingDataObject.verify_ok_iff assertion _ _ _).mp verified, evaluated, decided, approved,
        passed, packages, recorded, ⟨text, written⟩, bytes, archive⟩, written, archive, same, after⟩
  · rintro ⟨decision, effective, ztdf, text, bytes, admits, written, archive, same, rfl⟩
    have released := release_yields.mpr ⟨effective, ztdf, text, bytes,
      (mapDecision_label admits.approved).trans admits.passed, admits.packages, admits.recorded,
      written, archive, same, rfl⟩
    have concluded := conclude_released.mpr
      ⟨fun deny => admits.approved ((mapDecision_deny _).mp deny), released⟩
    refine Effect.yields_then.mpr ⟨s, Effect.yields_ofExcept.mpr ⟨admits.domains, rfl⟩, ?_⟩
    rw [if_neg (not_not.mpr admits.method)]
    refine Effect.yields_then.mpr ⟨s, Effect.yields_ofExcept.mpr
      ⟨(BindingDataObject.verify_ok_iff admits.method _ _ _).mpr admits.binding, rfl⟩, ?_⟩
    refine Effect.yields_then.mpr ⟨_, recordAudit_yields.mpr ⟨admits.evaluated, rfl⟩, ?_⟩
    exact Effect.yields_bind.mpr ⟨mapDecision decision, _, CrossDomainGuard.evaluate_yields.mpr
      ⟨decision, admits.decided, rfl, rfl⟩, concluded⟩

theorem execute_released_iff (t : CrossDomainTransfer) (guard : CrossDomainGuard σ)
    (audit : AuditLog σ) (s : σ) :
    t.Released P z readTime resolver guard audit s ↔ t.Admitted P z readTime resolver guard audit s := by
  constructor
  · rintro ⟨labelXml, payload, manifest, zip, s', yields⟩
    obtain ⟨decision, effective, ztdf, _, _, admits, _⟩ := execute_yields_released.mp yields
    exact ⟨decision, effective, ztdf, admits⟩
  · rintro ⟨decision, effective, ztdf, admits⟩
    obtain ⟨text, written⟩ := admits.manifest
    obtain ⟨bytes, archive⟩ := admits.archive
    exact ⟨_, _, _, _, _, execute_yields_released.mpr
      ⟨decision, effective, ztdf, text, bytes, admits, written, archive, rfl, rfl⟩⟩

theorem admitted_of_passes (t : CrossDomainTransfer) (guard : CrossDomainGuard σ)
    (audit : AuditLog σ) (s : σ) {effective : ConfidentialityLabel} (paired : P.Paired t.nmbSigningKey t.nmbVerifyingKey)
    (sealing : ZtdfPackage.Seals P t.kasVerifyingKey) (writes : z.Writes)
    (digest : RustText.isEmpty (P.sha256Base64 t.payloadBytes) = false)
    (domains : validateDomainPair t.sourceDomain t.targetDomain = .ok ())
    (method : t.inboundBinding.binding.method = .assertion)
    (binding : t.inboundBinding.Accepted P t.payloadBytes t.nmbVerifyingKey)
    (recorded : ∀ record s, Recorded audit record guard.accredited s)
    (passes : guard.passes t.label = some effective)
    (policy : MimSpif.SpifRegistry.withDefaults.validateLabel effective = .ok ()) :
    t.Admitted P z readTime resolver guard audit s := by
  obtain ⟨decision, decided, approved, passed⟩ := CrossDomainGuard.passes_some.mp passes
  obtain ⟨b, _, bound, _, _, _, _, _, _, accepted⟩ :=
    BindingDataObject.assertionBound_verifies paired policy t.payloadBytes
  obtain ⟨ztdf, created, verified⟩ :=
    ZtdfPackage.create_released paired sealing policy digest readTime resolver
  obtain ⟨manifest, archive⟩ := ZtdfPackage.toZipBytes_ok writes ztdf
  exact ⟨decision, effective, ztdf, domains, method, binding, recorded _ _, decided, approved,
    passed, ⟨(MimSpif.accepted_stages policy).1, ⟨b, bound, accepted⟩, created, verified⟩,
    recorded _ _, manifest, archive⟩

variable (P z readTime resolver) in
/-- A release was decided on a label that agrees with every label the binding carries. -/
def LabelIntegrity (t : CrossDomainTransfer) (guard : CrossDomainGuard σ) (audit : AuditLog σ)
    (s : σ) : Prop :=
  t.Released P z readTime resolver guard audit s → ∀ l, t.inboundBinding.Carries l → Agree t.label l

def withLabel (t : CrossDomainTransfer) (label : ConfidentialityLabel) : CrossDomainTransfer :=
  { t with label }

variable (P) in
/-- The checks of a request in which its label has no part. -/
structure Inbound (t : CrossDomainTransfer) : Prop where
  domains : validateDomainPair t.sourceDomain t.targetDomain = .ok ()
  method : t.inboundBinding.binding.method = .assertion
  binding : t.inboundBinding.Accepted P t.payloadBytes t.nmbVerifyingKey

variable (P z readTime resolver) in
/-- What is made of a label: the guard decides on it, the label that it passes is bound to the
payload and packaged, and the log takes the records. -/
structure Outbound (t : CrossDomainTransfer) (guard : CrossDomainGuard σ) (audit : AuditLog σ) (s : σ)
    (label : ConfidentialityLabel) (decision : PolicyDecision) (effective : ConfidentialityLabel)
    (ztdf : ZtdfPackage) : Prop where
  evaluated : Recorded audit ((t.withLabel label).evaluateRecord P) guard.accredited s
  decided : guard.decides label = .ok decision
  approved : decision.effect ≠ .deny
  passed : decision.effectiveLabel = some effective
  packages : t.Packages P readTime resolver effective ztdf
  recorded : Recorded audit
    ((t.withLabel label).releaseRecord P (mapDecision decision) effective) guard.accredited
    (guard.noted label decision (audit.record ((t.withLabel label).evaluateRecord P) s).2)
  manifest : ∃ text, z.manifestJson ztdf.manifest = .ok text
  archive : ∃ zip, ztdf.toZipBytes z = .ok zip

variable (P z readTime resolver) in
def Passable (t : CrossDomainTransfer) (guard : CrossDomainGuard σ) (audit : AuditLog σ) (s : σ)
    (label : ConfidentialityLabel) : Prop :=
  ∃ decision effective ztdf, t.Outbound P z readTime resolver guard audit s label decision effective ztdf

theorem admitted_parts (t : CrossDomainTransfer) (guard : CrossDomainGuard σ) (audit : AuditLog σ)
    (s : σ) (label : ConfidentialityLabel) :
    (t.withLabel label).Admitted P z readTime resolver guard audit s ↔
      t.Inbound P ∧ t.Passable P z readTime resolver guard audit s label := by
  constructor
  · intro admitted
    obtain ⟨decision, effective, ztdf, h⟩ := admitted
    have packages : t.Packages P readTime resolver effective ztdf :=
      ⟨h.packages.valid, h.packages.bound, h.packages.created, h.packages.verified⟩
    exact ⟨⟨h.domains, h.method, h.binding⟩, decision, effective, ztdf, h.evaluated, h.decided,
      h.approved, h.passed, packages, h.recorded, h.manifest, h.archive⟩
  · intro parts
    obtain ⟨inbound, decision, effective, ztdf, h⟩ := parts
    have packages : (t.withLabel label).Packages P readTime resolver effective ztdf :=
      ⟨h.packages.valid, h.packages.bound, h.packages.created, h.packages.verified⟩
    exact ⟨decision, effective, ztdf, inbound.domains, inbound.method, inbound.binding, h.evaluated,
      h.decided, h.approved, h.passed, packages, h.recorded, h.manifest, h.archive⟩

variable (P z readTime resolver) in
/-- No other label in the place of the request's label is released. -/
def Unsubstitutable (t : CrossDomainTransfer) (guard : CrossDomainGuard σ) (audit : AuditLog σ)
    (s : σ) : Prop :=
  ∀ label, ¬ Agree label t.label →
    ¬ (t.withLabel label).Released P z readTime resolver guard audit s

/-- In one run, the labels agree or a check refuses the request; in two runs, a check refuses it in
which the label has no part, or every other label is stopped by the guard, the packaging or the
log. -/
theorem label_integrity_iff (t : CrossDomainTransfer) (guard : CrossDomainGuard σ)
    (audit : AuditLog σ) (s : σ) :
    (t.LabelIntegrity P z readTime resolver guard audit s ↔
      (∀ l, t.inboundBinding.Carries l → Agree t.label l) ∨
        ¬ t.Admitted P z readTime resolver guard audit s) ∧
    (t.Unsubstitutable P z readTime resolver guard audit s ↔
      ¬ t.Inbound P ∨ ∀ label, ¬ Agree label t.label →
        ¬ t.Passable P z readTime resolver guard audit s label) := by
  refine ⟨⟨fun integrity => ?_, ?_⟩, fun kept => ?_, ?_⟩
  · by_cases admitted : t.Admitted P z readTime resolver guard audit s
    · exact .inl (integrity ((execute_released_iff t guard audit s).mpr admitted))
    · exact .inr admitted
  · rintro (agree | refused) released
    · exact agree
    · exact absurd ((execute_released_iff t guard audit s).mp released) refused
  · by_cases inbound : t.Inbound P
    · refine .inr fun label differs passable => kept label differs ?_
      exact (execute_released_iff _ guard audit s).mpr
        ((admitted_parts t guard audit s label).mpr ⟨inbound, passable⟩)
    · exact .inl inbound
  · intro condition label differs released
    obtain ⟨inbound, passable⟩ :=
      (admitted_parts t guard audit s label).mp ((execute_released_iff _ guard audit s).mp released)
    rcases condition with refused | stopped
    · exact refused inbound
    · exact stopped label differs passable

def highToLow (σ : Type) : CrossDomainGuard σ := .new
  { id := ⟨"HIGH"⟩, name := "High", maxClassification := .secret }
  { id := ⟨"LOW"⟩, name := "Low", maxClassification := .restricted }

omit [MarkupEscape] in
theorem highToLow_pair : validateDomainPair ⟨"HIGH"⟩ ⟨"LOW"⟩ = .ok () := by decide +kernel

def loggedGuard {σ : Type} (log : Option (AuditLog σ)) (accredited : Bool) : CrossDomainGuard σ :=
  { highToLow σ with pep := ⟨(highToLow σ).pep.pep, log⟩, accredited }

def emptyZip : ZipFormat := ⟨fun _ _ => .error "", fun _ _ => .error "", fun _ => .ok [],
  fun _ => .error "", fun _ => .ok ""⟩

def releasedSecret : ConfidentialityLabel :=
  (ConfidentialityLabel.new .nato .secret).withCategory (.releasableTo ["USA"])

def fromHigh (label : ConfidentialityLabel) (payload : String) (b : BindingDataObject) :
    CrossDomainTransfer :=
  ⟨⟨"HIGH"⟩, ⟨"LOW"⟩, label, payload, b, ⟨"nmb", [3]⟩, ⟨"nmb", [3]⟩, ⟨"kas", [4]⟩, ⟨"kas", [4]⟩⟩

omit [MarkupEscape] in
theorem highToLow_passes (σ : Type) : ∀ label ∈ [releasedSecret, .new .nato .unclassified],
    ∃ effective, (highToLow σ).passes label = some effective ∧
      MimSpif.SpifRegistry.withDefaults.validateLabel effective = .ok () := by
  have checked : ∀ label ∈ [releasedSecret, .new .nato .unclassified],
      ((highToLow Unit).passes label).any (fun effective =>
        (MimSpif.SpifRegistry.withDefaults.validateLabel effective).isOk) = true := by
    decide +kernel
  intro label listed
  have found := checked label listed
  have same : (highToLow σ).passes label = (highToLow Unit).passes label := rfl
  cases passed : (highToLow Unit).passes label with
  | none =>
    rw [passed] at found
    cases found
  | some effective =>
    rw [passed] at found
    exact ⟨effective, same.trans passed, ok_of_isOk found⟩

omit [MarkupEscape] in
theorem readdressed_released (σ : Type) : letI := entityEscape
    ∃ b, BindingDataObject.assertionBound echoProvider releasedSecret (utf8 "m") ⟨"nmb", [3]⟩ = .ok b ∧
      b.label = releasedSecret ∧ b.payloadDigest = echoProvider.sha256Base64 (utf8 "m") ∧
      ∀ label ∈ [releasedSecret, .new .nato .unclassified], ∀ sourceDomain targetDomain,
        validateDomainPair sourceDomain targetDomain = .ok () → ∀ (log : Option (AuditLog σ))
        (accredited : Bool) (audit : AuditLog σ) (readTime : TimeReader)
        (resolver : DetachedLabelResolver), (∀ record s, Recorded audit record accredited s) → ∀ s,
        { fromHigh label "m" b with sourceDomain, targetDomain }.Released echoProvider emptyZip
          readTime resolver (loggedGuard log accredited) audit s := by
  let : MarkupEscape := entityEscape
  have paired := echoProvider_paired ⟨"nmb", [3]⟩ ⟨"nmb", [3]⟩ rfl rfl
  have policy : MimSpif.SpifRegistry.withDefaults.validateLabel releasedSecret = .ok () :=
    MimSpif.nato_accepts .secret (by decide) [.releasableTo ["USA"]] (by decide)
  obtain ⟨b, a, bound, method, own, held, _, _, _, accepted⟩ :=
    BindingDataObject.assertionBound_verifies paired policy (utf8 "m")
  refine ⟨b, bound, own, accepted.digest, ?_⟩
  intro label listed sourceDomain targetDomain domains log accredited audit readTime resolver
    recorded s
  obtain ⟨effective, passed, accepted'⟩ := highToLow_passes σ label listed
  have writes : emptyZip.Writes := ⟨fun _ => ⟨_, rfl⟩, fun _ => ⟨_, rfl⟩⟩
  have digest : RustText.isEmpty (echoProvider.sha256Base64 (utf8 "m")) = false := by
    decide +kernel
  rw [execute_released_iff]
  exact admitted_of_passes { fromHigh label "m" b with sourceDomain, targetDomain }
    (loggedGuard log accredited) audit s paired (ZtdfPackage.echoProvider_seals _) writes digest
    domains method accepted recorded passed accepted'

omit [MarkupEscape] in
theorem fromHigh_released (σ : Type) : letI := entityEscape
    ∃ b, BindingDataObject.assertionBound echoProvider releasedSecret (utf8 "m") ⟨"nmb", [3]⟩ = .ok b ∧
      b.label = releasedSecret ∧ b.payloadDigest = echoProvider.sha256Base64 (utf8 "m") ∧
      ∀ label ∈ [releasedSecret, .new .nato .unclassified], ∀ (log : Option (AuditLog σ))
        (accredited : Bool) (audit : AuditLog σ) (readTime : TimeReader)
        (resolver : DetachedLabelResolver), (∀ record s, Recorded audit record accredited s) → ∀ s,
        (fromHigh label "m" b).Released echoProvider emptyZip readTime resolver
          (loggedGuard log accredited) audit s := by
  let : MarkupEscape := entityEscape
  obtain ⟨b, bound, own, digest, releases⟩ := readdressed_released σ
  refine ⟨b, bound, own, digest, ?_⟩
  intro label listed
  exact releases label listed _ _ highToLow_pair

omit [MarkupEscape] in
/-- The payload bound as secret is released as unclassified when the request says so. -/
theorem lowered_request_released : letI := entityEscape
    let guard : CrossDomainGuard Unit := .new
      { id := ⟨"HIGH"⟩, name := "High", maxClassification := .secret }
      { id := ⟨"LOW"⟩, name := "Low", maxClassification := .restricted }
    let audit : AuditLog Unit := ⟨fun _ _ => (.ok (), ())⟩
    let z : ZipFormat := ⟨fun _ _ => .error "", fun _ _ => .error "", fun _ => .ok [],
      fun _ => .error "", fun _ => .ok ""⟩
    let secret := (ConfidentialityLabel.new .nato .secret).withCategory (.releasableTo ["USA"])
    let lowered := ConfidentialityLabel.new .nato .unclassified
    let readTime : TimeReader := fun s => .error s
    let resolver : DetachedLabelResolver := fun uri => .error (.parse uri)
    ∃ b, BindingDataObject.assertionBound echoProvider secret (utf8 "m") ⟨"nmb", [3]⟩ = .ok b ∧
      let t : CrossDomainTransfer := ⟨⟨"HIGH"⟩, ⟨"LOW"⟩, secret, "m", b, ⟨"nmb", [3]⟩, ⟨"nmb", [3]⟩,
        ⟨"kas", [4]⟩, ⟨"kas", [4]⟩⟩
      t.Released echoProvider z readTime resolver guard audit () ∧
      (t.withLabel lowered).Released echoProvider z readTime resolver guard audit () ∧
      ¬ (t.withLabel lowered).LabelIntegrity echoProvider z readTime resolver guard audit () ∧
      ¬ t.Unsubstitutable echoProvider z readTime resolver guard audit () := by
  let : MarkupEscape := entityEscape
  intro guard audit z secret lowered readTime resolver
  obtain ⟨b, bound, own, _, releases⟩ := fromHigh_released Unit
  refine ⟨b, bound, ?_⟩
  intro t
  have released : ∀ label ∈ [secret, lowered],
      (t.withLabel label).Released echoProvider z readTime resolver guard audit () := by
    intro label listed
    refine releases label listed none false audit readTime resolver ?_ ()
    intro record s closed
    cases closed
  have lower : lowered.classification ≠ secret.classification := by decide
  have released' := released lowered (by simp)
  refine ⟨released secret (by simp), released', fun integrity => ?_, fun kept => ?_⟩
  · have agree := integrity released' b.label (.inl rfl)
    rw [own] at agree
    exact lower agree.classification
  · exact kept lowered (fun agree => lower agree.classification) released'

end CrossDomainTransfer

end MimDcs
