import MimStack.Lib.Outcome
import MimStack.Policy

/-!
Audit records and the enforcement point that writes them. A log is any way of
taking a record into a state, with or without success.
-/
namespace MimAudit
open Fallible MimLabeling MimPolicy

inductive AuditError where
  | io (message : String)
  | sealed
  | tampered (message : String)

def AuditError.toString : AuditError → String
  | .io m => "audit I/O error: " ++ m
  | .sealed => "audit record is sealed and cannot be modified"
  | .tampered m => "WORM audit integrity violation: " ++ m

inductive AuditEventKind where
  | crossDomainEvaluate
  | crossDomainTransfer
  | transportAccess
  | bindingVerify
  | bindingReject
  deriving DecidableEq

structure AuditRecord where
  eventKind : AuditEventKind
  subjectId : String
  sourceDomain : Option DomainId := none
  targetDomain : Option DomainId := none
  originalLabel : ConfidentialityLabel
  effectiveLabel : Option ConfidentialityLabel := none
  policyRuleId : String
  decision : String
  reason : String
  payloadDigest : Option String := none

def AuditRecord.withDomains (r : AuditRecord) (source target : DomainId) : AuditRecord :=
  { r with sourceDomain := some source, targetDomain := some target }

structure AuditLog (σ : Type) where
  record : AuditRecord → σ → Except AuditError Unit × σ

variable {σ : Type}

/-- The guard's own records: a failed one stops an accredited guard only. -/
def recordAudit (audit : AuditLog σ) (record : AuditRecord) (failClosed : Bool) :
    Effect LabelError σ Unit :=
  fun s =>
    match audit.record record s with
    | (.ok (), t) => (.ok (), t)
    | (.error e, t) =>
      if failClosed then
        (.error (.crossDomain ("accredited guard audit unavailable: " ++ e.toString)), t)
      else (.ok (), t)

def Recorded (audit : AuditLog σ) (record : AuditRecord) (failClosed : Bool) (s : σ) : Prop :=
  failClosed = true → (audit.record record s).1 = .ok ()

/-- A log that takes every record. -/
def AuditLog.Working (audit : AuditLog σ) : Prop := ∀ record s, (audit.record record s).1 = .ok ()

theorem AuditLog.Working.recorded {audit : AuditLog σ} (working : audit.Working)
    (record : AuditRecord) (failClosed : Bool) (s : σ) : Recorded audit record failClosed s :=
  fun _ => working record s

theorem recordAudit_yields {audit : AuditLog σ} {record : AuditRecord} {failClosed : Bool}
    {s t : σ} : (recordAudit audit record failClosed).Yields s () t ↔
      Recorded audit record failClosed s ∧ t = (audit.record record s).2 := by
  simp only [recordAudit, Effect.Yields, Recorded]
  rcases audit.record record s with ⟨e | u, after⟩
  · cases failClosed <;> simp [eq_comm]
  · simp [eq_comm]

structure AuditedPep (σ : Type) where
  pep : PolicyEnforcementPoint
  audit : Option (AuditLog σ)

namespace AuditedPep

/-- The state after a record whose outcome nobody looks at. -/
def noted (p : AuditedPep σ) (record : AuditRecord) (s : σ) : σ :=
  match p.audit with
  | none => s
  | some audit => (audit.record record s).2

def effectToDecision : PolicyEffect → String
  | .permit => "allow"
  | .deny => "deny"
  | .downgrade => "downgrade"

def accessRecord (subject : SubjectAttributes) (label : ConfidentialityLabel)
    (domain : SecurityDomain) (decision : PolicyDecision) : AuditRecord where
  eventKind := .transportAccess
  subjectId := subject.subjectId
  sourceDomain := some domain.id
  targetDomain := some domain.id
  originalLabel := label
  effectiveLabel := decision.effectiveLabel
  policyRuleId := "pep-access"
  decision := effectToDecision decision.effect
  reason := decision.reason

def crossDomainRecord (subject : SubjectAttributes) (label : ConfidentialityLabel)
    (source target : SecurityDomain) (decision : PolicyDecision) : AuditRecord where
  eventKind := .crossDomainEvaluate
  subjectId := subject.subjectId
  sourceDomain := some source.id
  targetDomain := some target.id
  originalLabel := label
  effectiveLabel := decision.effectiveLabel
  policyRuleId := "pep-cross-domain"
  decision := effectToDecision decision.effect
  reason := decision.reason

def enforceAccess (p : AuditedPep σ) (subject : SubjectAttributes) (label : ConfidentialityLabel)
    (operation : AccessOperation) (domain : SecurityDomain) :
    Effect PolicyError σ PolicyDecision := do
  let decision ← Effect.ofExcept (p.pep.evaluateAccess subject label operation domain)
  Effect.modify (p.noted (accessRecord subject label domain decision))
  if decision.effect == .deny then .fail (.denied decision.reason) else return decision

def evaluateCrossDomain (p : AuditedPep σ) (subject : SubjectAttributes)
    (label : ConfidentialityLabel) (source target : SecurityDomain) :
    Effect PolicyError σ PolicyDecision := do
  let decision ← Effect.ofExcept (p.pep.evaluateCrossDomain subject label source target none)
  Effect.modify (p.noted (crossDomainRecord subject label source target decision))
  return decision

theorem enforceAccess_yields {p : AuditedPep σ} {subject : SubjectAttributes}
    {label : ConfidentialityLabel} {operation : AccessOperation} {domain : SecurityDomain}
    {s t : σ} {decision : PolicyDecision} :
    (p.enforceAccess subject label operation domain).Yields s decision t ↔
      p.pep.enforceAccess subject label operation domain = .ok decision ∧
        t = p.noted (accessRecord subject label domain decision) s := by
  unfold enforceAccess PolicyEnforcementPoint.enforceAccess
  rw [Effect.yields_noted]
  constructor
  · rintro ⟨evaluated, result, rest⟩
    split at rest
    · exact absurd rest Effect.yields_fail
    · rename_i permitted
      obtain ⟨rfl, rfl⟩ := Effect.yields_pure.mp rest
      exact ⟨by simp only [result, if_neg permitted], rfl⟩
  · rintro ⟨enforced, rfl⟩
    split at enforced
    · cases enforced
    · rename_i evaluated result
      split at enforced
      · cases enforced
      · rename_i permitted
        obtain rfl := Except.ok.inj enforced
        refine ⟨evaluated, result, ?_⟩
        rw [if_neg permitted]
        exact Effect.yields_pure.mpr ⟨rfl, rfl⟩

theorem evaluateCrossDomain_yields {p : AuditedPep σ} {subject : SubjectAttributes}
    {label : ConfidentialityLabel} {source target : SecurityDomain} {s t : σ}
    {decision : PolicyDecision} :
    (p.evaluateCrossDomain subject label source target).Yields s decision t ↔
      p.pep.evaluateCrossDomain subject label source target none = .ok decision ∧
        t = p.noted (crossDomainRecord subject label source target decision) s := by
  unfold evaluateCrossDomain
  rw [Effect.yields_noted]
  constructor
  · rintro ⟨evaluated, result, rest⟩
    obtain ⟨rfl, rfl⟩ := Effect.yields_pure.mp rest
    exact ⟨result, rfl⟩
  · rintro ⟨result, rfl⟩
    exact ⟨decision, result, Effect.yields_pure.mpr ⟨rfl, rfl⟩⟩

end AuditedPep

end MimAudit
