import MimStack.Audit

/-!
The cross-domain guard: a pair of domains, the enforcement point it asks, and
whether it is accredited.
-/
namespace MimDcs
open Fallible MimLabeling MimPolicy MimAudit

inductive GuardDecision where
  | allow
  | deny
  | downgrade
  deriving DecidableEq

structure GuardResult where
  decision : GuardDecision
  reason : String
  effectiveLabel : Option ConfidentialityLabel

def mapDecision (d : PolicyDecision) : GuardResult :=
  match d.effect with
  | .permit => ⟨.allow, d.reason, d.effectiveLabel⟩
  | .deny => ⟨.deny, d.reason, none⟩
  | .downgrade => ⟨.downgrade, d.reason, d.effectiveLabel⟩

theorem mapDecision_deny (d : PolicyDecision) : (mapDecision d).decision = .deny ↔ d.effect = .deny := by
  unfold mapDecision
  cases d.effect <;> simp

theorem mapDecision_label {d : PolicyDecision} (approved : d.effect ≠ .deny) :
    (mapDecision d).effectiveLabel = d.effectiveLabel := by
  unfold mapDecision
  cases effect : d.effect with
  | permit => rfl
  | deny => exact absurd effect approved
  | downgrade => rfl

structure CrossDomainGuard (σ : Type) where
  source : SecurityDomain
  target : SecurityDomain
  pep : AuditedPep σ
  accredited : Bool

namespace CrossDomainGuard

variable {σ : Type}

/-- Registers both domains and one policy between them; a registration that fails is skipped. -/
def new (source target : SecurityDomain) : CrossDomainGuard σ :=
  let insert (store : PolicyStore) (domain : SecurityDomain) :=
    (store.insertDomain domain).toOption.getD store
  let store := insert (insert .new source) target
  let policy := ⟨source.id.text ++ "-to-" ++ target.id.text, "", source.id, target.id, true⟩
  ⟨source, target, ⟨⟨(store.insertCrossDomainPolicy policy).toOption.getD store⟩, none⟩, false⟩

def fromPolicyPlane (pep : AuditedPep σ) (source target : SecurityDomain) : CrossDomainGuard σ :=
  ⟨source, target, pep, false⟩

def guardSubject (label : ConfidentialityLabel) : SubjectAttributes where
  subjectId := "cross-domain-guard"
  clearance := label.classification

def evaluateWithSubject (g : CrossDomainGuard σ) (label : ConfidentialityLabel)
    (subject : SubjectAttributes) : Effect LabelError σ GuardResult := do
  let decision ← (g.pep.evaluateCrossDomain subject label g.source g.target).mapError
    PolicyError.toLabel
  return mapDecision decision

def evaluate (g : CrossDomainGuard σ) (label : ConfidentialityLabel) :
    Effect LabelError σ GuardResult :=
  g.evaluateWithSubject label (guardSubject label)

/-- The decision on which the guard's answer rests. -/
def decides (g : CrossDomainGuard σ) (label : ConfidentialityLabel) :
    Except PolicyError PolicyDecision :=
  g.pep.pep.evaluateCrossDomain (guardSubject label) label g.source g.target none

/-- The label under which the guard lets something labelled `label` pass. -/
def passes (g : CrossDomainGuard σ) (label : ConfidentialityLabel) : Option ConfidentialityLabel :=
  match g.decides label with
  | .error _ => none
  | .ok decision => if decision.effect = .deny then none else decision.effectiveLabel

theorem passes_some {g : CrossDomainGuard σ} {label effective : ConfidentialityLabel} :
    g.passes label = some effective ↔ ∃ decision, g.decides label = .ok decision ∧
      decision.effect ≠ .deny ∧ decision.effectiveLabel = some effective := by
  unfold passes
  cases g.decides label with
  | error e => simp
  | ok decision => by_cases deny : decision.effect = .deny <;> simp [deny]

/-- The state after the enforcement point noted a decision. -/
def noted (g : CrossDomainGuard σ) (label : ConfidentialityLabel) (decision : PolicyDecision)
    (s : σ) : σ :=
  g.pep.noted (AuditedPep.crossDomainRecord (guardSubject label) label g.source g.target decision) s

theorem evaluate_yields {g : CrossDomainGuard σ} {label : ConfidentialityLabel} {s t : σ}
    {result : GuardResult} : (g.evaluate label).Yields s result t ↔
      ∃ decision, g.decides label = .ok decision ∧ result = mapDecision decision ∧
        t = g.noted label decision s := by
  unfold evaluate evaluateWithSubject
  rw [Effect.yields_bind]
  constructor
  · rintro ⟨decision, _, asked, rest⟩
    obtain ⟨decided, rfl⟩ := AuditedPep.evaluateCrossDomain_yields.mp
      (Effect.yields_mapError.mp asked)
    obtain ⟨rfl, rfl⟩ := Effect.yields_pure.mp rest
    exact ⟨decision, decided, rfl, rfl⟩
  · rintro ⟨decision, decided, rfl, rfl⟩
    exact ⟨decision, _, Effect.yields_mapError.mpr
      (AuditedPep.evaluateCrossDomain_yields.mpr ⟨decided, rfl⟩), Effect.yields_pure.mpr ⟨rfl, rfl⟩⟩

theorem evaluate_error {g : CrossDomainGuard σ} {label : ConfidentialityLabel} {e : PolicyError}
    (failed : g.decides label = .error e) (s : σ) : g.evaluate label s = (.error e.toLabel, s) := by
  have asked : (g.pep.evaluateCrossDomain (guardSubject label) label g.source g.target).mapError
      PolicyError.toLabel s = (.error e.toLabel, s) := by
    have inner : g.pep.evaluateCrossDomain (guardSubject label) label g.source g.target s =
        (.error e, s) := Effect.bind_of_error (Prod.ext failed rfl)
    rw [Effect.mapError, inner]
    rfl
  exact Effect.bind_of_error asked

end CrossDomainGuard

def validateDomainPair (source target : DomainId) : Except LabelError Unit := do
  SecurityDomain.validateId source.text
  SecurityDomain.validateId target.text
  if source.text = target.text then
    throw (.crossDomain "source and target domains must differ for cross-domain transfer")
  else pure ()

end MimDcs
