import MimStack.Spif

/-!
The policy store and the information, decision and enforcement points. The
enforcement point's own audit trail is written with its outcome ignored, so it
never affects a decision; the trail itself is followed where it is configured.
-/
namespace MimPolicy
open RustText IndexedMap IndexedMap.IndexMap MimCore MimModel MimLabeling MimSpif

inductive PolicyError where
  | denied (message : String)
  | notFound (message : String)
  | invalid (message : String)
  | validation (message : String)
  | serialization (message : String)
  deriving DecidableEq

def PolicyError.toString : PolicyError → String
  | .denied m => "access denied: " ++ m
  | .notFound m => "policy not found: " ++ m
  | .invalid m => "invalid policy: " ++ m
  | .validation m => "validation error: " ++ m
  | .serialization m => "serialization error: " ++ m

def PolicyError.fromLabel : LabelError → PolicyError
  | .validation m => .validation m
  | .invalidDomain m => .invalid m
  | .crossDomain m => .denied m
  | other => .validation other.toString

/-- The conversion back into a label error. -/
def PolicyError.toLabel : PolicyError → LabelError
  | .denied m => .crossDomain m
  | .validation m => .validation m
  | .invalid m => .invalidPolicy m
  | other => .validation other.toString

structure CrossDomainPolicy where
  id : String
  description : String := ""
  sourceDomain : DomainId
  targetDomain : DomainId
  allowDowngrade : Bool := true
  deriving DecidableEq

structure DowngradeConfig where
  intersectReleasability : Bool := true
  stripNonTargetCategories : Bool := true
  deriving DecidableEq

structure PolicyStore where
  domains : IndexMap String SecurityDomain
  crossDomainPolicies : List CrossDomainPolicy
  spifPolicies : List SpifPolicy
  downgrade : DowngradeConfig

namespace PolicyStore

def new : PolicyStore := ⟨IndexMap.empty, [], [], {}⟩

def domain (s : PolicyStore) (id : DomainId) : Option SecurityDomain := s.domains.get id.text

def policyForPair (s : PolicyStore) (source target : DomainId) : Option CrossDomainPolicy :=
  s.crossDomainPolicies.find? fun p => p.sourceDomain == source && p.targetDomain == target

def insertDomain (s : PolicyStore) (d : SecurityDomain) : Except PolicyError PolicyStore :=
  match SecurityDomain.validateId d.id.text with
  | .error e => .error (.fromLabel e)
  | .ok () => .ok { s with domains := s.domains.insert d.id.text d }

def insertCrossDomainPolicy (s : PolicyStore) (p : CrossDomainPolicy) :
    Except PolicyError PolicyStore :=
  if isEmpty p.id then .error (.invalid "policy id must not be empty")
  else if (s.domain p.sourceDomain).isNone then
    .error (.notFound ("source domain '" ++ p.sourceDomain.text ++ "' not registered"))
  else if (s.domain p.targetDomain).isNone then
    .error (.notFound ("target domain '" ++ p.targetDomain.text ++ "' not registered"))
  else if s.crossDomainPolicies.any fun existing => existing.id == p.id then
    .error (.invalid ("policy '" ++ p.id ++ "' already exists"))
  else .ok { s with crossDomainPolicies := s.crossDomainPolicies ++ [p] }

def registerSpifPolicy (s : PolicyStore) (policy : SpifPolicy) : Except PolicyError PolicyStore :=
  if s.spifPolicies.any fun p => p.policyId == policy.policyId then
    .error (.invalid ("SPIF policy '" ++ policy.policyId ++ "' already registered"))
  else .ok { s with spifPolicies := s.spifPolicies ++ [policy] }

def presetDomains : List SecurityDomain := [
  { id := ⟨"DOMAIN-HIGH"⟩, name := "High Side", maxClassification := .secret,
    releasableTo := ["USA", "GBR", "DEU"] },
  { id := ⟨"DOMAIN-LOW"⟩, name := "Low Side", maxClassification := .restricted,
    releasableTo := ["USA", "GBR"] }]

def presetPolicy : CrossDomainPolicy where
  id := "high-to-low"
  description := "High-side to low-side cross-domain guard"
  sourceDomain := ⟨"DOMAIN-HIGH"⟩
  targetDomain := ⟨"DOMAIN-LOW"⟩

/-- The preset inserts its domains and policy with errors ignored; none of them fails. -/
def presetHighToLow : PolicyStore :=
  let withDomains := presetDomains.foldl (fun s d => (s.insertDomain d).toOption.getD s) new
  (withDomains.insertCrossDomainPolicy presetPolicy).toOption.getD withDomains

end PolicyStore

inductive AccessOperation where
  | read
  | write
  | delete
  | crossDomainTransfer
  deriving DecidableEq

def operationName : AccessOperation → String
  | .read => "read"
  | .write => "write"
  | .delete => "delete"
  | .crossDomainTransfer => "cross-domain transfer"

structure SubjectAttributes where
  subjectId : String
  clearance : ClassificationLevel
  nationality : Option String := none
  handlingCaveats : List String := []
  missionId : Option String := none
  deriving DecidableEq

def SubjectAttributes.holdsCaveat (s : SubjectAttributes) (caveat : String) : Bool :=
  s.handlingCaveats.any (eqIgnoreAsciiCase · caveat)

structure ResourceAttributes where
  classification : ClassificationLevel
  releasableCountries : List String
  policyId : String
  handlingCaveats : List String
  deriving DecidableEq

def ResourceAttributes.fromLabel (l : ConfidentialityLabel) : ResourceAttributes where
  classification := l.classification
  releasableCountries := l.releasableCountries
  policyId := l.policy.identifier
  handlingCaveats := l.restrictiveCategoryValues

structure EnvironmentAttributes where
  operation : AccessOperation
  sourceDomain : DomainId
  targetDomain : Option DomainId
  missionId : Option String
  deriving DecidableEq

structure PolicyContext where
  subject : SubjectAttributes
  resource : ResourceAttributes
  environment : EnvironmentAttributes
  label : ConfidentialityLabel

/-- The information point: the context of a local access. -/
def accessContext (subject : SubjectAttributes) (label : ConfidentialityLabel)
    (operation : AccessOperation) (domain : SecurityDomain) : Except PolicyError PolicyContext :=
  match label.validate with
  | .error e => .error (.fromLabel e)
  | .ok () => .ok ⟨subject, .fromLabel label, ⟨operation, domain.id, none, none⟩, label⟩

def crossDomainContext (subject : SubjectAttributes) (label : ConfidentialityLabel)
    (source target : SecurityDomain) (missionId : Option String) :
    Except PolicyError PolicyContext :=
  match label.validate with
  | .error e => .error (.fromLabel e)
  | .ok () =>
    if source.id == target.id then
      .error (.invalid "source and target domains must differ for cross-domain transfer")
    else .ok ⟨subject, .fromLabel label,
      ⟨.crossDomainTransfer, source.id, some target.id, missionId.or subject.missionId⟩, label⟩

def labelFromSecurity [UnicodeCase] (security : SecurityClassification) :
    Except PolicyError ConfidentialityLabel :=
  if security.classification.asOption.isSome then
    match ConfidentialityLabel.fromMimSecurity security with
    | .error e => .error (.fromLabel e)
    | .ok label => .ok label
  else .ok (.new .nato .unclassified)

inductive PolicyEffect where
  | permit
  | deny
  | downgrade
  deriving DecidableEq

structure PolicyDecision where
  effect : PolicyEffect
  reason : String
  effectiveLabel : Option ConfidentialityLabel

def PolicyDecision.denied (reason : String) : PolicyDecision := ⟨.deny, reason, none⟩

def downgradeCategories (config : DowngradeConfig) (target : SecurityDomain)
    (categories : List CategoryMarking) : List CategoryMarking :=
  if config.intersectReleasability then
    let intersected := categories.map fun c =>
      if eqIgnoreAsciiCase c.tagName "Releasable to" then
        { c with values := c.values.filter target.acceptsCountry }
      else c
    if config.stripNonTargetCategories then
      intersected.filter fun c =>
        if eqIgnoreAsciiCase c.tagName "Releasable to" then !c.values.isEmpty else true
    else intersected
  else categories

def downgradedLabelForTarget (label : ConfidentialityLabel) (target : SecurityDomain)
    (config : DowngradeConfig) : Except LabelError ConfidentialityLabel :=
  let effective := { label with
    classification := if target.maxClassification < label.classification then
      target.maxClassification else label.classification
    categories := downgradeCategories config target label.categories }
  match effective.validate with
  | .error e => .error e
  | .ok () => .ok effective

abbrev PolicyDecisionPoint := PolicyStore

namespace PolicyDecisionPoint

def requireDomain (pdp : PolicyDecisionPoint) (id : DomainId) : Except PolicyError SecurityDomain :=
  match pdp.domain id with
  | some d => .ok d
  | none => .error (.notFound ("domain '" ++ id.text ++ "' not registered"))

def checkHandlingCaveats (subject : SubjectAttributes) (resource : ResourceAttributes) :
    Option PolicyDecision :=
  (resource.handlingCaveats.find? fun caveat => !subject.holdsCaveat caveat).map fun caveat =>
    .denied ("subject " ++ subject.subjectId ++ " lacks required handling caveat " ++ caveat)

def requiresMission (source : SecurityDomain) (target : Option SecurityDomain) : Bool :=
  !source.missionCompartments.isEmpty ||
    (match target with | some d => !d.missionCompartments.isEmpty | none => false)

def checkMissionCompartment (missionId : Option String) (source : SecurityDomain)
    (target : Option SecurityDomain) : Option PolicyDecision :=
  if !requiresMission source target then none
  else
    match missionId with
    | none => some (.denied "mission compartment required for compartmented domain transfer")
    | some mission =>
      if !source.acceptsMission mission then
        some (.denied ("mission " ++ mission ++ " not authorized in source domain " ++
          source.id.text))
      else
        match target with
        | some d =>
          if !d.acceptsMission mission then
            some (.denied ("mission " ++ mission ++ " not authorized in target domain " ++
              d.id.text))
          else none
        | none => none

def resolveMissionId (subject : SubjectAttributes) (environment : EnvironmentAttributes) :
    Option String :=
  environment.missionId.or subject.missionId

def checkNationality (nationality : Option String) (resource : ResourceAttributes)
    (domain : SecurityDomain) : Option PolicyDecision :=
  match nationality with
  | none => none
  | some nationality =>
    if !resource.releasableCountries.isEmpty &&
        !resource.releasableCountries.contains nationality then
      some (.denied ("subject nationality " ++ nationality ++ " not in resource releasability"))
    else if !domain.acceptsCountry nationality then
      some (.denied ("subject nationality " ++ nationality ++ " not accepted in domain " ++
        domain.id.text))
    else none

def checkReleasability (resource : ResourceAttributes) (domain : SecurityDomain) (role : String) :
    Option PolicyDecision :=
  (resource.releasableCountries.find? fun country => !domain.acceptsCountry country).map
    fun country => .denied ("releasability to " ++ country ++ " not permitted in " ++ role ++
      domain.id.text)

def evaluateAccess (pdp : PolicyDecisionPoint) (context : PolicyContext) :
    Except PolicyError PolicyDecision :=
  match requireDomain pdp context.environment.sourceDomain with
  | .error e => .error e
  | .ok domain =>
    match checkHandlingCaveats context.subject context.resource with
    | some deny => .ok deny
    | none =>
      match checkMissionCompartment (resolveMissionId context.subject context.environment)
          domain none with
      | some deny => .ok deny
      | none =>
        if context.subject.clearance < context.resource.classification then
          .ok (.denied ("subject clearance " ++ context.subject.clearance.asStanagStr ++
            " insufficient for resource classification " ++
            context.resource.classification.asStanagStr))
        else if domain.maxClassification < context.resource.classification then
          .ok (.denied ("resource classification " ++ context.resource.classification.asStanagStr ++
            " exceeds domain max " ++ domain.maxClassification.asStanagStr))
        else
          match checkNationality context.subject.nationality context.resource domain with
          | some deny => .ok deny
          | none =>
            match checkReleasability context.resource domain "domain " with
            | some deny => .ok deny
            | none => .ok ⟨.permit, operationName context.environment.operation ++
                " permitted for subject " ++ context.subject.subjectId ++ " in domain " ++
                domain.id.text, some context.label⟩

def releaseInto (pdp : PolicyDecisionPoint) (context : PolicyContext) (target : SecurityDomain) :
    Except PolicyError PolicyDecision :=
  if target.maxClassification < context.label.classification then
    if .unclassified ≤ target.maxClassification then
      match downgradedLabelForTarget context.label target pdp.downgrade with
      | .error e => .error (.fromLabel e)
      | .ok downgraded => .ok ⟨.downgrade, "classification " ++
          context.label.classification.asStanagStr ++ " exceeds target domain max " ++
          target.maxClassification.asStanagStr ++ "; downgrading to " ++
          downgraded.classification.asStanagStr ++ " with category intersection", some downgraded⟩
    else .ok (.denied ("classification " ++ context.label.classification.asStanagStr ++
      " exceeds target domain max " ++ target.maxClassification.asStanagStr))
  else .ok ⟨.permit, "cross-domain transfer permitted from " ++
    context.environment.sourceDomain.text ++ " to " ++ target.id.text, some context.label⟩

def evaluateCrossDomain (pdp : PolicyDecisionPoint) (context : PolicyContext) :
    Except PolicyError PolicyDecision :=
  match context.environment.targetDomain with
  | none => .error (.invalid "cross-domain evaluation requires target domain")
  | some targetId =>
    match pdp.policyForPair context.environment.sourceDomain targetId with
    | none => .error (.notFound ("no cross-domain policy for " ++
        context.environment.sourceDomain.text ++ " -> " ++ targetId.text))
    | some _ =>
      match requireDomain pdp context.environment.sourceDomain with
      | .error e => .error e
      | .ok source =>
        match requireDomain pdp targetId with
        | .error e => .error e
        | .ok target =>
          match checkHandlingCaveats context.subject context.resource with
          | some deny => .ok deny
          | none =>
            match checkMissionCompartment
                (resolveMissionId context.subject context.environment) source (some target) with
            | some deny => .ok deny
            | none =>
              match checkReleasability context.resource target "target domain " with
              | some deny => .ok deny
              | none => releaseInto pdp context target

def evaluate (pdp : PolicyDecisionPoint) (context : PolicyContext) :
    Except PolicyError PolicyDecision :=
  match context.environment.operation with
  | .crossDomainTransfer => evaluateCrossDomain pdp context
  | .read | .write | .delete => evaluateAccess pdp context

end PolicyDecisionPoint

structure PolicyEnforcementPoint where
  pdp : PolicyDecisionPoint

namespace PolicyEnforcementPoint

def evaluateAccess (pep : PolicyEnforcementPoint) (subject : SubjectAttributes)
    (label : ConfidentialityLabel) (operation : AccessOperation) (domain : SecurityDomain) :
    Except PolicyError PolicyDecision :=
  match accessContext subject label operation domain with
  | .error e => .error e
  | .ok context => PolicyDecisionPoint.evaluate pep.pdp context

def enforceAccess (pep : PolicyEnforcementPoint) (subject : SubjectAttributes)
    (label : ConfidentialityLabel) (operation : AccessOperation) (domain : SecurityDomain) :
    Except PolicyError PolicyDecision :=
  match pep.evaluateAccess subject label operation domain with
  | .error e => .error e
  | .ok decision =>
    if decision.effect == .deny then .error (.denied decision.reason) else .ok decision

def evaluateCrossDomain (pep : PolicyEnforcementPoint) (subject : SubjectAttributes)
    (label : ConfidentialityLabel) (source target : SecurityDomain) (missionId : Option String) :
    Except PolicyError PolicyDecision :=
  match crossDomainContext subject label source target missionId with
  | .error e => .error e
  | .ok context => PolicyDecisionPoint.evaluate pep.pdp context

def enforceCrossDomain (pep : PolicyEnforcementPoint) (subject : SubjectAttributes)
    (label : ConfidentialityLabel) (source target : SecurityDomain) (missionId : Option String) :
    Except PolicyError PolicyDecision :=
  match pep.evaluateCrossDomain subject label source target missionId with
  | .error e => .error e
  | .ok decision =>
    if decision.effect == .deny then .error (.denied decision.reason) else .ok decision

end PolicyEnforcementPoint

structure AccessPermitted (subject : SubjectAttributes) (label : ConfidentialityLabel)
    (domain : SecurityDomain) : Prop where
  caveats : ∀ caveat ∈ label.restrictiveCategoryValues, subject.holdsCaveat caveat = true
  mission : domain.missionCompartments = [] ∨
    ∃ m, subject.missionId = some m ∧ domain.acceptsMission m = true
  cleared : label.classification ≤ subject.clearance
  contained : label.classification ≤ domain.maxClassification
  national : ∀ n, subject.nationality = some n →
    (label.releasableCountries = [] ∨ n ∈ label.releasableCountries) ∧
      domain.acceptsCountry n = true
  releasable : ∀ country ∈ label.releasableCountries, domain.acceptsCountry country = true

section Checks
open PolicyDecisionPoint

theorem checkHandlingCaveats_none (subject : SubjectAttributes) (resource : ResourceAttributes) :
    checkHandlingCaveats subject resource = none ↔
      ∀ caveat ∈ resource.handlingCaveats, subject.holdsCaveat caveat = true := by
  simp [checkHandlingCaveats]

theorem checkReleasability_none (resource : ResourceAttributes) (domain : SecurityDomain)
    (role : String) :
    checkReleasability resource domain role = none ↔
      ∀ country ∈ resource.releasableCountries, domain.acceptsCountry country = true := by
  simp [checkReleasability]

theorem checkMissionCompartment_none (missionId : Option String) (domain : SecurityDomain) :
    checkMissionCompartment missionId domain none = none ↔
      domain.missionCompartments = [] ∨
        ∃ m, missionId = some m ∧ domain.acceptsMission m = true := by
  unfold checkMissionCompartment requiresMission
  cases missionId with
  | none => by_cases open' : domain.missionCompartments = [] <;> simp [open']
  | some m =>
    by_cases open' : domain.missionCompartments = []
    · simp [open']
    · by_cases accepted : domain.acceptsMission m = true <;> simp [open', accepted]

theorem checkNationality_none (nationality : Option String) (resource : ResourceAttributes)
    (domain : SecurityDomain) :
    checkNationality nationality resource domain = none ↔
      ∀ n, nationality = some n →
        (resource.releasableCountries = [] ∨ n ∈ resource.releasableCountries) ∧
          domain.acceptsCountry n = true := by
  unfold checkNationality
  cases nationality with
  | none => simp
  | some n =>
    by_cases everyone : resource.releasableCountries = []
    · by_cases accepted : domain.acceptsCountry n = true <;> simp [everyone, accepted]
    · by_cases listed : n ∈ resource.releasableCountries <;>
        by_cases accepted : domain.acceptsCountry n = true <;> simp [everyone, listed, accepted]

def Approves (result : Except PolicyError PolicyDecision) (decision : PolicyDecision) : Prop :=
  result = .ok decision ∧ decision.effect ≠ .deny

def Permits (result : Except PolicyError PolicyDecision) : Prop :=
  ∃ decision, result = .ok decision ∧ decision.effect ≠ .deny

def OnlyDenies (check : Option PolicyDecision) : Prop :=
  ∀ d, check = some d → ∃ reason, d = .denied reason

theorem checked_or_denied {check : Option PolicyDecision} {rest : Except PolicyError PolicyDecision}
    {decision : PolicyDecision} (denies : OnlyDenies check)
    (decided : (match check with | some deny => Except.ok deny | none => rest) = .ok decision) :
    (∃ reason, decision = .denied reason) ∨ rest = .ok decision := by
  cases found : check with
  | none =>
    rw [found] at decided
    exact .inr decided
  | some d =>
    rw [found] at decided
    obtain rfl := Except.ok.inj decided
    exact .inl (denies d found)

theorem approves_check (check : Option PolicyDecision) (rest : Except PolicyError PolicyDecision)
    (decision : PolicyDecision) : OnlyDenies check →
    (Approves (match check with | some deny => .ok deny | none => rest) decision ↔
      check = none ∧ Approves rest decision) := by
  intro denies
  cases found : check with
  | none => simp
  | some d =>
    simp only [reduceCtorEq, false_and, iff_false]
    intro approved
    obtain ⟨same, permitted⟩ := approved
    obtain ⟨reason, rfl⟩ := denies d found
    exact permitted (Except.ok.inj same ▸ rfl)

theorem permits_check (check : Option PolicyDecision) (rest : Except PolicyError PolicyDecision) :
    OnlyDenies check →
    (Permits (match check with | some deny => .ok deny | none => rest) ↔
      check = none ∧ Permits rest) := by
  intro denies
  exact (exists_congr fun d => approves_check check rest d denies).trans exists_and_left

theorem permits_guard (c : Prop) [Decidable c] (reason : String)
    (rest : Except PolicyError PolicyDecision) :
    Permits (if c then .ok (.denied reason) else rest) ↔ ¬ c ∧ Permits rest := by
  by_cases holds : c
  · simp [holds, Permits, PolicyDecision.denied]
  · simp [holds]

theorem checkHandlingCaveats_denies (subject : SubjectAttributes) (resource : ResourceAttributes) :
    OnlyDenies (checkHandlingCaveats subject resource) := by
  intro d found
  obtain ⟨_, _, rfl⟩ := Option.map_eq_some_iff.mp found
  exact ⟨_, rfl⟩

theorem checkReleasability_denies (resource : ResourceAttributes) (domain : SecurityDomain)
    (role : String) : OnlyDenies (checkReleasability resource domain role) := by
  intro d found
  obtain ⟨_, _, rfl⟩ := Option.map_eq_some_iff.mp found
  exact ⟨_, rfl⟩

theorem checkMissionCompartment_denies (missionId : Option String) (source : SecurityDomain)
    (target : Option SecurityDomain) :
    OnlyDenies (checkMissionCompartment missionId source target) := by
  intro d found
  unfold checkMissionCompartment at found
  split at found
  · cases found
  · split at found
    · exact ⟨_, (Option.some.inj found).symm⟩
    · split at found
      · exact ⟨_, (Option.some.inj found).symm⟩
      · split at found
        · split at found
          · exact ⟨_, (Option.some.inj found).symm⟩
          · cases found
        · cases found

theorem checkNationality_denies (nationality : Option String) (resource : ResourceAttributes)
    (domain : SecurityDomain) : OnlyDenies (checkNationality nationality resource domain) := by
  intro d found
  unfold checkNationality at found
  split at found
  · cases found
  · split at found
    · exact ⟨_, (Option.some.inj found).symm⟩
    · split at found
      · exact ⟨_, (Option.some.inj found).symm⟩
      · cases found

theorem evaluateAccess_permits (pdp : PolicyDecisionPoint) (subject : SubjectAttributes)
    (label : ConfidentialityLabel) (operation : AccessOperation) (id : DomainId)
    (domain : SecurityDomain) (registered : pdp.domain id = some domain) :
    Permits (evaluateAccess pdp
        ⟨subject, .fromLabel label, ⟨operation, id, none, none⟩, label⟩) ↔
      AccessPermitted subject label domain := by
  have found : requireDomain pdp id = .ok domain := by rw [requireDomain, registered]
  simp only [evaluateAccess, found, resolveMissionId, Option.none_or]
  rw [permits_check _ _ (checkHandlingCaveats_denies _ _), checkHandlingCaveats_none,
    permits_check _ _ (checkMissionCompartment_denies _ _ none), checkMissionCompartment_none,
    permits_guard, permits_guard,
    permits_check _ _ (checkNationality_denies _ _ _), checkNationality_none,
    permits_check _ _ (checkReleasability_denies _ _ _), checkReleasability_none]
  have last : ∀ reason, Permits (.ok ⟨.permit, reason, some label⟩) := fun reason =>
    ⟨_, rfl, by simp⟩
  constructor
  · rintro ⟨caveats, mission, cleared, contained, national, releasable, -⟩
    exact ⟨caveats, mission, not_lt.mp cleared, not_lt.mp contained, national, releasable⟩
  · intro granted
    exact ⟨granted.caveats, granted.mission, not_lt.mpr granted.cleared,
      not_lt.mpr granted.contained, granted.national, granted.releasable, last _⟩

theorem evaluateAccess_permitted (pep : PolicyEnforcementPoint) (subject : SubjectAttributes)
    (label : ConfidentialityLabel) (operation : AccessOperation) (domain : SecurityDomain)
    (local' : operation ≠ .crossDomainTransfer) :
    Permits (pep.evaluateAccess subject label operation domain) ↔
      label.validate = .ok () ∧ ∃ registered, pep.pdp.domain domain.id = some registered ∧
        AccessPermitted subject label registered := by
  unfold PolicyEnforcementPoint.evaluateAccess accessContext
  cases valid : label.validate with
  | error e => simp [Permits]
  | ok u =>
    have dispatch : PolicyDecisionPoint.evaluate pep.pdp ⟨subject, .fromLabel label,
        ⟨operation, domain.id, none, none⟩, label⟩ = evaluateAccess pep.pdp ⟨subject,
        .fromLabel label, ⟨operation, domain.id, none, none⟩, label⟩ := by
      cases operation <;> first | rfl | exact absurd rfl local'
    simp only [dispatch, true_and]
    cases known : pep.pdp.domain domain.id with
    | none =>
      have missing : requireDomain pep.pdp domain.id = .error (.notFound ("domain '" ++
          domain.id.text ++ "' not registered")) := by rw [requireDomain, known]
      simp [evaluateAccess, missing, Permits]
    | some registered =>
      rw [evaluateAccess_permits pep.pdp subject label operation domain.id registered known]
      simp

theorem enforceAccess_ok (pep : PolicyEnforcementPoint) (subject : SubjectAttributes)
    (label : ConfidentialityLabel) (operation : AccessOperation) (domain : SecurityDomain)
    (local' : operation ≠ .crossDomainTransfer) :
    (∃ decision, pep.enforceAccess subject label operation domain = .ok decision) ↔
      label.validate = .ok () ∧ ∃ registered, pep.pdp.domain domain.id = some registered ∧
        AccessPermitted subject label registered := by
  rw [← evaluateAccess_permitted pep subject label operation domain local']
  unfold PolicyEnforcementPoint.enforceAccess Permits
  cases pep.evaluateAccess subject label operation domain with
  | error e => simp
  | ok decision => by_cases deny : decision.effect = .deny <;> simp [deny]

theorem AccessPermitted.congr {subject : SubjectAttributes} {a b : ConfidentialityLabel}
    {domain : SecurityDomain} (classification : a.classification = b.classification)
    (categories : a.categories = b.categories) (granted : AccessPermitted subject a domain) :
    AccessPermitted subject b domain := by
  have restrictive : b.restrictiveCategoryValues = a.restrictiveCategoryValues := by
    rw [ConfidentialityLabel.restrictiveCategoryValues, ← categories]
    rfl
  have countries : b.releasableCountries = a.releasableCountries := by
    rw [ConfidentialityLabel.releasableCountries, ← categories]
    rfl
  obtain ⟨caveats, mission, cleared, contained, national, releasable⟩ := granted
  exact ⟨restrictive ▸ caveats, mission, classification ▸ cleared, classification ▸ contained,
    countries ▸ national, countries ▸ releasable⟩

theorem enforceAccess_congr {pep : PolicyEnforcementPoint} {subject : SubjectAttributes}
    {a b : ConfidentialityLabel} {operation : AccessOperation} {domain : SecurityDomain}
    (local' : operation ≠ .crossDomainTransfer) (classification : a.classification = b.classification)
    (categories : a.categories = b.categories) (valid : b.validate = .ok ())
    (granted : ∃ decision, pep.enforceAccess subject a operation domain = .ok decision) :
    ∃ decision, pep.enforceAccess subject b operation domain = .ok decision := by
  obtain ⟨_, registered, known, permitted⟩ := (enforceAccess_ok _ _ _ _ _ local').mp granted
  exact (enforceAccess_ok _ _ _ _ _ local').mpr
    ⟨valid, registered, known, permitted.congr classification categories⟩

end Checks

example : (PolicyStore.presetHighToLow.domain ⟨"DOMAIN-LOW"⟩).map (·.maxClassification) =
    some .restricted := by decide

end MimPolicy
