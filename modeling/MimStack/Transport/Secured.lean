import MimStack.Transport.Replication
import MimStack.Policy

/-!
The exchange broker behind the policy enforcement point. Every operation first
derives a label from an instance's security metadata and asks for permission in
the broker's own domain.
-/
namespace MimTransport
open RustText KeyedLog StepRuns MimCore MimModel MimRuntime MimRuntime.InstanceStore MimLabeling
open MimPolicy ExchangeBroker

def mapPolicyError : PolicyError → TransportError
  | .denied m => .forbidden m
  | .validation m => .validation m
  | .notFound m => .notFound m
  | .invalid m => .invalidRequest m
  | .serialization m => .serialization m

structure SecuredExchangeBroker where
  inner : ExchangeBroker
  pep : PolicyEnforcementPoint
  subject : SubjectAttributes
  domain : SecurityDomain

def SecuredExchangeBroker.withInner (s : SecuredExchangeBroker) (inner : ExchangeBroker) :
    SecuredExchangeBroker :=
  { s with inner }

section Inner

variable (s : SecuredExchangeBroker) (b : ExchangeBroker)

@[simp] theorem withInner_inner : (s.withInner b).inner = b := rfl

end Inner

variable [UnicodeCase]

def instanceLabel (i : MimInstance) : Except TransportError ConfidentialityLabel :=
  match labelFromSecurity i.metadata.security with
  | .error e => .error (mapPolicyError e)
  | .ok label => .ok label

namespace SecuredExchangeBroker

/-- The label of an instance and the enforcement point's answer about it. -/
def authorize (s : SecuredExchangeBroker) (subject : SubjectAttributes) (i : MimInstance)
    (operation : AccessOperation) : Except TransportError PolicyDecision :=
  match instanceLabel i with
  | .error e => .error e
  | .ok label =>
    match s.pep.enforceAccess subject label operation s.domain with
    | .error e => .error (mapPolicyError e)
    | .ok decision => .ok decision

def putObjectAs (s : SecuredExchangeBroker) (subject : SubjectAttributes)
    (request : PutObjectRequest) :
    Option (Except TransportError PutObjectResponse × SecuredExchangeBroker) :=
  match s.authorize subject request.inst .write with
  | .error e => some (.error e, s)
  | .ok _ => (s.inner.putObject request).map fun r => (r.1, s.withInner r.2)

def getByOidAs (s : SecuredExchangeBroker) (subject : SubjectAttributes)
    (request : GetByOidRequest) : Except TransportError GetByOidResponse :=
  match s.inner.getByOid request with
  | .error e => .error e
  | .ok response =>
    match s.authorize subject response.inst .read with
    | .error e => .error e
    | .ok _ => .ok response

/-- The loop over a page: a label that cannot be derived aborts it, a refusal drops the
instance. -/
def permittedInstances (s : SecuredExchangeBroker) (subject : SubjectAttributes) :
    List MimInstance → Except TransportError (List MimInstance)
  | [] => .ok []
  | i :: rest =>
    match instanceLabel i with
    | .error e => .error e
    | .ok label =>
      match s.permittedInstances subject rest with
      | .error e => .error e
      | .ok more =>
        match s.pep.enforceAccess subject label .read s.domain with
        | .ok _ => .ok (i :: more)
        | .error _ => .ok more

def getByFilterAs (s : SecuredExchangeBroker) (subject : SubjectAttributes)
    (request : GetByFilterRequest) : Except TransportError GetByFilterResponse :=
  match s.inner.getByFilter request with
  | .error e => .error e
  | .ok response =>
    match s.permittedInstances subject response.instances with
    | .error e => .error e
    | .ok permitted => .ok ⟨permitted, permitted.length, response.total⟩

def deleteObjectAs (s : SecuredExchangeBroker) (subject : SubjectAttributes)
    (request : DeleteObjectRequest) :
    Except TransportError DeleteObjectResponse × SecuredExchangeBroker :=
  match s.inner.getByOid ⟨request.oid⟩ with
  | .error e => (.error e, s)
  | .ok existing =>
    match s.authorize subject existing.inst .delete with
    | .error e => (.error e, s)
    | .ok _ => ((s.inner.deleteObject request).1, s.withInner (s.inner.deleteObject request).2)

def syncSinceAs (s : SecuredExchangeBroker) (subject : SubjectAttributes) (since : Nat) :
    SyncResponse where
  latestSequence := (s.inner.syncSince since).latestSequence
  entries := (s.inner.syncSince since).entries.filter fun entry =>
    entry.operation == .deleteObject || (s.getByOidAs subject ⟨entry.oid⟩).isOk

/-- The calls a writer or a reader makes without naming a subject use the broker's own. -/
def putObject (s : SecuredExchangeBroker) (request : PutObjectRequest) :
    Option (Except TransportError PutObjectResponse × SecuredExchangeBroker) :=
  s.putObjectAs s.subject request

def getByOid (s : SecuredExchangeBroker) (request : GetByOidRequest) :
    Except TransportError GetByOidResponse :=
  s.getByOidAs s.subject request

def getByFilter (s : SecuredExchangeBroker) (request : GetByFilterRequest) :
    Except TransportError GetByFilterResponse :=
  s.getByFilterAs s.subject request

def deleteObject (s : SecuredExchangeBroker) (request : DeleteObjectRequest) :
    Except TransportError DeleteObjectResponse × SecuredExchangeBroker :=
  s.deleteObjectAs s.subject request

def syncSince (s : SecuredExchangeBroker) (since : Nat) : SyncResponse :=
  s.syncSinceAs s.subject since

end SecuredExchangeBroker

section Laws
open SecuredExchangeBroker

variable (s : SecuredExchangeBroker)

@[simp] theorem authorize_withInner (b : ExchangeBroker) (subject : SubjectAttributes)
    (i : MimInstance) (operation : AccessOperation) :
    (s.withInner b).authorize subject i operation = s.authorize subject i operation := rfl

theorem authorize_ok_iff (subject : SubjectAttributes) (i : MimInstance)
    (operation : AccessOperation) (decision : PolicyDecision) :
    s.authorize subject i operation = .ok decision ↔
      ∃ label, instanceLabel i = .ok label ∧
        s.pep.enforceAccess subject label operation s.domain = .ok decision := by
  unfold authorize
  cases labelled : instanceLabel i with
  | error e => simp
  | ok label =>
    cases enforced : s.pep.enforceAccess subject label operation s.domain with
    | error e => simp [enforced]
    | ok d => simp [enforced]

theorem putObjectAs_cases (subject : SubjectAttributes) (request : PutObjectRequest)
    (result : Except TransportError PutObjectResponse) (after : SecuredExchangeBroker)
    (ran : s.putObjectAs subject request = some (result, after)) :
    ((∃ e, result = .error e) ∧ after = s ∧
        ((∃ e, s.authorize subject request.inst .write = .error e) ∨
          ∃ e, validatePut s.inner.registry request.inst = some (.error e))) ∨
      (∃ d, s.authorize subject request.inst .write = .ok d) ∧
        validatePut s.inner.registry request.inst = some (.ok ()) ∧
        (∃ response, result = .ok response) ∧
        after = s.withInner (s.inner.commitPut request.inst) := by
  unfold putObjectAs at ran
  split at ran
  · rename_i e refused
    simp only [Option.some.injEq, Prod.mk.injEq] at ran
    exact .inl ⟨⟨e, ran.1.symm⟩, ran.2.symm, .inl ⟨e, refused⟩⟩
  · rename_i d permitted
    obtain ⟨⟨inner, b⟩, put, same⟩ := Option.map_eq_some_iff.mp ran
    simp only [Prod.mk.injEq] at same
    obtain ⟨rfl, rfl⟩ := same
    rcases putObject_cases _ _ _ _ put with ⟨e, invalid, failed, rfl⟩ | ⟨valid, done, rfl⟩
    · exact .inl ⟨⟨e, failed⟩, rfl, .inr ⟨e, invalid⟩⟩
    · exact .inr ⟨⟨d, permitted⟩, valid, ⟨_, done⟩, rfl⟩

theorem putObjectAs_accepted (subject : SubjectAttributes) (i : MimInstance)
    (permitted : (s.authorize subject i .write).isOk = true)
    (valid : validatePut s.inner.registry i = some (.ok ())) :
    s.putObjectAs subject ⟨i⟩ = some (.ok ⟨i.oid, !s.inner.storeContains i.oid⟩,
      s.withInner (s.inner.commitPut i)) := by
  unfold putObjectAs
  cases authorized : s.authorize subject i .write with
  | error e =>
    rw [authorized] at permitted
    cases permitted
  | ok d => simp only [putObject_accepted s.inner i valid, Option.map_some]

theorem getByOidAs_ok_iff (subject : SubjectAttributes) (oid : ObjectIdentifier)
    (response : GetByOidResponse) :
    s.getByOidAs subject ⟨oid⟩ = .ok response ↔
      oid ∉ s.inner.inactive ∧ s.inner.store.get oid = some response.inst ∧
        ∃ d, s.authorize subject response.inst .read = .ok d := by
  rw [← and_assoc, ← getByOid_ok_iff]
  unfold SecuredExchangeBroker.getByOidAs
  cases found : s.inner.getByOid ⟨oid⟩ with
  | error e => simp
  | ok got =>
    cases permitted : s.authorize subject got.inst .read with
    | error e =>
      simp only [permitted, Except.ok.injEq, reduceCtorEq, false_iff, not_and]
      rintro rfl ⟨d, granted⟩
      rw [permitted] at granted
      cases granted
    | ok d =>
      simp only [permitted, Except.ok.injEq]
      constructor
      · rintro rfl
        exact ⟨rfl, d, permitted⟩
      · exact fun h => h.1

theorem getByFilterAs_ok_iff (subject : SubjectAttributes) (request : GetByFilterRequest)
    (response : GetByFilterResponse) :
    s.getByFilterAs subject request = .ok response ↔
      ∃ page shown, s.inner.getByFilter request = .ok page ∧
        s.permittedInstances subject page.instances = .ok shown ∧
        ⟨shown, shown.length, page.total⟩ = response := by
  unfold SecuredExchangeBroker.getByFilterAs
  cases s.inner.getByFilter request with
  | error e => simp
  | ok page =>
    cases permitted : s.permittedInstances subject page.instances with
    | error e => simp [permitted]
    | ok shown => simp [permitted]

theorem deleteObjectAs_permitted {subject : SubjectAttributes} {request : DeleteObjectRequest}
    {response : DeleteObjectResponse}
    (answered : (s.deleteObjectAs subject request).1 = .ok response) :
    ∃ existing d, s.inner.getByOid ⟨request.oid⟩ = .ok existing ∧
      s.authorize subject existing.inst .delete = .ok d := by
  unfold deleteObjectAs at answered
  cases looked : s.inner.getByOid ⟨request.oid⟩ with
  | error e =>
    rw [looked] at answered
    cases answered
  | ok existing =>
    cases permitted : s.authorize subject existing.inst .delete with
    | error e =>
      simp only [looked, permitted] at answered
      cases answered
    | ok d => exact ⟨existing, d, rfl, permitted⟩

theorem deleteObjectAs_cases (subject : SubjectAttributes) (request : DeleteObjectRequest) :
    (∃ e, s.deleteObjectAs subject request = (.error e, s)) ∨
      ∃ response, s.inner.storeContains request.oid = true ∧
        s.deleteObjectAs subject request =
          (.ok response, s.withInner (s.inner.commitDelete request.oid)) := by
  unfold deleteObjectAs
  cases found : s.inner.getByOid ⟨request.oid⟩ with
  | error e => exact .inl ⟨e, rfl⟩
  | ok existing =>
    cases permitted : s.authorize subject existing.inst .delete with
    | error e => exact .inl ⟨e, by simp [permitted]⟩
    | ok d =>
      have stored : s.inner.storeContains request.oid = true := by
        rw [storeContains, containsKey_iff, mem_keys, ((getByOid_ok_iff _ _ _).mp found).2]
        rfl
      rcases deleteObject_cases s.inner request with ⟨absent, _⟩ | ⟨_, ran⟩
      · rw [stored] at absent
        cases absent
      · refine .inr ⟨⟨request.oid, decide (request.oid ∉ s.inner.inactive)⟩, stored, ?_⟩
        simp only [permitted, ran]

end Laws

inductive SecuredStep where
  | put (subject : SubjectAttributes) (request : PutObjectRequest)
  | delete (subject : SubjectAttributes) (request : DeleteObjectRequest)

def securedStep (s : SecuredExchangeBroker) : SecuredStep → Option SecuredExchangeBroker
  | .put subject request => (s.putObjectAs subject request).map Prod.snd
  | .delete subject request => some (s.deleteObjectAs subject request).2

theorem securedStep_cases (s next : SecuredExchangeBroker) (l : SecuredStep)
    (taken : securedStep s l = some next) :
    next = s ∨ ∃ b oid, next = s.withInner b ∧ Advances s.inner b oid ∧
      (Consistent s.inner → Roomy s.inner → Consistent b) := by
  cases l with
  | put subject request =>
    obtain ⟨⟨result, after⟩, ran, rfl⟩ := Option.map_eq_some_iff.mp taken
    rcases putObjectAs_cases s subject request result after ran with
      ⟨_, rfl, _⟩ | ⟨_, valid, _, rfl⟩
    · exact .inl rfl
    · exact .inr ⟨_, _, rfl, advances_commitPut _ _,
        fun c room => commitPut_consistent c room _ valid⟩
  | delete subject request =>
    obtain rfl := Option.some.inj taken
    rcases deleteObjectAs_cases s subject request with ⟨e, ran⟩ | ⟨response, stored, ran⟩
    · exact .inl (by rw [ran])
    · refine .inr ⟨s.inner.commitDelete request.oid, request.oid, by rw [ran],
        advances_commitDelete _ _, fun c room => commitDelete_consistent c room _ stored⟩

theorem securedStep_grows (s next : SecuredExchangeBroker) (l : SecuredStep)
    (taken : securedStep s l = some next) :
    s.inner.journal.length ≤ next.inner.journal.length := by
  rcases securedStep_cases s next l taken with rfl | ⟨b, oid, rfl, advance, _⟩
  · exact Nat.le_refl _
  · rw [withInner_inner, advances_grows advance]
    exact Nat.le_succ _

def highDomain : SecurityDomain where
  id := ⟨"DOMAIN-HIGH"⟩
  name := "High Side"
  maxClassification := .secret
  releasableTo := ["USA", "GBR", "DEU"]

def secretSubject : SubjectAttributes := { subjectId := "high", clearance := .secret }

def restrictedSubject : SubjectAttributes := { subjectId := "low", clearance := .restricted }

def securedFixture : SecuredExchangeBroker :=
  ⟨.new wireRegistry, ⟨.presetHighToLow⟩, secretSubject, highDomain⟩

def classified (oid level : String) : MimInstance :=
  wireInstance oid { classification := .value level }

theorem securedStep_put_fixture (s : SecuredExchangeBroker) (subject : SubjectAttributes)
    (oid level : String)
    (permitted : (s.authorize subject (classified oid level) .write).isOk = true)
    (named : isEmpty oid = false) (registry : s.inner.registry = wireRegistry) :
    securedStep s (.put subject ⟨classified oid level⟩) =
      some (s.withInner (s.inner.commitPut (classified oid level))) := by
  rw [securedStep, putObjectAs_accepted s subject _ permitted
    (registry ▸ wireInstance_accepted oid _ named)]
  rfl

end MimTransport
