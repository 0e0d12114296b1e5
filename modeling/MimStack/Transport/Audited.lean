import MimStack.Lib.Notes
import MimStack.Audit
import MimStack.Transport.Objects

/-!
The secured broker with an audit trail. The enforcement point notes every decision
and looks at nothing it has noted; what the log makes of a note, and whether it fails
on it, has no part in any answer.
-/
namespace MimTransport
open RustText Fallible ObjectSystems MimCore MimModel MimRuntime MimRuntime.InstanceStore
open MimLabeling MimPolicy MimAudit ExchangeBroker SecuredExchangeBroker

structure AuditedBroker (σ : Type) where
  inner : ExchangeBroker
  pep : AuditedPep σ
  subject : SubjectAttributes
  domain : SecurityDomain
  trail : σ

variable [UnicodeCase] {σ : Type}

namespace AuditedBroker

/-- The broker without its trail. -/
def secured (b : AuditedBroker σ) : SecuredExchangeBroker :=
  ⟨b.inner, b.pep.pep, b.subject, b.domain⟩

def authorize (b : AuditedBroker σ) (subject : SubjectAttributes) (i : MimInstance)
    (operation : AccessOperation) : Effect TransportError σ PolicyDecision := do
  let label ← Effect.ofExcept (instanceLabel i)
  (b.pep.enforceAccess subject label operation b.domain).mapError mapPolicyError

def getByOidAs (b : AuditedBroker σ) (subject : SubjectAttributes) (request : GetByOidRequest) :
    Effect TransportError σ GetByOidResponse := do
  let response ← Effect.ofExcept (b.inner.getByOid request)
  let _ ← b.authorize subject response.inst .read
  return response

def permittedInstances (b : AuditedBroker σ) (subject : SubjectAttributes) :
    List MimInstance → Effect TransportError σ (List MimInstance)
  | [] => pure []
  | i :: rest => do
    let label ← Effect.ofExcept (instanceLabel i)
    let permitted ← Effect.succeeds (b.pep.enforceAccess subject label .read b.domain)
    let more ← b.permittedInstances subject rest
    return if permitted then i :: more else more

def getByFilterAs (b : AuditedBroker σ) (subject : SubjectAttributes)
    (request : GetByFilterRequest) : Effect TransportError σ GetByFilterResponse := do
  let response ← Effect.ofExcept (b.inner.getByFilter request)
  let permitted ← b.permittedInstances subject response.instances
  return ⟨permitted, permitted.length, response.total⟩

/-- The loop over the journal: nothing in it can fail. -/
def permittedEntries (b : AuditedBroker σ) (subject : SubjectAttributes) :
    List JournalEntry → σ → List JournalEntry × σ
  | [], trail => ([], trail)
  | entry :: rest, trail =>
    if entry.operation == .deleteObject then
      let more := b.permittedEntries subject rest trail
      (entry :: more.1, more.2)
    else
      let shown := b.getByOidAs subject ⟨entry.oid⟩ trail
      let more := b.permittedEntries subject rest shown.2
      (if shown.1.isOk then entry :: more.1 else more.1, more.2)

def syncSinceAs (b : AuditedBroker σ) (subject : SubjectAttributes) (since : Nat) :
    SyncResponse × AuditedBroker σ :=
  let kept := b.permittedEntries subject (b.inner.syncSince since).entries b.trail
  (⟨(b.inner.syncSince since).latestSequence, kept.1⟩, { b with trail := kept.2 })

def putObjectAs (b : AuditedBroker σ) (subject : SubjectAttributes) (request : PutObjectRequest) :
    Option (Except TransportError PutObjectResponse × AuditedBroker σ) :=
  match b.authorize subject request.inst .write b.trail with
  | (.error e, trail) => some (.error e, { b with trail })
  | (.ok _, trail) =>
    (b.inner.putObject request).map fun r => (r.1, { b with inner := r.2, trail })

def deleteObjectAs (b : AuditedBroker σ) (subject : SubjectAttributes)
    (request : DeleteObjectRequest) :
    Except TransportError DeleteObjectResponse × AuditedBroker σ :=
  match b.inner.getByOid ⟨request.oid⟩ with
  | .error e => (.error e, b)
  | .ok existing =>
    match b.authorize subject existing.inst .delete b.trail with
    | (.error e, trail) => (.error e, { b with trail })
    | (.ok _, trail) =>
      ((b.inner.deleteObject request).1,
        { b with inner := (b.inner.deleteObject request).2, trail })

end AuditedBroker

inductive AccessCall where
  | object (call : ObjectCall)
  | query (subject : SubjectAttributes) (request : GetByFilterRequest)
  | sync (subject : SubjectAttributes) (since : Nat)

inductive AccessAnswer where
  | object (answer : ObjectAnswer)
  | query (result : Except TransportError GetByFilterResponse)
  | sync (response : SyncResponse)

def SecuredExchangeBroker.answerAccess (s : SecuredExchangeBroker) (call : AccessCall) :
    Option (AccessAnswer × SecuredExchangeBroker) :=
  match call with
  | .object call => (s.answerCall call).map fun r => (.object r.1, r.2)
  | .query subject request => some (.query (s.getByFilterAs subject request), s)
  | .sync subject since => some (.sync (s.syncSinceAs subject since), s)

def AuditedBroker.answerCall (b : AuditedBroker σ) (call : ObjectCall) :
    Option (ObjectAnswer × AuditedBroker σ) :=
  match call.request with
  | .put request => (b.putObjectAs call.subject request).map fun r => (.put r.1, r.2)
  | .get request =>
    let ran := b.getByOidAs call.subject request b.trail
    some (.get ran.1, { b with trail := ran.2 })
  | .delete request =>
    some (.delete (b.deleteObjectAs call.subject request).1,
      (b.deleteObjectAs call.subject request).2)

def AuditedBroker.answerAccess (b : AuditedBroker σ) (call : AccessCall) :
    Option (AccessAnswer × AuditedBroker σ) :=
  match call with
  | .object call => (b.answerCall call).map fun r => (.object r.1, r.2)
  | .query subject request =>
    let ran := b.getByFilterAs subject request b.trail
    some (.query ran.1, { b with trail := ran.2 })
  | .sync subject since =>
    some (.sync (b.syncSinceAs subject since).1, (b.syncSinceAs subject since).2)

section Records

variable (s : SecuredExchangeBroker)

def accessRecords (subject : SubjectAttributes) (operation : AccessOperation) (i : MimInstance) :
    List AuditRecord :=
  match instanceLabel i with
  | .error _ => []
  | .ok label =>
    match s.pep.evaluateAccess subject label operation s.domain with
    | .error _ => []
    | .ok decision => [AuditedPep.accessRecord subject label s.domain decision]

def storedRecords (subject : SubjectAttributes) (operation : AccessOperation)
    (oid : ObjectIdentifier) : List AuditRecord :=
  match s.inner.getByOid ⟨oid⟩ with
  | .error _ => []
  | .ok response => accessRecords s subject operation response.inst

def pageRecords (subject : SubjectAttributes) : List MimInstance → List AuditRecord
  | [] => []
  | i :: rest =>
    match instanceLabel i with
    | .error _ => []
    | .ok _ => accessRecords s subject .read i ++ pageRecords subject rest

def entryRecords (subject : SubjectAttributes) (entry : JournalEntry) : List AuditRecord :=
  if entry.operation == .deleteObject then [] else storedRecords s subject .read entry.oid

def queryRecords (subject : SubjectAttributes) (request : GetByFilterRequest) : List AuditRecord :=
  match s.inner.getByFilter request with
  | .error _ => []
  | .ok response => pageRecords s subject response.instances

/-- The decisions a call makes the enforcement point take. -/
def recordsOf : AccessCall → List AuditRecord
  | .object ⟨subject, .put request⟩ => accessRecords s subject .write request.inst
  | .object ⟨subject, .get request⟩ => storedRecords s subject .read request.oid
  | .object ⟨subject, .delete request⟩ => storedRecords s subject .delete request.oid
  | .query subject request => queryRecords s subject request
  | .sync subject since => (s.inner.syncSince since).entries.flatMap (entryRecords s subject)

end Records

/-- The decisions of a whole run, in order. -/
def recordsAlong : SecuredExchangeBroker → List AccessCall → List AuditRecord
  | _, [] => []
  | s, call :: rest =>
    recordsOf s call ++
      match s.answerAccess call with
      | none => []
      | some (_, next) => recordsAlong next rest

section Transparent

variable {b : AuditedBroker σ}

omit [UnicodeCase] in
theorem enforceAccess_leaves (p : AuditedPep σ) (subject : SubjectAttributes)
    (label : ConfidentialityLabel) (operation : AccessOperation) (domain : SecurityDomain) :
    Effect.Leaves p.noted (p.enforceAccess subject label operation domain)
      (p.pep.enforceAccess subject label operation domain)
      (match p.pep.evaluateAccess subject label operation domain with
      | .error _ => []
      | .ok decision => [AuditedPep.accessRecord subject label domain decision]) := by
  unfold AuditedPep.enforceAccess PolicyEnforcementPoint.enforceAccess
  cases p.pep.evaluateAccess subject label operation domain with
  | error e => exact Effect.leaves_bind_error (Effect.leaves_ofExcept _)
  | ok decision =>
    refine Effect.leaves_after (Effect.leaves_ofExcept _)
      (Effect.leaves_before (Effect.leaves_note _) ?_)
    by_cases denied : (decision.effect == .deny) = true
    · simp only [denied, if_true]
      exact Effect.leaves_fail _
    · simp only [denied]
      exact Effect.leaves_pure _

theorem authorize_leaves (subject : SubjectAttributes) (i : MimInstance)
    (operation : AccessOperation) :
    Effect.Leaves b.pep.noted (b.authorize subject i operation)
      (b.secured.authorize subject i operation) (accessRecords b.secured subject operation i) := by
  unfold AuditedBroker.authorize SecuredExchangeBroker.authorize accessRecords
  cases instanceLabel i with
  | error e => exact Effect.leaves_bind_error (Effect.leaves_ofExcept _)
  | ok label =>
    refine Effect.leaves_after (Effect.leaves_ofExcept _) (Effect.leaves_of_eq
      (Effect.leaves_mapError mapPolicyError
        (enforceAccess_leaves b.pep subject label operation b.domain)) ?_)
    simp only [AuditedBroker.secured]
    cases b.pep.pep.enforceAccess subject label operation b.domain <;> rfl

theorem getByOidAs_leaves (subject : SubjectAttributes) (oid : ObjectIdentifier) :
    Effect.Leaves b.pep.noted (b.getByOidAs subject ⟨oid⟩) (b.secured.getByOidAs subject ⟨oid⟩)
      (storedRecords b.secured subject .read oid) := by
  unfold AuditedBroker.getByOidAs SecuredExchangeBroker.getByOidAs storedRecords
  have inner : b.secured.inner = b.inner := rfl
  rw [inner]
  cases b.inner.getByOid ⟨oid⟩ with
  | error e => exact Effect.leaves_bind_error (Effect.leaves_ofExcept _)
  | ok response =>
    have authorized := authorize_leaves (b := b) subject response.inst .read
    refine Effect.leaves_after (Effect.leaves_ofExcept _) ?_
    simp only
    cases permitted : b.secured.authorize subject response.inst .read with
    | error e => exact Effect.leaves_bind_error (permitted ▸ authorized)
    | ok decision =>
      exact Effect.leaves_before (permitted ▸ authorized) (Effect.leaves_pure _)

theorem permittedInstances_leaves (subject : SubjectAttributes) (instances : List MimInstance) :
    Effect.Leaves b.pep.noted (b.permittedInstances subject instances)
      (b.secured.permittedInstances subject instances)
      (pageRecords b.secured subject instances) := by
  induction instances with
  | nil => exact Effect.leaves_pure _
  | cons i rest ih =>
    unfold AuditedBroker.permittedInstances SecuredExchangeBroker.permittedInstances pageRecords
    cases labelled : instanceLabel i with
    | error e => exact Effect.leaves_bind_error (Effect.leaves_ofExcept _)
    | ok label =>
      have decided := enforceAccess_leaves b.pep subject label .read b.domain
      have records : accessRecords b.secured subject .read i =
          match b.pep.pep.evaluateAccess subject label .read b.domain with
          | .error _ => []
          | .ok decision => [AuditedPep.accessRecord subject label b.domain decision] := by
        unfold accessRecords
        rw [labelled]
        rfl
      rw [← records] at decided
      refine Effect.leaves_after (Effect.leaves_ofExcept _) ?_
      simp only
      cases page : b.secured.permittedInstances subject rest with
      | error e =>
        exact Effect.leaves_bind (Effect.leaves_succeeds decided)
          (Effect.leaves_bind_error (page ▸ ih))
      | ok more =>
        refine Effect.leaves_bind (Effect.leaves_succeeds decided) (Effect.leaves_before (page ▸ ih)
          (Effect.leaves_of_eq (Effect.leaves_pure _) ?_))
        simp only [AuditedBroker.secured]
        cases b.pep.pep.enforceAccess subject label .read b.domain <;> rfl

theorem getByFilterAs_leaves (subject : SubjectAttributes) (request : GetByFilterRequest) :
    Effect.Leaves b.pep.noted (b.getByFilterAs subject request)
      (b.secured.getByFilterAs subject request) (queryRecords b.secured subject request) := by
  unfold AuditedBroker.getByFilterAs SecuredExchangeBroker.getByFilterAs queryRecords
  have inner : b.secured.inner = b.inner := rfl
  rw [inner]
  cases b.inner.getByFilter request with
  | error e => exact Effect.leaves_bind_error (Effect.leaves_ofExcept _)
  | ok response =>
    have loop := permittedInstances_leaves (b := b) subject response.instances
    refine Effect.leaves_after (Effect.leaves_ofExcept _) ?_
    simp only
    cases page : b.secured.permittedInstances subject response.instances with
    | error e => exact Effect.leaves_bind_error (page ▸ loop)
    | ok permitted => exact Effect.leaves_before (page ▸ loop) (Effect.leaves_pure _)

theorem permittedEntries_leaves (subject : SubjectAttributes) (entries : List JournalEntry)
    (trail : σ) : b.permittedEntries subject entries trail =
      (entries.filter fun entry => entry.operation == .deleteObject ||
        (b.secured.getByOidAs subject ⟨entry.oid⟩).isOk,
        Effect.noteAll b.pep.noted (entries.flatMap (entryRecords b.secured subject)) trail) := by
  induction entries generalizing trail with
  | nil => rfl
  | cons entry rest ih =>
    unfold AuditedBroker.permittedEntries
    rw [List.filter_cons, List.flatMap_cons, entryRecords]
    by_cases delete : (entry.operation == .deleteObject) = true
    · simp only [delete, if_true, Bool.true_or, ih, List.nil_append]
    · rw [Bool.not_eq_true] at delete
      simp only [delete, Bool.false_eq_true, if_false, Bool.false_or,
        getByOidAs_leaves subject entry.oid trail, ih, Effect.noteAll_append]

/-- The broker with another inner broker and a longer trail. -/
def AuditedBroker.after (b : AuditedBroker σ) (inner : ExchangeBroker)
    (records : List AuditRecord) : AuditedBroker σ :=
  { b with inner, trail := Effect.noteAll b.pep.noted records b.trail }

theorem putObjectAs_leaves (subject : SubjectAttributes) (request : PutObjectRequest) :
    b.putObjectAs subject request = (b.secured.putObjectAs subject request).map fun r =>
      (r.1, b.after r.2.inner (accessRecords b.secured subject .write request.inst)) := by
  unfold AuditedBroker.putObjectAs SecuredExchangeBroker.putObjectAs
  rw [authorize_leaves subject request.inst .write b.trail]
  cases b.secured.authorize subject request.inst .write with
  | error e => rfl
  | ok decision =>
    have inner : b.secured.inner = b.inner := rfl
    simp only [inner, Option.map_map]
    rfl

theorem deleteObjectAs_leaves (subject : SubjectAttributes) (oid : ObjectIdentifier) :
    b.deleteObjectAs subject ⟨oid⟩ = ((b.secured.deleteObjectAs subject ⟨oid⟩).1,
      b.after (b.secured.deleteObjectAs subject ⟨oid⟩).2.inner
        (storedRecords b.secured subject .delete oid)) := by
  unfold AuditedBroker.deleteObjectAs SecuredExchangeBroker.deleteObjectAs storedRecords
  have inner : b.secured.inner = b.inner := rfl
  rw [inner]
  cases b.inner.getByOid ⟨oid⟩ with
  | error e => rfl
  | ok existing =>
    simp only [authorize_leaves subject existing.inst .delete b.trail]
    cases b.secured.authorize subject existing.inst .delete <;> rfl

theorem answerAccess_leaves (call : AccessCall) :
    b.answerAccess call = (b.secured.answerAccess call).map fun r =>
      (r.1, b.after r.2.inner (recordsOf b.secured call)) := by
  cases call with
  | query subject request =>
    unfold AuditedBroker.answerAccess SecuredExchangeBroker.answerAccess
    simp only [getByFilterAs_leaves subject request b.trail]
    rfl
  | sync subject since =>
    unfold AuditedBroker.answerAccess SecuredExchangeBroker.answerAccess AuditedBroker.syncSinceAs
    simp only [permittedEntries_leaves]
    rfl
  | object call =>
    obtain ⟨subject, request⟩ := call
    cases request with
    | put request =>
      unfold AuditedBroker.answerAccess SecuredExchangeBroker.answerAccess AuditedBroker.answerCall
      simp only [putObjectAs_leaves subject request, answerCall, Option.map_map]
      rfl
    | get request =>
      unfold AuditedBroker.answerAccess SecuredExchangeBroker.answerAccess AuditedBroker.answerCall
      simp only [getByOidAs_leaves subject request.oid b.trail]
      rfl
    | delete request =>
      unfold AuditedBroker.answerAccess SecuredExchangeBroker.answerAccess AuditedBroker.answerCall
      simp only [deleteObjectAs_leaves subject request.oid]
      rfl

end Transparent

theorem answerAccess_inner {s next : SecuredExchangeBroker} {call : AccessCall}
    {answer : AccessAnswer} (ran : s.answerAccess call = some (answer, next)) :
    next = s.withInner next.inner := by
  cases call with
  | query subject request =>
    rw [SecuredExchangeBroker.answerAccess, Option.some.injEq, Prod.mk.injEq] at ran
    rw [← ran.2]
    rfl
  | sync subject since =>
    rw [SecuredExchangeBroker.answerAccess, Option.some.injEq, Prod.mk.injEq] at ran
    rw [← ran.2]
    rfl
  | object call =>
    obtain ⟨⟨result, after⟩, called, same⟩ := Option.map_eq_some_iff.mp ran
    rw [Prod.mk.injEq] at same
    obtain ⟨_, rfl⟩ := same
    rcases answerCall_left called with rfl | ⟨i, _, rfl⟩ | ⟨_, rfl⟩
    · rfl
    · rfl
    · rfl

omit [UnicodeCase] in
theorem noteAll_after (b : AuditedBroker σ) (inner last : ExchangeBroker)
    (records more : List AuditRecord) :
    (b.after inner records).after last more = b.after last (records ++ more) := by
  simp only [AuditedBroker.after, Effect.noteAll_append]

theorem serve_audited (b : AuditedBroker σ) (calls : List AccessCall) :
    serve AuditedBroker.answerAccess b calls =
      (serve SecuredExchangeBroker.answerAccess b.secured calls).map fun r =>
        (r.1, b.after r.2.inner (recordsAlong b.secured calls)) := by
  induction calls generalizing b with
  | nil => rfl
  | cons call rest ih =>
    rw [serve, serve, answerAccess_leaves, recordsAlong]
    cases taken : b.secured.answerAccess call with
    | none => rfl
    | some first =>
      obtain ⟨answer, next⟩ := first
      have same : (b.after next.inner (recordsOf b.secured call)).secured = next :=
        (answerAccess_inner taken).symm
      simp only [Option.map_some, Option.bind_some, ih, same, noteAll_after, Option.map_map]
      rfl

/-- Brokers that differ in their trails and logs alone give the same answers and are left the same
but for the trails, and both trails take the same records in the same order. -/
theorem trail_plays_no_part {τ : Type} {b final : AuditedBroker σ} {c : AuditedBroker τ}
    (same : b.secured = c.secured) {calls : List AccessCall} {answers : List AccessAnswer}
    (ran : serve AuditedBroker.answerAccess b calls = some (answers, final)) :
    ∃ records other, serve AuditedBroker.answerAccess c calls = some (answers, other) ∧
      other.secured = final.secured ∧
      final.trail = Effect.noteAll b.pep.noted records b.trail ∧
      other.trail = Effect.noteAll c.pep.noted records c.trail := by
  rw [serve_audited] at ran
  obtain ⟨⟨plainAnswers, plainFinal⟩, plain, split⟩ := Option.map_eq_some_iff.mp ran
  obtain ⟨rfl, rfl⟩ := Prod.mk.inj split
  refine ⟨recordsAlong b.secured calls, c.after plainFinal.inner (recordsAlong b.secured calls),
    ?_, ?_, rfl, rfl⟩
  · rw [serve_audited, ← same, plain]
    rfl
  · have inner := congrArg (fun s => s.withInner plainFinal.inner) same
    exact inner.symm

def AccessCall.subject : AccessCall → SubjectAttributes
  | .object call => call.subject
  | .query subject _ => subject
  | .sync subject _ => subject

/-- What an answer to a call grants, in order: an object stored, given, retired, or shown in a
page or behind a journal entry. -/
inductive Granted (s : SecuredExchangeBroker) :
    AccessCall → AccessAnswer → List (AccessOperation × MimInstance) → Prop where
  | stored (subject : SubjectAttributes) (request : PutObjectRequest)
      (response : PutObjectResponse) :
      Granted s (.object ⟨subject, .put request⟩) (.object (.put (.ok response)))
        [(.write, request.inst)]
  | given (subject : SubjectAttributes) (request : GetByOidRequest) (response : GetByOidResponse) :
      Granted s (.object ⟨subject, .get request⟩) (.object (.get (.ok response)))
        [(.read, response.inst)]
  | retired (subject : SubjectAttributes) (request : DeleteObjectRequest)
      (response : DeleteObjectResponse) (found : GetByOidResponse)
      (held : s.inner.getByOid ⟨request.oid⟩ = .ok found) :
      Granted s (.object ⟨subject, .delete request⟩) (.object (.delete (.ok response)))
        [(.delete, found.inst)]
  | shown (subject : SubjectAttributes) (request : GetByFilterRequest)
      (response : GetByFilterResponse) :
      Granted s (.query subject request) (.query (.ok response))
        (response.instances.map fun i => (.read, i))
  | followed (subject : SubjectAttributes) (since : Nat) (response : SyncResponse)
      (found : List GetByOidResponse)
      (held : List.Forall₂ (fun entry r => s.inner.getByOid ⟨entry.oid⟩ = .ok r)
        (response.entries.filter fun entry => entry.operation != .deleteObject) found) :
      Granted s (.sync subject since) (.sync response) (found.map fun r => (.read, r.inst))
  | putRefused (subject : SubjectAttributes) (request : PutObjectRequest) (e : TransportError) :
      Granted s (.object ⟨subject, .put request⟩) (.object (.put (.error e))) []
  | getRefused (subject : SubjectAttributes) (request : GetByOidRequest) (e : TransportError) :
      Granted s (.object ⟨subject, .get request⟩) (.object (.get (.error e))) []
  | deleteRefused (subject : SubjectAttributes) (request : DeleteObjectRequest)
      (e : TransportError) :
      Granted s (.object ⟨subject, .delete request⟩) (.object (.delete (.error e))) []
  | queryRefused (subject : SubjectAttributes) (request : GetByFilterRequest)
      (e : TransportError) : Granted s (.query subject request) (.query (.error e)) []

/-- The record of the decision that lets the subject do this to the instance. -/
structure Accounts (s : SecuredExchangeBroker) (subject : SubjectAttributes)
    (granted : AccessOperation × MimInstance) (record : AuditRecord) : Prop where
  labelled : instanceLabel granted.2 = .ok record.originalLabel
  favour : record.decision ≠ "deny"
  taken : ∃ decision,
    s.pep.evaluateAccess subject record.originalLabel granted.1 s.domain = .ok decision ∧
      record = AuditedPep.accessRecord subject record.originalLabel s.domain decision

section Accountable

variable {s : SecuredExchangeBroker}

theorem permitted_accounted {subject : SubjectAttributes} {operation : AccessOperation}
    {i : MimInstance} {decision : PolicyDecision}
    (permitted : s.authorize subject i operation = .ok decision) :
    ∃ record, accessRecords s subject operation i = [record] ∧
      Accounts s subject (operation, i) record := by
  obtain ⟨label, labelled, enforced⟩ := (authorize_ok_iff s subject i operation decision).mp permitted
  unfold PolicyEnforcementPoint.enforceAccess at enforced
  unfold accessRecords
  rw [labelled]
  cases evaluated : s.pep.evaluateAccess subject label operation s.domain with
  | error e =>
    rw [evaluated] at enforced
    cases enforced
  | ok taken =>
    rw [evaluated] at enforced
    simp only [evaluated] at enforced ⊢
    refine ⟨AuditedPep.accessRecord subject label s.domain taken, rfl,
      labelled, ?_, taken, evaluated, rfl⟩
    split at enforced
    · cases enforced
    · rename_i favour
      intro denied
      apply favour
      cases effect : taken.effect with
      | deny => rfl
      | permit => simp [AuditedPep.accessRecord, effect, AuditedPep.effectToDecision] at denied
      | downgrade => simp [AuditedPep.accessRecord, effect, AuditedPep.effectToDecision] at denied

theorem single_accounted {subject : SubjectAttributes} {operation : AccessOperation}
    {i : MimInstance} {decision : PolicyDecision}
    (permitted : s.authorize subject i operation = .ok decision) :
    ∃ records, List.Forall₂ (Accounts s subject) [(operation, i)] records ∧
      records.Sublist (accessRecords s subject operation i) := by
  obtain ⟨record, recorded, accounts⟩ := permitted_accounted permitted
  exact ⟨[record], .cons accounts .nil, recorded ▸ List.Sublist.refl _⟩

theorem page_accounted {subject : SubjectAttributes} {instances shown : List MimInstance}
    (answered : s.permittedInstances subject instances = .ok shown) :
    ∃ records, List.Forall₂ (Accounts s subject) (shown.map fun i => (.read, i)) records ∧
      records.Sublist (pageRecords s subject instances) := by
  induction instances generalizing shown with
  | nil =>
    obtain rfl := Except.ok.inj answered
    exact ⟨[], .nil, List.Sublist.refl _⟩
  | cons j rest ih =>
    unfold SecuredExchangeBroker.permittedInstances at answered
    unfold pageRecords
    cases labelled : instanceLabel j with
    | error e =>
      rw [labelled] at answered
      cases answered
    | ok label =>
      rw [labelled] at answered
      simp only at answered ⊢
      cases page : s.permittedInstances subject rest with
      | error e =>
        rw [page] at answered
        cases answered
      | ok more =>
        obtain ⟨records, accounts, listed⟩ := ih page
        rw [page] at answered
        simp only at answered
        cases enforced : s.pep.enforceAccess subject label .read s.domain with
        | error e =>
          rw [enforced] at answered
          obtain rfl := Except.ok.inj answered
          exact ⟨records, accounts, listed.trans (List.sublist_append_right _ _)⟩
        | ok decision =>
          rw [enforced] at answered
          obtain rfl := Except.ok.inj answered
          obtain ⟨record, recorded, own⟩ := permitted_accounted
            ((authorize_ok_iff s subject j .read decision).mpr ⟨label, labelled, enforced⟩)
          exact ⟨record :: records, .cons own accounts,
            recorded ▸ List.cons_sublist_cons.mpr listed⟩

theorem lookup_accounted {subject : SubjectAttributes} {oid : ObjectIdentifier}
    {response : GetByOidResponse} (got : s.getByOidAs subject ⟨oid⟩ = .ok response) :
    s.inner.getByOid ⟨oid⟩ = .ok response ∧
      ∃ record, storedRecords s subject .read oid = [record] ∧
        Accounts s subject (.read, response.inst) record := by
  obtain ⟨active, here, decision, permitted⟩ := (getByOidAs_ok_iff s subject oid response).mp got
  have looked := (getByOid_ok_iff s.inner oid response).mpr ⟨active, here⟩
  refine ⟨looked, ?_⟩
  unfold storedRecords
  rw [looked]
  exact permitted_accounted permitted

theorem entries_accounted (subject : SubjectAttributes) (entries : List JournalEntry) :
    ∃ found records,
      List.Forall₂ (fun entry r => s.inner.getByOid ⟨entry.oid⟩ = .ok r)
        ((entries.filter fun entry => entry.operation == .deleteObject ||
          (s.getByOidAs subject ⟨entry.oid⟩).isOk).filter
            fun entry => entry.operation != .deleteObject) found ∧
      List.Forall₂ (Accounts s subject) (found.map fun r => (.read, r.inst)) records ∧
      records.Sublist (entries.flatMap (entryRecords s subject)) := by
  induction entries with
  | nil => exact ⟨[], [], .nil, .nil, List.Sublist.refl _⟩
  | cons entry rest ih =>
    obtain ⟨found, records, held, accounts, listed⟩ := ih
    rw [List.flatMap_cons, List.filter_cons]
    have later : records.Sublist (entryRecords s subject entry ++
        rest.flatMap (entryRecords s subject)) := listed.trans (List.sublist_append_right _ _)
    by_cases delete : (entry.operation == .deleteObject) = true
    · refine ⟨found, records, ?_, accounts, later⟩
      rw [delete, Bool.true_or, if_pos rfl, List.filter_cons, bne, delete, Bool.not_true,
        if_neg Bool.false_ne_true]
      exact held
    · rw [Bool.not_eq_true] at delete
      rw [delete, Bool.false_or]
      cases got : s.getByOidAs subject ⟨entry.oid⟩ with
      | error e => exact ⟨found, records, held, accounts, later⟩
      | ok response =>
        obtain ⟨looked, record, recorded, own⟩ := lookup_accounted got
        refine ⟨response :: found, record :: records, ?_, .cons own accounts, ?_⟩
        · have visible : (Except.ok response : Except TransportError GetByOidResponse).isOk = true :=
            rfl
          rw [visible, if_pos rfl, List.filter_cons, bne, delete, Bool.not_false, if_pos rfl]
          exact .cons looked held
        · rw [entryRecords, delete, if_neg Bool.false_ne_true, recorded]
          exact List.cons_sublist_cons.mpr listed

theorem grant_accounted {call : AccessCall} {answer : AccessAnswer} {next : SecuredExchangeBroker}
    (ran : s.answerAccess call = some (answer, next)) :
    ∃ granted records, Granted s call answer granted ∧
      List.Forall₂ (Accounts s call.subject) granted records ∧
      records.Sublist (recordsOf s call) := by
  have nothing : ∀ refused : AccessAnswer, Granted s call refused [] →
      ∃ granted records, Granted s call refused granted ∧
        List.Forall₂ (Accounts s call.subject) granted records ∧
        records.Sublist (recordsOf s call) :=
    fun refused grants => ⟨[], [], grants, .nil, List.nil_sublist _⟩
  cases call with
  | query subject request =>
    rw [SecuredExchangeBroker.answerAccess, Option.some.injEq, Prod.mk.injEq] at ran
    obtain ⟨rfl, _⟩ := ran
    cases answered : s.getByFilterAs subject request with
    | error e => exact nothing _ (.queryRefused subject request e)
    | ok response =>
      obtain ⟨page, instances, found, permitted, rfl⟩ :=
        (getByFilterAs_ok_iff s subject request response).mp answered
      obtain ⟨records, accounts, listed⟩ := page_accounted permitted
      refine ⟨_, records, .shown subject request _, accounts, ?_⟩
      simp only [recordsOf, queryRecords, found]
      exact listed
  | sync subject since =>
    rw [SecuredExchangeBroker.answerAccess, Option.some.injEq, Prod.mk.injEq] at ran
    obtain ⟨rfl, _⟩ := ran
    obtain ⟨found, records, held, accounts, listed⟩ :=
      entries_accounted (s := s) subject (s.inner.syncSince since).entries
    exact ⟨_, records, .followed subject since _ found held, accounts, listed⟩
  | object call =>
    obtain ⟨subject, request⟩ := call
    obtain ⟨⟨result, after⟩, called, same⟩ := Option.map_eq_some_iff.mp ran
    obtain ⟨rfl, rfl⟩ := Prod.mk.inj same
    cases request with
    | put request =>
      obtain ⟨⟨put, middle⟩, putRan, split⟩ := Option.map_eq_some_iff.mp called
      obtain ⟨rfl, rfl⟩ := Prod.mk.inj split
      rcases putObjectAs_cases s subject request put middle putRan with
        ⟨⟨e, rfl⟩, _⟩ | ⟨⟨decision, permitted⟩, _, ⟨response, rfl⟩, _⟩
      · exact nothing _ (.putRefused subject request e)
      · obtain ⟨records, accounts, listed⟩ := single_accounted permitted
        exact ⟨_, records, .stored subject request response, accounts, listed⟩
    | get request =>
      simp only [answerCall, Option.some.injEq, Prod.mk.injEq] at called
      obtain ⟨rfl, rfl⟩ := called
      cases got : s.getByOidAs subject request with
      | error e => exact nothing _ (.getRefused subject request e)
      | ok response =>
        obtain ⟨_, record, recorded, own⟩ := lookup_accounted got
        exact ⟨_, [record], .given subject request response, .cons own .nil,
          recorded ▸ List.Sublist.refl _⟩
    | delete request =>
      simp only [answerCall, Option.some.injEq, Prod.mk.injEq] at called
      obtain ⟨rfl, rfl⟩ := called
      cases answered : (s.deleteObjectAs subject request).1 with
      | error e => exact nothing _ (.deleteRefused subject request e)
      | ok response =>
        obtain ⟨existing, decision, looked, permitted⟩ := deleteObjectAs_permitted s answered
        obtain ⟨records, accounts, listed⟩ := single_accounted permitted
        refine ⟨_, records, .retired subject request response existing looked, accounts, ?_⟩
        simp only [recordsOf, storedRecords, looked]
        exact listed

theorem recordsAlong_append {before after : List AccessCall} {answers : List AccessAnswer}
    {mid : SecuredExchangeBroker}
    (ran : serve SecuredExchangeBroker.answerAccess s before = some (answers, mid)) :
    recordsAlong s (before ++ after) = recordsAlong s before ++ recordsAlong mid after := by
  induction before generalizing s answers with
  | nil =>
    obtain ⟨_, rfl⟩ := Prod.mk.inj (Option.some.inj ran)
    rfl
  | cons call rest ih =>
    obtain ⟨a, next, more, taken, later, _⟩ := serve_cons.mp ran
    rw [List.cons_append, recordsAlong, recordsAlong, taken]
    simp only [ih later, List.append_assoc]

/-- A log whose state holds every record it was given. -/
def KeepsRecords (p : AuditedPep σ) (contents : σ → List AuditRecord) : Prop :=
  ∀ record s, contents (p.noted record s) = contents s ++ [record]

omit [UnicodeCase] in
theorem contents_noteAll {p : AuditedPep σ} {contents : σ → List AuditRecord}
    (keeps : KeepsRecords p contents) (records : List AuditRecord) (s : σ) :
    contents (Effect.noteAll p.noted records s) = contents s ++ records := by
  induction records generalizing s with
  | nil => exact (List.append_nil _).symm
  | cons record rest ih =>
    have first : Effect.noteAll p.noted (record :: rest) s =
        Effect.noteAll p.noted rest (p.noted record s) := rfl
    rw [first, ih, keeps, List.append_assoc, List.singleton_append]

/-- With a log that keeps its records, a run appends the records of its decisions, and each object
an answer grants has a record of its own among those of its call, in order. -/
theorem grants_recorded {b final : AuditedBroker σ} {contents : σ → List AuditRecord}
    (keeps : KeepsRecords b.pep contents) {calls : List AccessCall} {answers : List AccessAnswer}
    (ran : serve AuditedBroker.answerAccess b calls = some (answers, final)) :
    contents final.trail = contents b.trail ++ recordsAlong b.secured calls ∧
      ∀ before call after, calls = before ++ call :: after →
        ∃ earlier s answer later granted records rest,
          serve SecuredExchangeBroker.answerAccess b.secured before = some (earlier, s) ∧
          answers = earlier ++ answer :: later ∧ Granted s call answer granted ∧
          List.Forall₂ (Accounts s call.subject) granted records ∧
          records.Sublist (recordsOf s call) ∧
          recordsAlong b.secured calls = recordsAlong b.secured before ++ recordsOf s call ++ rest := by
  rw [serve_audited] at ran
  obtain ⟨⟨plainAnswers, plainFinal⟩, plain, same⟩ := Option.map_eq_some_iff.mp ran
  obtain ⟨rfl, rfl⟩ := Prod.mk.inj same
  refine ⟨contents_noteAll keeps (recordsAlong b.secured calls) b.trail, ?_⟩
  rintro before call after rfl
  obtain ⟨earlier, s, second, reached, onward, rfl⟩ := serve_append plain
  obtain ⟨answer, next, later, taken, _, rfl⟩ := serve_cons.mp onward
  obtain ⟨granted, records, grants, accounts, listed⟩ := grant_accounted taken
  refine ⟨earlier, s, answer, later, granted, records, recordsAlong next after, reached, rfl, grants,
    accounts, listed, ?_⟩
  rw [recordsAlong_append reached, recordsAlong, taken, List.append_assoc]

end Accountable

def listLog : AuditLog (List AuditRecord) where
  record record trail := (.ok (), trail ++ [record])

def auditedFixture : AuditedBroker (List AuditRecord) where
  inner := .new wireRegistry
  pep := ⟨⟨.presetHighToLow⟩, some listLog⟩
  subject := secretSubject
  domain := highDomain
  trail := []

def failingLog : AuditLog Nat where
  record _ count := (.error (.io "full"), count + 1)

def unloggedFixture : AuditedBroker Nat where
  inner := .new wireRegistry
  pep := ⟨⟨.presetHighToLow⟩, some failingLog⟩
  subject := secretSubject
  domain := highDomain
  trail := 0

omit [UnicodeCase] in
theorem auditedFixture_served : ∃ _ : UnicodeCase, ∃ final,
    serve AuditedBroker.answerAccess auditedFixture [.object putRestricted] =
      some ([.object (.put (.ok ⟨⟨"r"⟩, true⟩))], final) := by
  refine ⟨asciiCase, ?_⟩
  let : UnicodeCase := asciiCase
  have called : securedFixture.answerCall putRestricted =
      some (.put (.ok ⟨⟨"r"⟩, true⟩), oneObject) :=
    answerCall_put (by decide +kernel) (wireInstance_accepted "r" _ (by decide))
  have taken : auditedFixture.secured.answerAccess (.object putRestricted) =
      some (.object (.put (.ok ⟨⟨"r"⟩, true⟩)), oneObject) := by
    have same : auditedFixture.secured = securedFixture := rfl
    rw [same, SecuredExchangeBroker.answerAccess, called]
    rfl
  have plain : serve SecuredExchangeBroker.answerAccess auditedFixture.secured
      [.object putRestricted] = some ([.object (.put (.ok ⟨⟨"r"⟩, true⟩))], oneObject) :=
    serve_cons.mpr ⟨_, _, _, taken, rfl, rfl⟩
  exact ⟨_, by rw [serve_audited, plain, Option.map_some]⟩

omit [UnicodeCase] in
theorem trail_plays_no_part_fixture : ∃ _ : UnicodeCase, ∃ final : AuditedBroker Nat,
    serve AuditedBroker.answerAccess unloggedFixture [.object putRestricted] =
      some ([.object (.put (.ok ⟨⟨"r"⟩, true⟩))], final) := by
  obtain ⟨case, final, ran⟩ := auditedFixture_served
  obtain ⟨_, other, served, _⟩ :=
    @trail_plays_no_part case _ _ auditedFixture final unloggedFixture rfl _ _ ran
  exact ⟨case, other, served⟩

def followedCalls : List AccessCall := [.object putRestricted, .sync secretSubject 0]

omit [UnicodeCase] in
theorem followed_served : ∃ _ : UnicodeCase, ∃ final,
    serve AuditedBroker.answerAccess auditedFixture followedCalls =
      some ([.object (.put (.ok ⟨⟨"r"⟩, true⟩)), .sync ⟨1, [⟨1, .putObject, ⟨"r"⟩⟩]⟩], final) := by
  refine ⟨asciiCase, ?_⟩
  let : UnicodeCase := asciiCase
  obtain ⟨taken, listed⟩ : auditedFixture.secured.answerAccess (.object putRestricted) =
      some (.object (.put (.ok ⟨⟨"r"⟩, true⟩)), oneObject) ∧
        oneObject.syncSinceAs secretSubject 0 = ⟨1, [⟨1, .putObject, ⟨"r"⟩⟩]⟩ := by
    have entries : oneObject.inner.syncSince 0 = ⟨1, [⟨1, .putObject, ⟨"r"⟩⟩]⟩ := rfl
    have visible : (oneObject.getByOidAs secretSubject ⟨⟨"r"⟩⟩).isOk = true := by decide +kernel
    refine ⟨?_, by simp [SecuredExchangeBroker.syncSinceAs, entries, visible]⟩
    have called : securedFixture.answerCall putRestricted =
        some (.put (.ok ⟨⟨"r"⟩, true⟩), oneObject) :=
      answerCall_put (by decide +kernel) (wireInstance_accepted "r" _ (by decide))
    have same : auditedFixture.secured = securedFixture := rfl
    rw [same, SecuredExchangeBroker.answerAccess, called]
    rfl
  have followed : oneObject.answerAccess (.sync secretSubject 0) =
      some (.sync ⟨1, [⟨1, .putObject, ⟨"r"⟩⟩]⟩, oneObject) := by
    rw [SecuredExchangeBroker.answerAccess, listed]
  have plain : serve SecuredExchangeBroker.answerAccess auditedFixture.secured followedCalls =
      some ([.object (.put (.ok ⟨⟨"r"⟩, true⟩)), .sync ⟨1, [⟨1, .putObject, ⟨"r"⟩⟩]⟩], oneObject) :=
    serve_cons.mpr ⟨_, _, _, taken, serve_cons.mpr ⟨_, _, _, followed, rfl, rfl⟩, rfl⟩
  exact ⟨_, by rw [serve_audited, plain, Option.map_some]⟩

omit [UnicodeCase] in
theorem grants_recorded_fixture : ∃ (_ : UnicodeCase) (final : AuditedBroker (List AuditRecord))
    (s : SecuredExchangeBroker) (granted : List (AccessOperation × MimInstance))
    (records : List AuditRecord),
    final.trail = recordsAlong auditedFixture.secured followedCalls ∧
      Granted s (.sync secretSubject 0) (.sync ⟨1, [⟨1, .putObject, ⟨"r"⟩⟩]⟩) granted ∧
      List.Forall₂ (Accounts s secretSubject) granted records ∧ ∀ r ∈ records, r ∈ final.trail := by
  obtain ⟨case, final, ran⟩ := followed_served
  have keeps : KeepsRecords auditedFixture.pep id := fun _ _ => rfl
  obtain ⟨trail, each⟩ := @grants_recorded case _ _ _ _ keeps _ _ ran
  obtain ⟨earlier, s, answer, later, granted, records, rest, reached, split, grants, accounts,
    listed, whole⟩ := each [.object putRestricted] (.sync secretSubject 0) [] rfl
  have one : earlier.length = 1 := serve_length reached
  obtain ⟨put, rfl⟩ := List.length_eq_one_iff.mp one
  have second : answer = .sync ⟨1, [⟨1, .putObject, ⟨"r"⟩⟩]⟩ :=
    (List.cons.inj (List.cons.inj split).2).1.symm
  refine ⟨case, final, s, granted, records, trail, second ▸ grants, accounts, fun r member => ?_⟩
  have kept : final.trail = recordsAlong auditedFixture.secured followedCalls := trail
  rw [kept, whole]
  exact List.mem_append_left _ (List.mem_append_right _ (listed.subset member))

end MimTransport
