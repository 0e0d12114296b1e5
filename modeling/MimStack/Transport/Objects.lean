import MimStack.Lib.ObjectSystems
import MimStack.Transport.Queries

/-!
The secured broker as a shelf of separate objects. Each identifier has a state of
its own: it was never stored, it is active with some content, or it was retired.
Every call concerns one identifier, and what it answers and changes is decided by
that state and by the policy alone.
-/
namespace MimTransport
open RustText ObjectSystems MimCore MimModel MimRuntime MimRuntime.InstanceStore MimPolicy
open ExchangeBroker SecuredExchangeBroker

inductive ObjectRequest where
  | put (request : PutObjectRequest)
  | get (request : GetByOidRequest)
  | delete (request : DeleteObjectRequest)

structure ObjectCall where
  subject : SubjectAttributes
  request : ObjectRequest

def ObjectCall.oid (call : ObjectCall) : ObjectIdentifier :=
  match call.request with
  | .put request => request.inst.oid
  | .get request => request.oid
  | .delete request => request.oid

inductive ObjectAnswer where
  | put (result : Except TransportError PutObjectResponse)
  | get (result : Except TransportError GetByOidResponse)
  | delete (result : Except TransportError DeleteObjectResponse)

inductive ObjectState where
  | never
  | active (i : MimInstance)
  | retired (i : MimInstance)

/-- What a broker asks about an instance: whether its registry takes it, and whether a subject
may operate on it. -/
structure ObjectGate where
  validates : MimInstance → Option (Except TransportError Unit)
  permits : SubjectAttributes → MimInstance → AccessOperation → Except TransportError PolicyDecision

namespace ObjectGate

variable (g : ObjectGate)

def reads (subject : SubjectAttributes) (oid : ObjectIdentifier) :
    ObjectState → Except TransportError GetByOidResponse
  | .never => .error (.notFound oid.text)
  | .retired _ => .error (.inactive oid.text)
  | .active i => (g.permits subject i .read).map fun _ => ⟨i⟩

def puts (subject : SubjectAttributes) (i : MimInstance) (state : ObjectState) :
    Option (Except TransportError PutObjectResponse × ObjectState) :=
  match g.permits subject i .write with
  | .error e => some (.error e, state)
  | .ok _ =>
    match g.validates i with
    | none => none
    | some (.error e) => some (.error e, state)
    | some (.ok ()) =>
      match state with
      | .never => some (.ok ⟨i.oid, true⟩, .active i)
      | .active _ | .retired _ => some (.ok ⟨i.oid, false⟩, .active i)

def deletes (subject : SubjectAttributes) (oid : ObjectIdentifier) (state : ObjectState) :
    Except TransportError DeleteObjectResponse × ObjectState :=
  match state with
  | .never => (.error (.notFound oid.text), state)
  | .retired _ => (.error (.inactive oid.text), state)
  | .active i =>
    match g.permits subject i .delete with
    | .error e => (.error e, state)
    | .ok _ => (.ok ⟨oid, true⟩, .retired i)

def object : Service ObjectState ObjectCall ObjectAnswer := fun state call =>
  match call.request with
  | .put request => (g.puts call.subject request.inst state).map fun r => (.put r.1, r.2)
  | .get request => some (.get (g.reads call.subject request.oid state), state)
  | .delete request =>
    some (.delete (g.deletes call.subject request.oid state).1,
      (g.deletes call.subject request.oid state).2)

end ObjectGate

/-- The state a broker holds of an identifier. -/
def ExchangeBroker.objectState (b : ExchangeBroker) (oid : ObjectIdentifier) : ObjectState :=
  match b.store.get oid with
  | none => .never
  | some i => if oid ∈ b.inactive then .retired i else .active i

def RetiredStored (b : ExchangeBroker) : Prop := ∀ oid ∈ b.inactive, ∃ i, b.store.get oid = some i

theorem retiredStored_new (registry : ModelRegistry) : RetiredStored (.new registry) := by
  intro oid gone
  cases gone

theorem retiredStored_commitPut {b : ExchangeBroker} (stored : RetiredStored b) (i : MimInstance) :
    RetiredStored (b.commitPut i) := by
  intro oid gone
  rw [commitPut_inactive, Finset.mem_erase] at gone
  rw [commitPut_store, get_insert, if_neg gone.1]
  exact stored oid gone.2

theorem retiredStored_commitDelete {b : ExchangeBroker} (stored : RetiredStored b)
    {oid : ObjectIdentifier} (here : b.storeContains oid = true) :
    RetiredStored (b.commitDelete oid) := by
  intro other gone
  rw [commitDelete_store]
  rw [commitDelete_inactive, Finset.mem_insert] at gone
  rcases gone with rfl | gone
  · exact Option.isSome_iff_exists.mp here
  · exact stored other gone

section States

variable (b : ExchangeBroker)

theorem objectState_commitPut (i : MimInstance) (oid : ObjectIdentifier) :
    (b.commitPut i).objectState oid = if oid = i.oid then .active i else b.objectState oid := by
  unfold objectState
  rw [commitPut_store, commitPut_inactive, get_insert]
  by_cases same : oid = i.oid
  · subst same
    simp
  · simp [same]

theorem objectState_commitDelete_other (gone oid : ObjectIdentifier) (other : oid ≠ gone) :
    (b.commitDelete gone).objectState oid = b.objectState oid := by
  unfold objectState
  rw [commitDelete_store, commitDelete_inactive]
  simp [other]

theorem objectState_commitDelete {oid : ObjectIdentifier} {i : MimInstance}
    (stored : b.store.get oid = some i) : (b.commitDelete oid).objectState oid = .retired i := by
  unfold objectState
  rw [commitDelete_store, stored, commitDelete_inactive]
  simp

theorem getByOid_objectState (stored : RetiredStored b) (oid : ObjectIdentifier) : b.getByOid ⟨oid⟩ =
      match b.objectState oid with
      | .never => .error (.notFound oid.text)
      | .retired _ => .error (.inactive oid.text)
      | .active i => .ok ⟨i⟩ := by
  unfold ExchangeBroker.getByOid objectState storeGet
  by_cases gone : oid ∈ b.inactive
  · obtain ⟨i, here⟩ := stored oid gone
    simp [gone, here]
  · cases b.store.get oid <;> simp [gone]

theorem contains_objectState (oid : ObjectIdentifier) :
    b.storeContains oid = match b.objectState oid with
      | .never => false
      | .active _ | .retired _ => true := by
  have known : b.storeContains oid = (b.store.get oid).isSome := rfl
  rw [known, objectState]
  cases b.store.get oid with
  | none => rfl
  | some i => by_cases gone : oid ∈ b.inactive <;> simp [gone]

theorem active_of_objectState {oid : ObjectIdentifier} {i : MimInstance} :
    b.objectState oid = .active i ↔ b.store.get oid = some i ∧ oid ∉ b.inactive := by
  unfold ExchangeBroker.objectState
  cases b.store.get oid with
  | none => simp
  | some j => by_cases gone : oid ∈ b.inactive <;> simp [gone]

end States

inductive ObjectChange where
  | content (i : MimInstance)
  | retirement

def changeOf : ObjectCall × ObjectAnswer → Option ObjectChange
  | (⟨_, .put request⟩, .put (.ok _)) => some (.content request.inst)
  | (⟨_, .delete _⟩, .delete (.ok _)) => some .retirement
  | _ => none

def ObjectAnswer.accepted : ObjectAnswer → Bool
  | .put result => result.isOk
  | .get result => result.isOk
  | .delete result => result.isOk

/-- The last accepted change of one object in a history of calls and their answers. -/
def lastChange (oid : ObjectIdentifier) (history : List (ObjectCall × ObjectAnswer)) :
    Option ObjectChange :=
  ((history.filter fun p => decide (p.1.oid = oid)).filterMap changeOf).getLast?

def Reflects (start state : ObjectState) : Option ObjectChange → Prop
  | none => state = start
  | some (.content i) => state = .active i
  | some .retirement => ∃ i, state = .retired i

theorem puts_cases {g : ObjectGate} {subject : SubjectAttributes} {i : MimInstance}
    {state next : ObjectState} {result : Except TransportError PutObjectResponse}
    (ran : g.puts subject i state = some (result, next)) :
    (∃ e, result = .error e ∧ next = state) ∨ ∃ response, result = .ok response ∧
      next = .active i := by
  unfold ObjectGate.puts at ran
  split at ran
  · rename_i e _
    rw [Option.some.injEq, Prod.mk.injEq] at ran
    exact .inl ⟨e, ran.1.symm, ran.2.symm⟩
  · split at ran
    · cases ran
    · rename_i e _
      rw [Option.some.injEq, Prod.mk.injEq] at ran
      exact .inl ⟨e, ran.1.symm, ran.2.symm⟩
    · split at ran
      all_goals
        rw [Option.some.injEq, Prod.mk.injEq] at ran
        exact .inr ⟨_, ran.1.symm, ran.2.symm⟩

theorem deletes_cases (g : ObjectGate) (subject : SubjectAttributes) (oid : ObjectIdentifier)
    (state : ObjectState) : (∃ e, g.deletes subject oid state = (.error e, state)) ∨
      ∃ response i, g.deletes subject oid state = (.ok response, .retired i) := by
  cases state with
  | never => exact .inl ⟨_, rfl⟩
  | retired i => exact .inl ⟨_, rfl⟩
  | active i =>
    cases permitted : g.permits subject i .delete with
    | error e => exact .inl ⟨e, by simp only [ObjectGate.deletes, permitted]⟩
    | ok d => exact .inr ⟨⟨oid, true⟩, i, by simp only [ObjectGate.deletes, permitted]⟩

theorem object_reflects {g : ObjectGate} {state next : ObjectState} {call : ObjectCall}
    {answer : ObjectAnswer} (ran : g.object state call = some (answer, next)) :
    Reflects state next (changeOf (call, answer)) := by
  obtain ⟨subject, request⟩ := call
  cases request with
  | get request =>
    simp only [ObjectGate.object, Option.some.injEq, Prod.mk.injEq] at ran
    obtain ⟨rfl, rfl⟩ := ran
    rfl
  | put request =>
    obtain ⟨⟨result, after⟩, put, same⟩ := Option.map_eq_some_iff.mp ran
    rw [Prod.mk.injEq] at same
    obtain ⟨rfl, rfl⟩ := same
    rcases puts_cases put with ⟨e, rfl, rfl⟩ | ⟨response, rfl, rfl⟩
    · rfl
    · rfl
  | delete request =>
    simp only [ObjectGate.object, Option.some.injEq, Prod.mk.injEq] at ran
    obtain ⟨rfl, rfl⟩ := ran
    rcases deletes_cases g subject request.oid state with ⟨e, ran⟩ | ⟨response, i, ran⟩
    · rw [ran]
      rfl
    · rw [ran]
      exact ⟨i, rfl⟩

theorem reflects_trans {start mid final : ObjectState} {first later : Option ObjectChange}
    (one : Reflects start mid first) (two : Reflects mid final later) :
    Reflects start final (later.or first) := by
  cases later with
  | some change =>
    rw [Option.some_or]
    cases change with
    | content i => exact two
    | retirement => exact two
  | none =>
    rw [Option.none_or, show final = mid from two]
    exact one

theorem serve_reflects {g : ObjectGate} {state final : ObjectState} {calls : List ObjectCall}
    {answers : List ObjectAnswer} (ran : serve g.object state calls = some (answers, final)) :
    Reflects state final ((calls.zip answers).filterMap changeOf).getLast? := by
  induction calls generalizing state answers with
  | nil =>
    rw [serve, Option.some.injEq, Prod.mk.injEq] at ran
    exact ran.2.symm
  | cons call rest ih =>
    obtain ⟨answer, mid, more, first, later, rfl⟩ := serve_cons.mp ran
    have both := reflects_trans (object_reflects first) (ih later)
    rw [List.zip_cons_cons, List.filterMap_cons]
    cases changed : changeOf (call, answer) with
    | none =>
      rw [changed, Option.or_none] at both
      exact both
    | some change =>
      rw [changed] at both
      rw [List.getLast?_cons]
      cases last : ((rest.zip more).filterMap changeOf).getLast? with
      | none =>
        rw [last] at both
        exact both
      | some latest =>
        rw [last] at both
        exact both

theorem matching_nodup (s : SecuredExchangeBroker) (criterion : MimInstance → Bool) : (matching s criterion).Nodup :=
  (List.Nodup.of_map _ s.inner.store.values_nodup).filter _

def SecuredExchangeBroker.objectState (s : SecuredExchangeBroker) (oid : ObjectIdentifier) :
    ObjectState :=
  s.inner.objectState oid

theorem mem_matching {s : SecuredExchangeBroker} {criterion : MimInstance → Bool} {i : MimInstance} :
    i ∈ matching s criterion ↔ s.objectState i.oid = .active i ∧ criterion i = true := by
  rw [SecuredExchangeBroker.objectState, active_of_objectState, matching, List.mem_filter,
    mem_values, Bool.and_eq_true_iff, decide_eq_true_iff, and_assoc]

theorem matching_perm {s t : SecuredExchangeBroker}
    (same : ∀ oid, s.objectState oid = t.objectState oid)
    (criterion : MimInstance → Bool) : (matching s criterion).Perm (matching t criterion) := by
  rw [List.perm_ext_iff_of_nodup (matching_nodup s criterion) (matching_nodup t criterion)]
  intro i
  rw [mem_matching, mem_matching, same]

variable [UnicodeCase]

def SecuredExchangeBroker.answerCall (s : SecuredExchangeBroker) (call : ObjectCall) :
    Option (ObjectAnswer × SecuredExchangeBroker) :=
  match call.request with
  | .put request => (s.putObjectAs call.subject request).map fun r => (.put r.1, r.2)
  | .get request => some (.get (s.getByOidAs call.subject request), s)
  | .delete request =>
    some (.delete (s.deleteObjectAs call.subject request).1,
      (s.deleteObjectAs call.subject request).2)

def SecuredExchangeBroker.gate (s : SecuredExchangeBroker) : ObjectGate :=
  ⟨validatePut s.inner.registry, s.authorize⟩

section Separate

variable {s : SecuredExchangeBroker}

@[simp] theorem gate_permits : s.gate.permits = s.authorize := rfl

@[simp] theorem gate_validates : s.gate.validates = validatePut s.inner.registry := rfl

theorem getByOidAs_reads (stored : RetiredStored s.inner) (subject : SubjectAttributes)
    (oid : ObjectIdentifier) :
    s.getByOidAs subject ⟨oid⟩ = s.gate.reads subject oid (s.objectState oid) := by
  unfold SecuredExchangeBroker.getByOidAs SecuredExchangeBroker.objectState
  rw [getByOid_objectState s.inner stored]
  cases s.inner.objectState oid with
  | never => rfl
  | retired i => rfl
  | active i =>
    simp only [ObjectGate.reads, gate_permits]
    cases s.authorize subject i .read <;> rfl

theorem putObjectAs_object (subject : SubjectAttributes) (i : MimInstance) :
    (s.putObjectAs subject ⟨i⟩).map (fun r => (r.1, r.2.objectState i.oid)) =
      s.gate.puts subject i (s.objectState i.oid) := by
  unfold putObjectAs ObjectGate.puts
  rw [gate_permits, gate_validates]
  cases s.authorize subject i .write with
  | error e => rfl
  | ok d =>
    unfold ExchangeBroker.putObject
    cases validatePut s.inner.registry i with
    | none => rfl
    | some verdict =>
      cases verdict with
      | error e => rfl
      | ok _ =>
        have after : (s.withInner (s.inner.commitPut i)).objectState i.oid = .active i := by
          rw [SecuredExchangeBroker.objectState, withInner_inner, objectState_commitPut, if_pos rfl]
        simp only [Option.map_some, after, contains_objectState]
        unfold SecuredExchangeBroker.objectState
        cases s.inner.objectState i.oid <;> rfl

theorem deleteObjectAs_object (stored : RetiredStored s.inner) (subject : SubjectAttributes)
    (oid : ObjectIdentifier) :
    ((s.deleteObjectAs subject ⟨oid⟩).1, (s.deleteObjectAs subject ⟨oid⟩).2.objectState oid) =
      s.gate.deletes subject oid (s.objectState oid) := by
  unfold deleteObjectAs
  rw [getByOid_objectState s.inner stored]
  have here : s.objectState oid = s.inner.objectState oid := rfl
  cases state : s.inner.objectState oid with
  | never => rw [here, state]; rfl
  | retired i => rw [here, state]; rfl
  | active i =>
    rw [here, state]
    simp only [ObjectGate.deletes, gate_permits]
    cases s.authorize subject i .delete with
    | error e => simp only [here, state]
    | ok d =>
      have found := (active_of_objectState s.inner).mp state
      have contained : s.inner.storeContains oid = true := by
        rw [contains_objectState, state]
      rcases deleteObject_cases s.inner ⟨oid⟩ with ⟨absent, _⟩ | ⟨_, ran⟩
      · rw [contained] at absent
        cases absent
      · have after : (s.withInner (s.inner.commitDelete oid)).objectState oid = .retired i :=
          objectState_commitDelete s.inner found.1
        simp only [ran, found.2, not_false_eq_true, decide_true, after]

theorem answerCall_left {call : ObjectCall} {answer : ObjectAnswer} {next : SecuredExchangeBroker}
    (ran : s.answerCall call = some (answer, next)) :
    next = s ∨ (∃ i, call.oid = i.oid ∧ next = s.withInner (s.inner.commitPut i)) ∨
      s.inner.storeContains call.oid = true ∧
        next = s.withInner (s.inner.commitDelete call.oid) := by
  obtain ⟨subject, request⟩ := call
  cases request with
  | put request =>
    obtain ⟨⟨result, after⟩, put, same⟩ := Option.map_eq_some_iff.mp ran
    rw [Prod.mk.injEq] at same
    obtain ⟨_, rfl⟩ := same
    rcases putObjectAs_cases s subject request result after put with
      ⟨_, rfl, _⟩ | ⟨_, _, _, rfl⟩
    · exact .inl rfl
    · exact .inr (.inl ⟨request.inst, rfl, rfl⟩)
  | get request =>
    simp only [answerCall, Option.some.injEq, Prod.mk.injEq] at ran
    exact .inl ran.2.symm
  | delete request =>
    simp only [answerCall, Option.some.injEq, Prod.mk.injEq] at ran
    obtain ⟨_, rfl⟩ := ran
    rcases deleteObjectAs_cases s subject request with ⟨e, ran⟩ | ⟨response, here, ran⟩
    · exact .inl (by rw [ran])
    · exact .inr (.inr ⟨here, by rw [ran]; rfl⟩)

end Separate

structure Behind (g : ObjectGate) (s : SecuredExchangeBroker) : Prop where
  gate : s.gate = g
  stored : RetiredStored s.inner

theorem behind_new (s : SecuredExchangeBroker) (registry : ModelRegistry)
    (fresh : s.inner = .new registry) : Behind s.gate s :=
  ⟨rfl, fresh ▸ retiredStored_new registry⟩

theorem answerCall_separated (g : ObjectGate) :
    Separated answerCall g.object ObjectCall.oid SecuredExchangeBroker.objectState (Behind g) where
  own := by
    rintro s ⟨subject, request⟩ ⟨rfl, stored⟩
    cases request with
    | put request =>
      have one := putObjectAs_object (s := s) subject request.inst
      simp only [answerCall, ObjectGate.object, ObjectCall.oid, ← one, Option.map_map]
      rfl
    | get request =>
      simp only [answerCall, ObjectGate.object, ObjectCall.oid, Option.map_some,
        getByOidAs_reads stored subject request.oid]
    | delete request =>
      have one := deleteObjectAs_object stored subject request.oid
      simp only [answerCall, ObjectGate.object, ObjectCall.oid, ← one, Option.map_some]
  others := by
    rintro s call answer next _ ran k other
    rcases answerCall_left ran with rfl | ⟨i, same, rfl⟩ | ⟨_, rfl⟩
    · rfl
    · exact (objectState_commitPut s.inner i k).trans (if_neg fun h => other (h.trans same.symm))
    · exact objectState_commitDelete_other s.inner call.oid k other
  kept := by
    rintro s call answer next ⟨rfl, stored⟩ ran
    rcases answerCall_left ran with rfl | ⟨i, same, rfl⟩ | ⟨here, rfl⟩
    · exact ⟨rfl, stored⟩
    · exact ⟨rfl, retiredStored_commitPut stored i⟩
    · exact ⟨rfl, retiredStored_commitDelete stored here⟩

theorem answerCall_unseen {s : SecuredExchangeBroker} {call : ObjectCall} {answer : ObjectAnswer}
    {next : SecuredExchangeBroker} (ran : s.answerCall call = some (answer, next))
    (unseen : changeOf (call, answer) = none) : next = s := by
  obtain ⟨subject, request⟩ := call
  cases request with
  | get request =>
    simp only [answerCall, Option.some.injEq, Prod.mk.injEq] at ran
    exact ran.2.symm
  | put request =>
    obtain ⟨⟨result, after⟩, put, same⟩ := Option.map_eq_some_iff.mp ran
    rw [Prod.mk.injEq] at same
    obtain ⟨rfl, rfl⟩ := same
    rcases putObjectAs_cases s subject request result after put with
      ⟨_, rfl, _⟩ | ⟨_, _, ⟨response, rfl⟩, _⟩
    · rfl
    · cases unseen
  | delete request =>
    simp only [answerCall, Option.some.injEq, Prod.mk.injEq] at ran
    obtain ⟨rfl, rfl⟩ := ran
    rcases deleteObjectAs_cases s subject request with ⟨e, refused⟩ | ⟨response, _, done⟩
    · rw [refused]
    · rw [done] at unseen
      cases unseen

theorem history_reflected {s final : SecuredExchangeBroker} {registry : ModelRegistry}
    (fresh : s.inner = .new registry) {calls : List ObjectCall} {answers : List ObjectAnswer}
    (ran : serve answerCall s calls = some (answers, final)) (oid : ObjectIdentifier) :
    Behind s.gate final ∧
      Reflects .never (final.objectState oid) (lastChange oid (calls.zip answers)) := by
  have separated := answerCall_separated s.gate
  have start := behind_new s registry fresh
  have reflects := serve_reflects (object_serves separated oid start ran)
  rw [callsOn_zip ObjectCall.oid oid (serve_length ran)] at reflects
  have never : s.objectState oid = .never := by
    rw [SecuredExchangeBroker.objectState, fresh]
    rfl
  rw [never] at reflects
  exact ⟨serve_keeps separated.kept start ran, reflects⟩

def readAfter (g : ObjectGate) (subject : SubjectAttributes) (oid : ObjectIdentifier) :
    Option ObjectChange → Except TransportError GetByOidResponse
  | none => .error (.notFound oid.text)
  | some .retirement => .error (.inactive oid.text)
  | some (.content i) => (g.permits subject i .read).map fun _ => ⟨i⟩

omit [UnicodeCase] in
theorem reads_reflected (g : ObjectGate) (subject : SubjectAttributes) (oid : ObjectIdentifier)
    {state : ObjectState} {change : Option ObjectChange}
    (reflects : Reflects .never state change) :
    g.reads subject oid state = readAfter g subject oid change := by
  cases change with
  | none =>
    rw [show state = .never from reflects]
    rfl
  | some change =>
    cases change with
    | content i =>
      rw [show state = .active i from reflects]
      rfl
    | retirement =>
      obtain ⟨i, rfl⟩ := reflects
      rfl

/-- A reader gets the content of the last accepted put, if it may read that, and learns of a
retirement that came after; whoever else wrote what in between plays no part. -/
theorem reads_last_change {s final : SecuredExchangeBroker} {registry : ModelRegistry}
    (fresh : s.inner = .new registry) {calls : List ObjectCall} {answers : List ObjectAnswer}
    (ran : serve answerCall s calls = some (answers, final)) (subject : SubjectAttributes)
    (oid : ObjectIdentifier) : final.getByOidAs subject ⟨oid⟩ =
      match lastChange oid (calls.zip answers) with
      | none => .error (.notFound oid.text)
      | some .retirement => .error (.inactive oid.text)
      | some (.content i) => (s.authorize subject i .read).map fun _ => ⟨i⟩ := by
  obtain ⟨behind, reflects⟩ := history_reflected fresh ran oid
  rw [getByOidAs_reads behind.stored, behind.gate, reads_reflected s.gate subject oid reflects]
  cases lastChange oid (calls.zip answers) with
  | none => rfl
  | some change => cases change <;> rfl

section Queries

variable {s t : SecuredExchangeBroker}

/-- The two answers hold the same instances and count as many matches. -/
def SameAnswer (one other : GetByFilterResponse) : Prop :=
  one.instances.Perm other.instances ∧ one.count = other.count ∧ one.total = other.total

theorem query_same_states (gate : s.gate = t.gate)
    (same : ∀ oid, s.objectState oid = t.objectState oid) {subject : SubjectAttributes}
    {request : GetByFilterRequest} (first : request.offset = none) (unlimited : request.limit = none)
    {response : GetByFilterResponse} (answered : s.getByFilterAs subject request = .ok response) :
    ∃ other, t.getByFilterAs subject request = .ok other ∧ SameAnswer response other := by
  obtain ⟨criterion, accepted⟩ := criterion_of_answered s subject request answered
  have perm := matching_perm same criterion
  have whole : ∀ u, page u request criterion = matching u criterion := by
    intro u
    rw [page, first, unlimited]
    rfl
  have readers : readable t subject = readable s subject := by
    funext i
    unfold readable
    rw [← gate_permits, ← gate_permits, gate]
  rw [getByFilterAs_eq s subject request criterion accepted, whole] at answered
  rw [getByFilterAs_eq t subject request criterion accepted, whole]
  cases labels : labelFailure (matching s criterion) with
  | some e =>
    rw [labels] at answered
    cases answered
  | none =>
    have others : labelFailure (matching t criterion) = none := by
      rw [labelFailure_none] at labels ⊢
      exact fun i member => labels i (perm.mem_iff.mpr member)
    rw [labels] at answered
    obtain rfl := Except.ok.inj answered
    rw [others, readers]
    exact ⟨_, rfl, perm.filter _, (perm.filter _).length_eq, perm.length_eq⟩

end Queries

/-- Calls of any clients may be taken in any order that keeps each object's own: every call is
answered the same, and afterwards every lookup and every query is. -/
theorem calls_reordered {s final : SecuredExchangeBroker} {registry : ModelRegistry}
    (fresh : s.inner = .new registry) {calls others : List ObjectCall}
    (same : SameOnEach ObjectCall.oid calls others) {answers : List ObjectAnswer}
    (ran : serve answerCall s calls = some (answers, final)) :
    ∃ otherAnswers otherFinal, serve answerCall s others = some (otherAnswers, otherFinal) ∧
      (∀ oid, answersOn ObjectCall.oid oid others otherAnswers =
        answersOn ObjectCall.oid oid calls answers) ∧
      (∀ subject oid, otherFinal.getByOidAs subject ⟨oid⟩ = final.getByOidAs subject ⟨oid⟩) ∧
      ∀ subject request response, request.offset = none → request.limit = none →
        final.getByFilterAs subject request = .ok response →
        ∃ other, otherFinal.getByFilterAs subject request = .ok other ∧
          SameAnswer response other := by
  have separated := answerCall_separated s.gate
  have start := behind_new s registry fresh
  obtain ⟨otherAnswers, otherFinal, ranOther, each⟩ := reordered separated same start ran
  have behind : Behind s.gate final := serve_keeps separated.kept start ran
  have behindOther : Behind s.gate otherFinal := serve_keeps separated.kept start ranOther
  refine ⟨otherAnswers, otherFinal, ranOther, fun oid => (each oid).1, fun subject oid => ?_, ?_⟩
  · rw [getByOidAs_reads behindOther.stored, getByOidAs_reads behind.stored, behind.gate,
      behindOther.gate, (each oid).2]
  · intro subject request response first unlimited answered
    exact query_same_states (behind.gate.trans behindOther.gate.symm) (fun oid => (each oid).2.symm)
      first unlimited answered

theorem answerCall_put {s : SecuredExchangeBroker} {subject : SubjectAttributes} {i : MimInstance}
    (permitted : (s.authorize subject i .write).isOk = true)
    (valid : validatePut s.inner.registry i = some (.ok ())) :
    s.answerCall ⟨subject, .put ⟨i⟩⟩ =
      some (.put (.ok ⟨i.oid, !s.inner.storeContains i.oid⟩),
        s.withInner (s.inner.commitPut i)) := by
  simp only [answerCall, putObjectAs_accepted s subject i permitted valid, Option.map_some]

def putRestricted : ObjectCall := ⟨secretSubject, .put ⟨classified "r" "RESTRICTED"⟩⟩

def putSecret : ObjectCall := ⟨secretSubject, .put ⟨classified "x" "SECRET"⟩⟩

omit [UnicodeCase] in
theorem both_puts_served : ∃ _ : UnicodeCase, serve answerCall securedFixture
    [putRestricted, putSecret] =
      some ([.put (.ok ⟨⟨"r"⟩, true⟩), .put (.ok ⟨⟨"x"⟩, true⟩)], oneMoreSecret) := by
  refine ⟨asciiCase, ?_⟩
  let : UnicodeCase := asciiCase
  have first : securedFixture.answerCall putRestricted =
      some (.put (.ok ⟨⟨"r"⟩, true⟩), oneObject) :=
    answerCall_put (by decide +kernel) (wireInstance_accepted "r" _ (by decide))
  have second : oneObject.answerCall putSecret =
      some (.put (.ok ⟨⟨"x"⟩, true⟩), oneMoreSecret) :=
    answerCall_put (by decide +kernel) (wireInstance_accepted "x" _ (by decide))
  exact serve_cons.mpr ⟨_, _, _, first, serve_cons.mpr ⟨_, _, _, second, rfl, rfl⟩, rfl⟩

omit [UnicodeCase] in
theorem reads_last_change_fixture : ∃ _ : UnicodeCase,
    oneMoreSecret.getByOidAs restrictedSubject ⟨⟨"r"⟩⟩ =
      (securedFixture.authorize restrictedSubject (classified "r" "RESTRICTED") .read).map
        fun _ => ⟨classified "r" "RESTRICTED"⟩ := by
  obtain ⟨case, ran⟩ := both_puts_served
  exact ⟨case, @reads_last_change case _ _ wireRegistry rfl _ _ ran restrictedSubject ⟨"r"⟩⟩

omit [UnicodeCase] in
theorem calls_reordered_fixture : ∃ _ : UnicodeCase, ∃ answers final,
    serve answerCall securedFixture [putSecret, putRestricted] = some (answers, final) ∧
      final.getByOidAs restrictedSubject ⟨⟨"r"⟩⟩ =
        oneMoreSecret.getByOidAs restrictedSubject ⟨⟨"r"⟩⟩ := by
  obtain ⟨case, ran⟩ := both_puts_served
  have same : SameOnEach ObjectCall.oid [putRestricted, putSecret] [putSecret, putRestricted] := by
    intro oid
    by_cases first : putRestricted.oid = oid
    · subst first
      rfl
    · by_cases second : putSecret.oid = oid
      · subst second
        rfl
      · simp [callsOn, first, second]
  obtain ⟨answers, final, served, _, lookups, _⟩ :=
    @calls_reordered case _ _ wireRegistry rfl _ _ same _ ran
  exact ⟨case, answers, final, served, lookups restrictedSubject ⟨"r"⟩⟩

end MimTransport
