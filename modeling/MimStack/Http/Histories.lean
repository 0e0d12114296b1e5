import MimStack.Http.Exchange

/-!
Histories of requests. Whatever a client's request says, it comes to at most one call
on the broker, decided before the broker is looked at; so a history of requests with
their answers is a history of broker calls, and a read answers by the last write in
it that was acknowledged. Only an acknowledged notice brings in anything else.
-/
namespace MimHttp.Routes
open RustText Fallible MarkupText ObjectSystems MimCore MimRuntime MimPolicy MimCrypto MimStanag
open MimTransport SecuredExchangeBroker

namespace RouteContext

variable {Q : Type} (ctx : RouteContext Q) [MarkupEscape]

def putCall (headers : HeaderMap) (body : String) : Except TransportError ObjectCall := do
  versionChecked headers
  let envelope ← (ctx.readEnvelope body).mapError .serialization
  let admitted ← admitPut ctx.provider ctx.lib.toWireLibraries ctx.codec ctx.trustStore ctx.state
    headers (requestTlsIdentity headers) envelope
  return ⟨admitted.1, .put admitted.2⟩

def getCall (headers : HeaderMap) (encodedOid : String) : Except TransportError ObjectCall := do
  versionChecked headers
  let request ← parseGetByOid (objectPath encodedOid)
  let subject ← ctx.subjectFor headers
  return ⟨subject, .get request⟩

def deleteCall (headers : HeaderMap) (encodedOid : String) : Except TransportError ObjectCall := do
  let request ← parseDelete (objectPath encodedOid)
  let subject ← ctx.subjectFor headers
  return ⟨subject, .delete request⟩

def objectCall : HttpRequest → Option (Except TransportError ObjectCall)
  | .putObject headers body => some (ctx.putCall headers body)
  | .getByOid headers encodedOid => some (ctx.getCall headers encodedOid)
  | .deleteObject headers encodedOid => some (ctx.deleteCall headers encodedOid)
  | .health | .getByFilter _ _ | .syncChanges _ _ | .replicationNotify _ => none

variable [Preorder Q] [DecidableLT Q]

def respond (headers : HeaderMap) : ObjectAnswer → HttpResponse
  | .put (.error e) | .get (.error e) | .delete (.error e) => mapError e
  | .put (.ok response) => negotiatedResponse .json 201 (.put response)
  | .get (.ok response) => ctx.objectResponse (ctx.negotiatedFormat headers) response
  | .delete (.ok response) => negotiatedResponse .json 200 (.deleted response)

variable [UnicodeCase]

def answered (s : SecuredExchangeBroker) (headers : HeaderMap)
    (call : Except TransportError ObjectCall) : Option (HttpResponse × SecuredExchangeBroker) :=
  match call with
  | .error e => some (mapError e, s)
  | .ok call => (s.answerCall call).map fun ran => (ctx.respond headers ran.1, ran.2)

end RouteContext

def HttpRequest.headers : HttpRequest → HeaderMap
  | .health | .replicationNotify _ => ⟨[]⟩
  | .putObject headers _ | .getByOid headers _ | .getByFilter headers _ | .deleteObject headers _
  | .syncChanges headers _ => headers

section Calls

variable {Q : Type} {ctx : RouteContext Q} [MarkupEscape] [Preorder Q] [DecidableLT Q]
variable [UnicodeCase] {s : SecuredExchangeBroker} {request : HttpRequest}

theorem handlePut_answered (headers : HeaderMap) (envelope : RestEnvelope) :
    (handlePut ctx.provider ctx.lib.toWireLibraries ctx.codec ctx.trustStore ctx.state s headers
      (requestTlsIdentity headers) envelope).map (fun ran =>
        match ran.1 with
        | .error e => (mapError e, ran.2)
        | .ok response => (negotiatedResponse .json 201 (.put response), ran.2)) =
      ctx.answered s headers (admitPut ctx.provider ctx.lib.toWireLibraries ctx.codec
        ctx.trustStore ctx.state headers (requestTlsIdentity headers) envelope >>= fun admitted =>
          pure ⟨admitted.1, .put admitted.2⟩) := by
  unfold handlePut
  cases admitPut ctx.provider ctx.lib.toWireLibraries ctx.codec ctx.trustStore ctx.state headers
      (requestTlsIdentity headers) envelope with
  | error e => rfl
  | ok admitted =>
    change _ = ctx.answered s headers (.ok ⟨admitted.1, .put admitted.2⟩)
    simp only [RouteContext.answered, answerCall]
    cases s.putObjectAs admitted.1 admitted.2 with
    | none => rfl
    | some ran =>
      obtain ⟨result, after⟩ := ran
      cases result <;> rfl

theorem putObject_answered (headers : HeaderMap) (body : String) :
    ctx.putObject s headers body = ctx.answered s headers (ctx.putCall headers body) := by
  unfold RouteContext.putObject RouteContext.putCall
  cases versionChecked headers with
  | error e => rfl
  | ok _ =>
    cases ctx.readEnvelope body with
    | error e => rfl
    | ok envelope => exact handlePut_answered headers envelope

theorem getByOid_answered (headers : HeaderMap) (encodedOid : String) :
    some (ctx.getByOid s headers encodedOid, s) =
      ctx.answered s headers (ctx.getCall headers encodedOid) := by
  unfold RouteContext.getByOid RouteContext.getCall
  cases versionChecked headers with
  | error e => rfl
  | ok _ =>
    cases parseGetByOid (objectPath encodedOid) with
    | error e => rfl
    | ok request =>
      cases ctx.subjectFor headers with
      | error e => rfl
      | ok subject =>
        change _ = ctx.answered s headers (.ok ⟨subject, .get request⟩)
        simp only [RouteContext.answered, answerCall]
        cases s.getByOidAs subject request <;> rfl

theorem deleteObject_answered (headers : HeaderMap) (encodedOid : String) :
    some (ctx.deleteObject s headers encodedOid) =
      ctx.answered s headers (ctx.deleteCall headers encodedOid) := by
  unfold RouteContext.deleteObject RouteContext.deleteCall
  cases parseDelete (objectPath encodedOid) with
  | error e => rfl
  | ok request =>
    cases ctx.subjectFor headers with
    | error e => rfl
    | ok subject =>
      change _ = ctx.answered s headers (.ok ⟨subject, .delete request⟩)
      simp only [RouteContext.answered, answerCall]
      cases s.deleteObjectAs subject request with
      | mk result after => cases result <;> rfl

theorem handle_answered {call : Except TransportError ObjectCall}
    (concerned : ctx.objectCall request = some call) :
    ctx.handle s request = ctx.answered s request.headers call := by
  cases request with
  | health => cases concerned
  | getByFilter headers query => cases concerned
  | syncChanges headers since => cases concerned
  | replicationNotify answers => cases concerned
  | putObject headers body =>
    obtain rfl := Option.some.inj concerned
    exact putObject_answered headers body
  | getByOid headers encodedOid =>
    obtain rfl := Option.some.inj concerned
    exact getByOid_answered headers encodedOid
  | deleteObject headers encodedOid =>
    obtain rfl := Option.some.inj concerned
    exact deleteObject_answered headers encodedOid

variable (ctx s) in
/-- What a notice that is acknowledged does: the whole pull goes through. -/
def Replicates (answers : RemoteAnswers) (response : HttpResponse) (next : SecuredExchangeBroker) :
    Prop :=
  ∃ client report staging left, ctx.federationClient = .ok client ∧
    pullAndApplyRemote httpFederationClient s.inner s.inner.lastAppliedSequence answers =
      some (.ok report, staging, left) ∧
    response = negotiatedResponse .json 200 (.replicated report) ∧ next = s.withInner staging

omit [MarkupEscape] [Preorder Q] [DecidableLT Q] [UnicodeCase] in
theorem replicationNotify_cases {answers : RemoteAnswers} {response : HttpResponse}
    {next : SecuredExchangeBroker}
    (ran : ctx.replicationNotify s answers = some (response, next)) :
    (∃ e, response = mapError e ∧ next = s) ∨ Replicates ctx s answers response next := by
  unfold RouteContext.replicationNotify at ran
  cases built : ctx.federationClient with
  | error e =>
    rw [built, Option.some.injEq, Prod.mk.injEq] at ran
    exact .inl ⟨e, ran.1.symm, ran.2.symm⟩
  | ok client =>
    rw [built] at ran
    obtain ⟨⟨result, staging, left⟩, pulled, same⟩ := Option.map_eq_some_iff.mp ran
    cases result with
    | error e =>
      obtain ⟨rfl, rfl⟩ := Prod.mk.inj same
      exact .inl ⟨e, rfl, rfl⟩
    | ok report =>
      obtain ⟨rfl, rfl⟩ := Prod.mk.inj same
      exact .inr ⟨client, report, staging, left, built, pulled, rfl, rfl⟩

theorem handle_looks (other : ctx.objectCall request = none) :
    (∃ answers, request = .replicationNotify answers) ∨
      ∃ response, ctx.handle s request = some (response, s) := by
  cases request with
  | health => exact .inr ⟨_, rfl⟩
  | getByFilter headers query => exact .inr ⟨_, rfl⟩
  | syncChanges headers since => exact .inr ⟨_, rfl⟩
  | replicationNotify answers => exact .inl ⟨answers, rfl⟩
  | putObject headers body => cases other
  | getByOid headers encodedOid => cases other
  | deleteObject headers encodedOid => cases other

end Calls

def writeSeen (call : ObjectCall) (status : Nat) : Option ObjectChange :=
  match call.request with
  | .put request => if status = 201 then some (.content request.inst) else none
  | .delete _ => if status = 200 then some .retirement else none
  | .get _ => none

namespace RouteContext

variable {Q : Type} (ctx : RouteContext Q) [MarkupEscape]

def callOf (request : HttpRequest) : Option ObjectCall :=
  (ctx.objectCall request).bind Except.toOption

def acknowledged (oid : ObjectIdentifier) (p : HttpRequest × HttpResponse) : Option ObjectChange :=
  (ctx.callOf p.1).bind fun call => if call.oid = oid then writeSeen call p.2.status else none

def lastWrite (oid : ObjectIdentifier) (history : List (HttpRequest × HttpResponse)) :
    Option ObjectChange :=
  (history.filterMap (ctx.acknowledged oid)).getLast?

end RouteContext

/-- What a client is told to have changed the broker. -/
def acknowledges (p : HttpRequest × HttpResponse) : Bool :=
  match p.1 with
  | .putObject _ _ => p.2.status == 201
  | .deleteObject _ _ | .replicationNotify _ => p.2.status == 200
  | .health | .getByOid _ _ | .getByFilter _ _ | .syncChanges _ _ => false

/-- A notice whose pull went through, by its status. -/
def Replicated (p : HttpRequest × HttpResponse) : Prop :=
  (∃ answers, p.1 = .replicationNotify answers) ∧ p.2.status = 200

section Histories

variable {Q : Type} {ctx : RouteContext Q} [MarkupEscape] [Preorder Q] [DecidableLT Q]
variable [UnicodeCase] {s final : SecuredExchangeBroker}

variable (ctx) in
theorem writeSeen_respond (headers : HeaderMap) {call : ObjectCall} {answer : ObjectAnswer}
    {next : SecuredExchangeBroker} (ran : s.answerCall call = some (answer, next)) :
    writeSeen call (ctx.respond headers answer).status = changeOf (call, answer) := by
  have refused : ∀ e, (mapError e).status ≠ 201 ∧ (mapError e).status ≠ 200 := by
    intro e
    have := errorStatus_refuses e
    exact ⟨by unfold mapError; simp only; omega, by unfold mapError; simp only; omega⟩
  obtain ⟨subject, request⟩ := call
  cases request with
  | get request => rfl
  | put request =>
    obtain ⟨⟨result, after⟩, _, same⟩ := Option.map_eq_some_iff.mp ran
    rw [Prod.mk.injEq] at same
    obtain ⟨rfl, _⟩ := same
    cases result with
    | error e => exact if_neg (refused e).1
    | ok response => rfl
  | delete request =>
    simp only [answerCall, Option.some.injEq, Prod.mk.injEq] at ran
    obtain ⟨rfl, _⟩ := ran
    cases (s.deleteObjectAs subject request).1 with
    | error e => exact if_neg (refused e).2
    | ok response => rfl

theorem handle_cases {request : HttpRequest} {response : HttpResponse} {next : SecuredExchangeBroker}
    (ran : ctx.handle s request = some (response, next)) :
    (ctx.callOf request = none ∧ next = s) ∨
      (∃ call answer, ctx.callOf request = some call ∧ s.answerCall call = some (answer, next) ∧
        response = ctx.respond request.headers answer) ∨
      ∃ answers, request = .replicationNotify answers ∧ Replicates ctx s answers response next := by
  unfold RouteContext.callOf
  cases concerned : ctx.objectCall request with
  | none =>
    rcases handle_looks (s := s) concerned with ⟨answers, rfl⟩ | ⟨other, looked⟩
    · rcases replicationNotify_cases ran with ⟨e, _, same⟩ | replicates
      · exact .inl ⟨rfl, same⟩
      · exact .inr (.inr ⟨answers, rfl, replicates⟩)
    · rw [looked, Option.some.injEq, Prod.mk.injEq] at ran
      exact .inl ⟨rfl, ran.2.symm⟩
  | some call =>
    rw [handle_answered concerned] at ran
    cases call with
    | error e =>
      rw [RouteContext.answered, Option.some.injEq, Prod.mk.injEq] at ran
      exact .inl ⟨rfl, ran.2.symm⟩
    | ok call =>
      obtain ⟨⟨answer, after⟩, called, same⟩ := Option.map_eq_some_iff.mp ran
      rw [Prod.mk.injEq] at same
      obtain ⟨rfl, rfl⟩ := same
      exact .inr (.inl ⟨call, answer, rfl, called, rfl⟩)

/-- A history of requests is a history of the calls they come to, and the acknowledged writes
on an object are the changes these calls made. -/
theorem history_calls {requests : List HttpRequest} {responses : List HttpResponse}
    (ran : serve ctx.handle s requests = some (responses, final))
    (own : ∀ p ∈ requests.zip responses, ¬ Replicated p) :
    ∃ answers, serve answerCall s (requests.filterMap ctx.callOf) = some (answers, final) ∧
      ∀ oid, (requests.zip responses).filterMap (ctx.acknowledged oid) =
        (((requests.filterMap ctx.callOf).zip answers).filter
          fun p => decide (p.1.oid = oid)).filterMap changeOf := by
  induction requests generalizing s responses with
  | nil =>
    rw [serve, Option.some.injEq, Prod.mk.injEq] at ran
    obtain ⟨rfl, rfl⟩ := ran
    exact ⟨[], rfl, fun oid => rfl⟩
  | cons request rest ih =>
    obtain ⟨response, mid, more, first, later, rfl⟩ := serve_cons.mp ran
    obtain ⟨answers, served, agree⟩ := ih later fun p member => own p (List.mem_cons_of_mem _ member)
    rcases handle_cases first with ⟨noCall, rfl⟩ | ⟨call, answer, comes, called, rfl⟩ |
      ⟨remote, rfl, replicates⟩
    · refine ⟨answers, ?_, fun oid => ?_⟩
      · rw [List.filterMap_cons, noCall]
        exact served
      · have silent : ctx.acknowledged oid (request, response) = none := by
          rw [RouteContext.acknowledged, noCall, Option.bind_none]
        rw [List.zip_cons_cons, List.filterMap_cons, silent, List.filterMap_cons, noCall]
        exact agree oid
    · refine ⟨answer :: answers, ?_, fun oid => ?_⟩
      · rw [List.filterMap_cons, comes]
        exact serve_cons.mpr ⟨answer, mid, answers, called, served, rfl⟩
      · have seen : ctx.acknowledged oid (request, ctx.respond request.headers answer) =
            if call.oid = oid then changeOf (call, answer) else none := by
          rw [RouteContext.acknowledged, comes, Option.bind_some,
            writeSeen_respond ctx request.headers called]
        rw [List.zip_cons_cons, List.filterMap_cons, seen, List.filterMap_cons, comes]
        simp only [List.zip_cons_cons, List.filter_cons]
        by_cases same : call.oid = oid
        · simp only [same, if_true, decide_true, List.filterMap_cons, agree oid]
        · simp only [same, if_false, decide_false, Bool.false_eq_true, agree oid]
    · obtain ⟨_, _, _, _, _, _, rfl, _⟩ := replicates
      exact absurd ⟨⟨remote, rfl⟩, rfl⟩ (own _ List.mem_cons_self)

/-- Unless a notice was acknowledged, a read is answered by the last write to its object that was,
whatever requests, refused or not, came before, between and after. -/
theorem read_after_history {registry : MimModel.ModelRegistry} (fresh : s.inner = .new registry)
    {requests : List HttpRequest} {responses : List HttpResponse}
    (ran : serve ctx.handle s requests = some (responses, final))
    (own : ∀ p ∈ requests.zip responses, ¬ Replicated p) {headers : HeaderMap}
    {encodedOid : String} {subject : SubjectAttributes} {oid : ObjectIdentifier}
    (admitted : ctx.getCall headers encodedOid = .ok ⟨subject, .get ⟨oid⟩⟩) :
    ctx.handle final (.getByOid headers encodedOid) = some
      (match ctx.lastWrite oid (requests.zip responses) with
      | none => mapError (.notFound oid.text)
      | some .retirement => mapError (.inactive oid.text)
      | some (.content i) =>
        match s.authorize subject i .read with
        | .error e => mapError e
        | .ok _ => ctx.objectResponse (ctx.negotiatedFormat headers) ⟨i⟩, final) := by
  obtain ⟨answers, served, agree⟩ := history_calls ran own
  obtain ⟨behind, reflects⟩ := history_reflected fresh served oid
  have read := getByOidAs_reads behind.stored subject oid
  rw [behind.gate, reads_reflected s.gate subject oid reflects] at read
  have last : lastChange oid ((requests.filterMap ctx.callOf).zip answers) =
      ctx.lastWrite oid (requests.zip responses) := by
    rw [lastChange, RouteContext.lastWrite, agree oid]
  rw [last] at read
  have concerned : ctx.objectCall (.getByOid headers encodedOid) =
      some (.ok ⟨subject, .get ⟨oid⟩⟩) := congrArg some admitted
  rw [handle_answered concerned, RouteContext.answered, answerCall]
  simp only [read, Option.map_some, Option.some.injEq, Prod.mk.injEq, and_true]
  cases ctx.lastWrite oid (requests.zip responses) with
  | none => rfl
  | some change =>
    cases change with
    | retirement => rfl
    | content i =>
      change ctx.respond headers (.get ((s.authorize subject i .read).map fun _ => ⟨i⟩)) =
        match s.authorize subject i .read with
        | .error e => mapError e
        | .ok _ => ctx.objectResponse (ctx.negotiatedFormat headers) ⟨i⟩
      cases s.authorize subject i .read <;> rfl

omit [Preorder Q] [DecidableLT Q] [UnicodeCase] in
theorem callOf_some {request : HttpRequest} {call : ObjectCall} :
    ctx.callOf request = some call ↔ ctx.objectCall request = some (.ok call) := by
  unfold RouteContext.callOf
  rcases ctx.objectCall request with _ | ⟨e | own⟩ <;> simp [Except.toOption]

omit [Preorder Q] [DecidableLT Q] [UnicodeCase] in
theorem writeSeen_silent {request : HttpRequest} {response : HttpResponse} {call : ObjectCall}
    (comes : ctx.callOf request = some call) (silent : acknowledges (request, response) = false) :
    writeSeen call response.status = none := by
  have concerned := callOf_some.mp comes
  cases request with
  | health => cases concerned
  | getByFilter headers query => cases concerned
  | syncChanges headers since => cases concerned
  | replicationNotify answers => cases concerned
  | putObject headers body =>
    obtain ⟨_, _, admitted⟩ := bind_ok.mp (Option.some.inj concerned)
    obtain ⟨_, _, admitted⟩ := bind_ok.mp admitted
    obtain ⟨_, _, admitted⟩ := bind_ok.mp admitted
    obtain rfl := pure_ok.mp admitted
    exact if_neg (beq_eq_false_iff_ne.mp silent)
  | getByOid headers encodedOid =>
    obtain ⟨_, _, admitted⟩ := bind_ok.mp (Option.some.inj concerned)
    obtain ⟨_, _, admitted⟩ := bind_ok.mp admitted
    obtain ⟨_, _, admitted⟩ := bind_ok.mp admitted
    obtain rfl := pure_ok.mp admitted
    rfl
  | deleteObject headers encodedOid =>
    obtain ⟨_, _, admitted⟩ := bind_ok.mp (Option.some.inj concerned)
    obtain ⟨_, _, admitted⟩ := bind_ok.mp admitted
    obtain rfl := pure_ok.mp admitted
    exact if_neg (beq_eq_false_iff_ne.mp silent)

theorem unacknowledged_same {request : HttpRequest} {response : HttpResponse}
    {next : SecuredExchangeBroker} (ran : ctx.handle s request = some (response, next))
    (silent : acknowledges (request, response) = false) : next = s := by
  rcases handle_cases ran with ⟨_, same⟩ | ⟨call, answer, comes, called, rfl⟩ | ⟨remote, rfl, replicates⟩
  · exact same
  · refine answerCall_unseen called ?_
    rw [← writeSeen_respond ctx request.headers called]
    exact writeSeen_silent comes silent
  · obtain ⟨_, _, _, _, _, _, rfl, _⟩ := replicates
    cases silent

/-- The acknowledged requests of a history, sent alone and in order, get the answers they got in it
and leave the broker it leaves. -/
theorem acknowledged_suffice {requests : List HttpRequest} {responses : List HttpResponse}
    (ran : serve ctx.handle s requests = some (responses, final)) :
    serve ctx.handle s (((requests.zip responses).filter acknowledges).map Prod.fst) =
      some (((requests.zip responses).filter acknowledges).map Prod.snd, final) := by
  induction requests generalizing s responses with
  | nil =>
    rw [serve, Option.some.injEq, Prod.mk.injEq] at ran
    obtain ⟨rfl, rfl⟩ := ran
    rfl
  | cons request rest ih =>
    obtain ⟨response, mid, more, first, later, rfl⟩ := serve_cons.mp ran
    rw [List.zip_cons_cons]
    cases told : acknowledges (request, response) with
    | false =>
      rw [List.filter_cons_of_neg (by rw [told]; exact Bool.false_ne_true)]
      obtain rfl := unacknowledged_same first told
      exact ih later
    | true =>
      rw [List.filter_cons_of_pos told, List.map_cons, List.map_cons]
      exact serve_cons.mpr ⟨response, mid, _, first, ih later, rfl⟩

end Histories

end MimHttp.Routes
