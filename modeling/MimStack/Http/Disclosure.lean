import MimStack.Http.Histories

/-!
To whom the server answers, and with what. Every answer but a refusal is made for
the subject the request resolves to, out of instances that subject may read. A notice
is answered whoever sends it, with the counts of the pull alone.
-/
namespace MimHttp.Routes
open RustText ByteText Fallible MarkupText ObjectSystems MimCore MimRuntime MimLabeling MimSpif
open MimPolicy MimCrypto MimStanag MimTransport ExchangeBroker SecuredExchangeBroker

variable {Q : Type} [MarkupEscape] [Preorder Q] [DecidableLT Q] [UnicodeCase]

def Followed (s : SecuredExchangeBroker) (subject : SubjectAttributes) (entry : JournalEntry) :
    Prop :=
  entry.operation = .deleteObject ∨
    ∃ i, s.objectState entry.oid = .active i ∧ readable s subject i = true

/-- An answer made for a subject. -/
inductive MadeFor (ctx : RouteContext Q) (s : SecuredExchangeBroker) (subject : SubjectAttributes)
    (headers : HeaderMap) : HttpResponse → Prop where
  | stored (response : PutObjectResponse) :
      MadeFor ctx s subject headers (negotiatedResponse .json 201 (.put response))
  | removed (response : DeleteObjectResponse) :
      MadeFor ctx s subject headers (negotiatedResponse .json 200 (.deleted response))
  | object (i : MimInstance) (may : readable s subject i = true) :
      MadeFor ctx s subject headers (ctx.objectResponse (ctx.negotiatedFormat headers) ⟨i⟩)
  | page (response : GetByFilterResponse)
      (may : ∀ i ∈ response.instances, readable s subject i = true) :
      MadeFor ctx s subject headers (ctx.pageResponse (ctx.negotiatedFormat headers) response)
  | journal (response : SyncResponse) (may : ∀ entry ∈ response.entries, Followed s subject entry) :
      MadeFor ctx s subject headers (negotiatedResponse .json 200 (.journal response))

section Subjects

variable {ctx : RouteContext Q} {headers : HeaderMap}

omit [Preorder Q] [DecidableLT Q] [UnicodeCase]

theorem putCall_subject {body : String} {call : ObjectCall}
    (admitted : ctx.putCall headers body = .ok call) :
    ctx.subjectFor headers = .ok call.subject := by
  obtain ⟨_, _, admitted⟩ := bind_ok.mp admitted
  obtain ⟨envelope, _, admitted⟩ := bind_ok.mp admitted
  obtain ⟨⟨subject, request⟩, checked, admitted⟩ := bind_ok.mp admitted
  obtain rfl := pure_ok.mp admitted
  obtain ⟨key, route, _⟩ := admitPut_ok_iff.mp checked
  exact route.subject

omit [MarkupEscape] in
theorem getCall_subject {encodedOid : String} {call : ObjectCall}
    (admitted : ctx.getCall headers encodedOid = .ok call) :
    ctx.subjectFor headers = .ok call.subject := by
  obtain ⟨_, _, admitted⟩ := bind_ok.mp admitted
  obtain ⟨request, _, admitted⟩ := bind_ok.mp admitted
  obtain ⟨subject, resolved, admitted⟩ := bind_ok.mp admitted
  obtain rfl := pure_ok.mp admitted
  exact resolved

omit [MarkupEscape] in
theorem deleteCall_subject {encodedOid : String} {call : ObjectCall}
    (admitted : ctx.deleteCall headers encodedOid = .ok call) :
    ctx.subjectFor headers = .ok call.subject := by
  obtain ⟨request, _, admitted⟩ := bind_ok.mp admitted
  obtain ⟨subject, resolved, admitted⟩ := bind_ok.mp admitted
  obtain rfl := pure_ok.mp admitted
  exact resolved

theorem objectCall_subject {request : HttpRequest} {call : ObjectCall}
    (admitted : ctx.objectCall request = some (.ok call)) :
    ctx.subjectFor request.headers = .ok call.subject := by
  cases request with
  | health => cases admitted
  | getByFilter headers query => cases admitted
  | syncChanges headers since => cases admitted
  | replicationNotify answers => cases admitted
  | putObject headers body => exact putCall_subject (Option.some.inj admitted)
  | getByOid headers encodedOid => exact getCall_subject (Option.some.inj admitted)
  | deleteObject headers encodedOid => exact deleteCall_subject (Option.some.inj admitted)

omit [MarkupEscape] in
theorem anonymous_unresolved (required : ctx.state.requireClientIdentity = true)
    (anonymous : Anonymous headers) : ctx.subjectFor headers =
      .error (.forbidden "mTLS client identity required for PEP-gated access") := by
  obtain ⟨noBearer, noPrincipal⟩ := anonymous_unclaimed anonymous
  have fingerprint := anonymous headerMimClientCertSha256 (by simp [identityHeaders])
  have cn := anonymous headerMimClientCn (by simp [identityHeaders])
  have tlsCn := anonymous headerMimTlsClientCn (by simp [identityHeaders])
  have noPeer : requestTlsIdentity headers = none := by
    rw [requestTlsIdentity, tlsCn]
    rfl
  rw [RouteContext.subjectFor, resolveSubject_required _ _ required, noPeer]
  simp only [resolveRequestSubject, noBearer, noPrincipal, fingerprint, cn]
  rfl

end Subjects

section Answers

variable {ctx : RouteContext Q} {s : SecuredExchangeBroker} {subject : SubjectAttributes}

omit [MarkupEscape] in
theorem page_readable_all {request : GetByFilterRequest} {response : GetByFilterResponse}
    (answered : s.getByFilterAs subject request = .ok response) :
    ∀ i ∈ response.instances, readable s subject i = true := by
  obtain ⟨criterion, accepted⟩ := criterion_of_answered s subject request answered
  rw [getByFilterAs_eq s subject request criterion accepted] at answered
  cases labels : labelFailure (page s request criterion) with
  | some e =>
    rw [labels] at answered
    cases answered
  | none =>
    rw [labels] at answered
    obtain rfl := Except.ok.inj answered
    exact fun i member => (List.mem_filter.mp member).2

omit [MarkupEscape] in
theorem sync_followed (since : Nat) :
    ∀ entry ∈ (s.syncSinceAs subject since).entries, Followed s subject entry := by
  intro entry member
  have kept := (List.mem_filter.mp member).2
  rcases Bool.or_eq_true_iff.mp kept with delete | shown
  · exact .inl (beq_iff_eq.mp delete)
  · obtain ⟨response, found⟩ := isOk_iff.mp shown
    obtain ⟨active, stored, decision, permitted⟩ := (getByOidAs_ok_iff s subject _ _).mp found
    refine .inr ⟨response.inst, (active_of_objectState s.inner).mpr ⟨stored, active⟩, ?_⟩
    rw [readable, permitted]
    rfl

variable (ctx) in
theorem respond_madeFor (headers : HeaderMap) {call : ObjectCall} {answer : ObjectAnswer}
    {next : SecuredExchangeBroker} (called : s.answerCall call = some (answer, next)) :
    (∃ e, ctx.respond headers answer = mapError e ∧ next = s) ∨
      MadeFor ctx s call.subject headers (ctx.respond headers answer) := by
  obtain ⟨subject, request⟩ := call
  have same := answerCall_unseen called
  cases request with
  | put request =>
    obtain ⟨⟨result, after⟩, _, split⟩ := Option.map_eq_some_iff.mp called
    rw [Prod.mk.injEq] at split
    obtain ⟨rfl, rfl⟩ := split
    cases result with
    | error e => exact .inl ⟨e, rfl, same rfl⟩
    | ok response => exact .inr (.stored response)
  | get request =>
    simp only [answerCall, Option.some.injEq, Prod.mk.injEq] at called
    obtain ⟨rfl, rfl⟩ := called
    cases found : s.getByOidAs subject request with
    | error e => exact .inl ⟨e, rfl, rfl⟩
    | ok response =>
      obtain ⟨_, _, decision, permitted⟩ := (getByOidAs_ok_iff s subject _ _).mp found
      refine .inr (.object response.inst ?_)
      rw [readable, permitted]
      rfl
  | delete request =>
    simp only [answerCall, Option.some.injEq, Prod.mk.injEq] at called
    obtain ⟨rfl, rfl⟩ := called
    cases result : (s.deleteObjectAs subject request).1 with
    | error e => exact .inl ⟨e, rfl, same (by rw [result]; rfl)⟩
    | ok response => exact .inr (.removed response)

theorem answered_for {request : HttpRequest} {response : HttpResponse} {next : SecuredExchangeBroker}
    (ran : ctx.handle s request = some (response, next)) :
    request = .health ∨ (∃ e, response = mapError e ∧ next = s) ∨
      (∃ answers, request = .replicationNotify answers ∧ Replicates ctx s answers response next) ∨
      ∃ subject, ctx.subjectFor request.headers = .ok subject ∧
        MadeFor ctx s subject request.headers response := by
  cases concerned : ctx.objectCall request with
  | some call =>
    rw [handle_answered concerned] at ran
    cases call with
    | error e =>
      rw [RouteContext.answered, Option.some.injEq, Prod.mk.injEq] at ran
      exact .inr (.inl ⟨e, ran.1.symm, ran.2.symm⟩)
    | ok call =>
      obtain ⟨⟨answer, after⟩, called, same⟩ := Option.map_eq_some_iff.mp ran
      rw [Prod.mk.injEq] at same
      obtain ⟨rfl, rfl⟩ := same
      rcases respond_madeFor ctx request.headers called with refused | made
      · exact .inr (.inl refused)
      · exact .inr (.inr (.inr ⟨call.subject, objectCall_subject concerned, made⟩))
  | none =>
    cases request with
    | health => exact .inl rfl
    | replicationNotify answers =>
      rcases replicationNotify_cases ran with refused | replicates
      · exact .inr (.inl refused)
      · exact .inr (.inr (.inl ⟨answers, rfl, replicates⟩))
    | putObject headers body => cases concerned
    | getByOid headers encodedOid => cases concerned
    | deleteObject headers encodedOid => cases concerned
    | getByFilter headers query =>
      have looked : some (ctx.getByFilter s headers query, s) = some (response, next) := ran
      rw [Option.some.injEq, Prod.mk.injEq] at looked
      obtain ⟨rfl, rfl⟩ := looked
      unfold RouteContext.getByFilter
      cases filterFromQuery query.filter query.className query.propertyName query.propertyValue
          query.limit query.offset with
      | error e => exact .inr (.inl ⟨e, rfl, rfl⟩)
      | ok request =>
        cases resolved : ctx.subjectFor headers with
        | error e => exact .inr (.inl ⟨e, rfl, rfl⟩)
        | ok subject =>
          cases answered : s.getByFilterAs subject request with
          | error e => exact .inr (.inl ⟨e, by simp only [answered], rfl⟩)
          | ok response =>
            refine .inr (.inr (.inr ⟨subject, resolved, ?_⟩))
            simp only [answered]
            exact .page response (page_readable_all answered)
    | syncChanges headers since =>
      have looked : some (ctx.syncChanges s headers since, s) = some (response, next) := ran
      rw [Option.some.injEq, Prod.mk.injEq] at looked
      obtain ⟨rfl, rfl⟩ := looked
      unfold RouteContext.syncChanges
      cases resolved : ctx.subjectFor headers with
      | error e => exact .inr (.inl ⟨e, rfl, rfl⟩)
      | ok subject => exact .inr (.inr (.inr ⟨subject, resolved, .journal _ (sync_followed _)⟩))

omit [MarkupEscape] [Preorder Q] [DecidableLT Q] [UnicodeCase] in
theorem replicates_configured {answers : RemoteAnswers} {response : HttpResponse}
    {next : SecuredExchangeBroker} (replicates : Replicates ctx s answers response next) :
    ∃ pullUrl, ctx.state.federationPullUrl = some pullUrl := by
  obtain ⟨client, _, _, _, built, _⟩ := replicates
  unfold RouteContext.federationClient at built
  cases configured : ctx.state.federationPullUrl with
  | none =>
    rw [configured] at built
    cases built
  | some pullUrl => exact ⟨pullUrl, rfl⟩

/-- Where an identity is required, a request without one is refused and changes nothing, in any
state, unless it is a notice to a node that pulls; every other answer is made for the subject the
identity stands for. -/
theorem answered_only_identified (required : ctx.state.requireClientIdentity = true)
    {request : HttpRequest} {response : HttpResponse} {next : SecuredExchangeBroker}
    (ran : ctx.handle s request = some (response, next)) :
    request = .health ∨ (∃ e, response = mapError e ∧ next = s) ∨
      ((∃ pullUrl, ctx.state.federationPullUrl = some pullUrl) ∧ ∃ answers,
        request = .replicationNotify answers ∧ Replicates ctx s answers response next) ∨
      ¬ Anonymous request.headers ∧ ∃ subject, ctx.subjectFor request.headers = .ok subject ∧
        MadeFor ctx s subject request.headers response := by
  rcases answered_for ran with health | refused | ⟨answers, rfl, replicates⟩ | ⟨subject, resolved, made⟩
  · exact .inl health
  · exact .inr (.inl refused)
  · exact .inr (.inr (.inl ⟨replicates_configured replicates, answers, rfl, replicates⟩))
  · refine .inr (.inr (.inr ⟨fun anonymous => ?_, subject, resolved, made⟩))
    rw [anonymous_unresolved required anonymous] at resolved
    cases resolved

end Answers

section Fixtures

omit [MarkupEscape] [UnicodeCase] [Preorder Q] [DecidableLT Q]

def exchangeFixture (e : RestEnvelope) : RouteContext Nat where
  provider := echoProvider
  lib := { wireLibraries with
    prettyExchange := fun _ => ""
    prettyJsonLdExchange := fun _ => ""
    parseExchange := fun _ => .error "expected value"
    parseJsonLdExchange := fun _ => .error "expected value" }
  readEnvelope := fun _ => .ok e
  qualities := ⟨fun _ => none, 1⟩
  codec := codecFixture
  trustStore := ⟨[⟨"nmb", [3]⟩]⟩
  state := requiredFixture

def operator : SubjectAttributes := { subjectId := "gbr", clearance := .restricted }

def operatorHeaders (text : String) : HeaderMap :=
  insertText (principalHeaders "gbr") "X-NATO-Confidentiality-Label" (some text)

def unsaidHeaders : List String :=
  [headerAuthorization, headerMimVersion, "Content-Type", "X-MIM-Payload-Format", "Accept"]

theorem principal_said :
    (toAsciiLowercase headerMimClientPrincipal ≠ toAsciiLowercase "X-NATO-Confidentiality-Label" ∧
      (principalHeaders "gbr").text headerMimClientPrincipal = some "gbr") ∧
    (∀ name ∈ unsaidHeaders,
      toAsciiLowercase name ≠ toAsciiLowercase "X-NATO-Confidentiality-Label" ∧
        (principalHeaders "gbr").text name = none) ∧
    requiredFixture.subjectResolver.resolve "gbr" = .ok operator := by
  decide +kernel

theorem operatorHeaders_unsaid (text : String) {name : String} (unsaid : name ∈ unsaidHeaders) :
    (operatorHeaders text).text name = none := by
  obtain ⟨apart, none⟩ := principal_said.2.1 name unsaid
  exact (insertText_other _ _ _ _ apart).trans none

theorem operator_named (e : RestEnvelope) (text : String) :
    (exchangeFixture e).subjectFor (operatorHeaders text) = .ok operator := by
  have bearer : bearerAuthorization (operatorHeaders text) = none := by
    rw [bearerAuthorization, operatorHeaders_unsaid text (by simp [unsaidHeaders])]
    rfl
  have principal : (operatorHeaders text).text headerMimClientPrincipal = some "gbr" :=
    (insertText_other _ _ _ _ principal_said.1.1).trans principal_said.1.2
  have known := principal_said.2.2
  have required : (exchangeFixture e).state.requireClientIdentity = true := rfl
  rw [RouteContext.subjectFor, resolveSubject_required _ _ required]
  unfold resolveRequestSubject
  simp only [bearer, principal]
  exact congrArg asTransport known

theorem operator_version (text : String) : versionChecked (operatorHeaders text) = .ok () := by
  rw [versionChecked, operatorHeaders_unsaid text (by simp [unsaidHeaders])]
  rfl

theorem operator_get (e : RestEnvelope) (text : String) :
    (exchangeFixture e).getCall (operatorHeaders text) "a" = .ok ⟨operator, .get ⟨⟨"a"⟩⟩⟩ := by
  have path : parseGetByOid (objectPath "a") = .ok ⟨⟨"a"⟩⟩ :=
    (parseGetByOid_ok_iff _ (by decide +kernel)).mpr (by decide +kernel)
  unfold RouteContext.getCall
  rw [operator_version, path, operator_named]
  rfl

theorem operator_permitted : letI := asciiCase
    (securedFixture.authorize operator (wireInstance "a" {}) .write).isOk = true ∧
      (securedFixture.authorize operator (wireInstance "a" {}) .read).isOk = true := by
  decide +kernel

theorem operator_put : letI := entityEscape
    ∃ e text, (exchangeFixture e).putCall (operatorHeaders text) "" =
      .ok ⟨operator, .put ⟨wireInstance "a" {}⟩⟩ := by
  let : MarkupEscape := entityEscape
  have policy : SpifRegistry.withDefaults.validateLabel (.new .nato .unclassified) = .ok () :=
    nato_accepts .unclassified (by decide) [] (by decide)
  obtain ⟨e, a, _, assertion, payload, shown, keyId, _, unwrapped⟩ := wrap_unwrap
    (echoProvider_paired ⟨"nmb", [3]⟩ ⟨"nmb", [3]⟩ rfl rfl) policy .xml (wireXml_written {})
    wireXml_read
  have visible : ∀ c ∈ (xmlSerialize (.new .nato .unclassified)).toList, Visible c := by
    have checked : (renderEvents (labelEvents (.new .nato .unclassified))).all
        (fun c => 32 ≤ c.toNat ∧ c.toNat < 127) = true := by
      decide +kernel
    rw [xmlSerialize, String.toList_ofList]
    simpa [Visible] using checked
  refine ⟨e, xmlSerialize (.new .nato .unclassified), ?_⟩
  have header : (operatorHeaders (xmlSerialize (.new .nato .unclassified))).text
      "X-NATO-Confidentiality-Label" = some e.originatorConfidentialityLabel := by
    rw [shown]
    exact insertText_same _ _ _ visible
  have format : payloadFormat (operatorHeaders (xmlSerialize (.new .nato .unclassified))) e =
      .xml := by
    have noType : (operatorHeaders (xmlSerialize (.new .nato .unclassified))).text "Content-Type" =
        none := operatorHeaders_unsaid _ (by simp [unsaidHeaders])
    have noFormat : (operatorHeaders (xmlSerialize (.new .nato .unclassified))).text
        "X-MIM-Payload-Format" = none := operatorHeaders_unsaid _ (by simp [unsaidHeaders])
    rw [payloadFormat, noType, noFormat, Option.bind_none, Option.or_none, Option.getD_none,
      payload]
    exact detect_written_xml (wireXml_written {})
  have found : namedKey ⟨[⟨"nmb", [3]⟩]⟩ e = .ok ⟨"nmb", [3]⟩ := by
    unfold namedKey
    rw [assertion]
    simp only [keyId]
    rfl
  have admitted := admitPut_ok_iff.mpr
    ⟨_, ⟨found, header, operator_named e _⟩, by rw [format]; exact unwrapped⟩
  exact bind_ok.mpr ⟨(), operator_version _, bind_ok.mpr ⟨e, rfl, bind_ok.mpr ⟨_, admitted, rfl⟩⟩⟩

def putAnswer : HttpResponse := negotiatedResponse .json 201 (.put ⟨⟨"a"⟩, true⟩)

def oneUnlabelled : SecuredExchangeBroker :=
  securedFixture.withInner (securedFixture.inner.commitPut (wireInstance "a" {}))

theorem put_handled [MarkupEscape] [UnicodeCase] {e : RestEnvelope} {text : String}
    (admitted : (exchangeFixture e).putCall (operatorHeaders text) "" =
      .ok ⟨operator, .put ⟨wireInstance "a" {}⟩⟩)
    (permitted : (securedFixture.authorize operator (wireInstance "a" {}) .write).isOk = true) :
    (exchangeFixture e).handle securedFixture (.putObject (operatorHeaders text) "") =
      some (putAnswer, oneUnlabelled) := by
  have called : securedFixture.answerCall ⟨operator, .put ⟨wireInstance "a" {}⟩⟩ =
      some (.put (.ok ⟨⟨"a"⟩, true⟩), oneUnlabelled) :=
    answerCall_put permitted (wireInstance_accepted "a" {} (by decide))
  have concerned : (exchangeFixture e).objectCall (.putObject (operatorHeaders text) "") =
      some (.ok ⟨operator, .put ⟨wireInstance "a" {}⟩⟩) := congrArg some admitted
  rw [handle_answered concerned, RouteContext.answered]
  simp only [called, Option.map_some]
  rfl

theorem put_served : letI := entityEscape
    letI := asciiCase
    ∃ e text, serve (exchangeFixture e).handle securedFixture
        [.putObject (operatorHeaders text) ""] = some ([putAnswer], oneUnlabelled) ∧
      (exchangeFixture e).callOf (.putObject (operatorHeaders text) "") =
        some ⟨operator, .put ⟨wireInstance "a" {}⟩⟩ := by
  let : MarkupEscape := entityEscape
  let : UnicodeCase := asciiCase
  obtain ⟨e, text, admitted⟩ := operator_put
  have handled := put_handled admitted operator_permitted.1
  refine ⟨e, text, serve_cons.mpr ⟨_, _, _, handled, rfl, rfl⟩, ?_⟩
  rw [RouteContext.callOf, RouteContext.objectCall, admitted]
  rfl

theorem read_after_history_fixture : letI := entityEscape
    letI := asciiCase
    ∃ e text response, (exchangeFixture e).handle oneUnlabelled
        (.getByOid (operatorHeaders text) "a") = some (response, oneUnlabelled) ∧
      response.status = 200 ∧ response.body = .found ⟨wireInstance "a" {}⟩ := by
  let : MarkupEscape := entityEscape
  let : UnicodeCase := asciiCase
  obtain ⟨e, text, ran, comes⟩ := put_served
  have own : ∀ p ∈ [HttpRequest.putObject (operatorHeaders text) ""].zip [putAnswer],
      ¬ Replicated p := by
    rintro p member ⟨⟨answers, notice⟩, _⟩
    rw [List.mem_singleton.mp member] at notice
    cases notice
  have read := read_after_history rfl ran own (operator_get e text)
  have last : (exchangeFixture e).lastWrite ⟨"a"⟩
      ([.putObject (operatorHeaders text) ""].zip [putAnswer]) =
        some (.content (wireInstance "a" {})) := by
    have seen : (exchangeFixture e).acknowledged ⟨"a"⟩
        (.putObject (operatorHeaders text) "", putAnswer) = some (.content (wireInstance "a" {})) := by
      rw [RouteContext.acknowledged, comes]
      rfl
    rw [RouteContext.lastWrite, List.zip_cons_cons, List.filterMap_cons, seen]
    rfl
  have permitted : (securedFixture.authorize operator (wireInstance "a" {}) .read).isOk = true :=
    operator_permitted.2
  have format : (exchangeFixture e).negotiatedFormat (operatorHeaders text) = .json := by
    rw [RouteContext.negotiatedFormat, operatorHeaders_unsaid text (by simp [unsaidHeaders])]
    rfl
  obtain ⟨decision, granted⟩ := isOk_iff.mp permitted
  rw [last] at read
  simp only [granted, format] at read
  exact ⟨e, text, _, read, rfl, rfl⟩

theorem acknowledged_suffice_fixture : letI := entityEscape
    letI := asciiCase
    ∃ e text, (∃ responses, serve (exchangeFixture e).handle securedFixture
        [.replicationNotify ⟨fun _ => .error (.validation "sync GET failed"), []⟩,
          .putObject (operatorHeaders text) "", .health] = some (responses, oneUnlabelled)) ∧
      serve (exchangeFixture e).handle securedFixture [.putObject (operatorHeaders text) ""] =
        some ([putAnswer], oneUnlabelled) := by
  let : MarkupEscape := entityEscape
  let : UnicodeCase := asciiCase
  obtain ⟨e, text, admitted⟩ := operator_put
  have handled := put_handled admitted operator_permitted.1
  have ran : serve (exchangeFixture e).handle securedFixture
      [.replicationNotify ⟨fun _ => .error (.validation "sync GET failed"), []⟩,
        .putObject (operatorHeaders text) "", .health] = some (_, oneUnlabelled) :=
    serve_cons.mpr ⟨_, _, _, rfl, serve_cons.mpr ⟨_, _, _, handled,
      serve_cons.mpr ⟨_, _, _, rfl, rfl, rfl⟩, rfl⟩, rfl⟩
  exact ⟨e, text, ⟨_, ran⟩, acknowledged_suffice ran⟩

theorem answered_only_identified_fixture : letI := entityEscape
    letI := asciiCase
    ∃ e text, ¬ Anonymous (operatorHeaders text) ∧ ∃ subject,
      (exchangeFixture e).subjectFor (operatorHeaders text) = .ok subject ∧
        MadeFor (exchangeFixture e) securedFixture subject (operatorHeaders text) putAnswer := by
  let : MarkupEscape := entityEscape
  let : UnicodeCase := asciiCase
  obtain ⟨e, text, admitted⟩ := operator_put
  have handled := put_handled admitted operator_permitted.1
  rcases answered_only_identified rfl handled with
    health | ⟨refusal, refused, _⟩ | ⟨_, _, notice, _⟩ | identified
  · cases health
  · have status := congrArg HttpResponse.status refused
    have := errorStatus_refuses refusal
    have same : putAnswer.status = 201 := rfl
    rw [same] at status
    simp only [mapError] at status
    omega
  · cases notice
  · exact ⟨e, text, identified⟩

end Fixtures

end MimHttp.Routes
