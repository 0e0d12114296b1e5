import MimStack.Http.Disclosure
import MimStack.Http.FederationClient

/-!
Federations over HTTP. What a pull leaves behind depends on the answers of the publisher
but not on the texts of its errors, so a run of writes and HTTP pulls passes through the
same states as one in which the subscriber sees the publisher's broker itself.
-/
namespace MimHttp.Routes
open RustText ByteText PercentText Fallible MarkupText StepRuns KeyedLog MimCore MimRuntime MimPolicy
open MimStanag
open MimTransport ExchangeBroker SecuredExchangeBroker

section Erased

variable {A S : Type}

def erased (ran : Option (Except TransportError A × S)) : Option (Option A × S) :=
  ran.map fun r => (r.1.toOption, r.2)

theorem erased_cases {one other : Option (Except TransportError A × S)}
    (same : erased one = erased other) :
    (one = none ∧ other = none) ∨
      (∃ a s, one = some (.ok a, s) ∧ other = some (.ok a, s)) ∨
      ∃ e e' s, one = some (.error e, s) ∧ other = some (.error e', s) := by
  cases one with
  | none =>
    cases other with
    | none => exact .inl ⟨rfl, rfl⟩
    | some r => cases same
  | some r =>
    cases other with
    | none => cases same
    | some r' =>
      obtain ⟨result, s⟩ := r
      obtain ⟨result', s'⟩ := r'
      simp only [erased, Option.map_some, Option.some.injEq, Prod.mk.injEq] at same
      obtain ⟨results, rfl⟩ := same
      cases result with
      | error e =>
        cases result' with
        | error e' => exact .inr (.inr ⟨e, e', s, rfl, rfl⟩)
        | ok a => cases results
      | ok a =>
        cases result' with
        | error e' => cases results
        | ok a' =>
          obtain rfl := Option.some.inj results
          exact .inr (.inl ⟨a, s, rfl, rfl⟩)

variable {W : Type}

theorem replay_erased (body other : EntryBody W) {entries : List JournalEntry} {kind : W → Prop}
    (kept : ∀ entry consumer w result after w', kind w →
      other entry consumer w = some (result, after, w') → kind w')
    (same : ∀ entry ∈ entries, ∀ consumer w, kind w →
      erased (body entry consumer w) = erased (other entry consumer w))
    (applied skipped : Nat) (consumer : ExchangeBroker) {w : W} (begun : kind w) :
    erased (replayEntries body entries applied skipped consumer w) =
      erased (replayEntries other entries applied skipped consumer w) := by
  induction entries generalizing applied skipped consumer w with
  | nil => rfl
  | cons entry rest ih =>
    have later := ih fun e member => same e (List.mem_cons_of_mem entry member)
    rw [replayEntries, replayEntries]
    split
    · exact later applied (skipped + 1) consumer begun
    · rcases erased_cases (same entry List.mem_cons_self consumer w begun) with
        ⟨one, two⟩ | ⟨_, ⟨after, w'⟩, one, two⟩ | ⟨e, e', ⟨after, w'⟩, one, two⟩
      · rw [one, two]
      · rw [one, two]
        exact later (applied + 1) skipped after (kept entry consumer w _ after w' begun two)
      · rw [one, two]
        rfl

theorem applyFetched_erased {one other : FederationPublisher W} {entry : JournalEntry}
    {w : W} (same : entry.operation = .putObject →
      erased (one.fetchInstance entry.oid w) = erased (other.fetchInstance entry.oid w))
    (consumer : ExchangeBroker) :
    erased (applyFetched one entry consumer w) = erased (applyFetched other entry consumer w) := by
  unfold applyFetched
  split
  · rename_i put
    rcases erased_cases (same put) with ⟨fetched, seen⟩ | ⟨i, w', fetched, seen⟩ |
      ⟨e, e', w', fetched, seen⟩
    · rw [fetched, seen]
    · rw [fetched, seen]
    · rw [fetched, seen]
      rfl
  · rfl

theorem pull_erased {one other : FederationPublisher W} {since : Nat} {w w' : W}
    {sync : SyncResponse} {kind : W → Prop} (begun : kind w')
    (kept : ∀ entry consumer w result after w', kind w →
      applyFetched other entry consumer w = some (result, after, w') → kind w') (fetched : one.fetchSync since w = some (.ok sync, w'))
    (seen : other.fetchSync since w = some (.ok sync, w'))
    (same : ∀ entry ∈ sync.entries, entry.operation = .putObject → ∀ v, kind v →
      erased (one.fetchInstance entry.oid v) = erased (other.fetchInstance entry.oid v))
    (consumer : ExchangeBroker) :
    erased (pullAndApplyRemote one consumer since w) =
      erased (pullAndApplyRemote other consumer since w) := by
  have loop := replay_erased (applyFetched one) (applyFetched other) kept
    (fun entry member consumer v held =>
      applyFetched_erased (fun put => same entry member put v held) consumer) 0 0 consumer begun
  unfold pullAndApplyRemote
  rw [fetched, seen]
  rcases erased_cases loop with ⟨a, b⟩ | ⟨counts, ⟨after, v⟩, a, b⟩ | ⟨e, e', ⟨after, v⟩, a, b⟩
  · simp only [a, b]
  · simp only [a, b]
  · simp only [a, b]
    rfl

end Erased

section Kept

variable (reading : BodyReading)

def WritesFetchable : SecuredStep → Prop
  | .put _ request => Fetchable reading request.inst
  | .delete _ _ => True

def StepFetchable : FederationStep → Prop
  | .write step => WritesFetchable reading step
  | .pull events => ∀ event ∈ events, ∀ step ∈ event.writes, WritesFetchable reading step

structure Addressed (b : ExchangeBroker) : Prop where
  bound : ∀ e ∈ b.journal, e.sequence ≤ u64Max
  reachable : ∀ e ∈ b.journal, e.operation = .putObject → Reachable e.oid
  stored : ∀ oid i, b.store.get oid = some i → reading.ReadsBack i

variable {reading} [UnicodeCase] {subject : SubjectAttributes}

omit [UnicodeCase] in
theorem addressed_snoc {b after : ExchangeBroker} {operation : IesOperation}
    {oid : ObjectIdentifier} (addressed : Addressed reading b)
    (journal : after.journal = b.journal ++ [⟨saturatingAdd b.sequence 1, operation, oid⟩])
    (reachable : operation = .putObject → Reachable oid)
    (stored : ∀ oid i, after.store.get oid = some i → reading.ReadsBack i) :
    Addressed reading after := by
  have cases : ∀ e ∈ after.journal, e ∈ b.journal ∨
      e = ⟨saturatingAdd b.sequence 1, operation, oid⟩ := fun e member => by
    rwa [journal, List.mem_append, List.mem_singleton] at member
  refine ⟨fun e member => ?_, fun e member => ?_, stored⟩
  · rcases cases e member with before | rfl
    · exact addressed.bound e before
    · exact Nat.min_le_right _ _
  · rcases cases e member with before | rfl
    · exact addressed.reachable e before
    · exact reachable

theorem securedStep_addressed {s next : SecuredExchangeBroker} {step : SecuredStep}
    (addressed : Addressed reading s.inner) (fetchable : WritesFetchable reading step)
    (taken : securedStep s step = some next) : Addressed reading next.inner := by
  cases step with
  | put subject request =>
    obtain ⟨⟨result, after⟩, ran, rfl⟩ := Option.map_eq_some_iff.mp taken
    rcases putObjectAs_cases s subject request result after ran with
      ⟨_, rfl, _⟩ | ⟨_, _, _, rfl⟩
    · exact addressed
    · refine addressed_snoc addressed rfl (fun _ => fetchable.reachable) fun oid i held => ?_
      change (s.inner.commitPut request.inst).store.get oid = some i at held
      rw [commitPut_store, InstanceStore.get_insert] at held
      split at held
      · obtain rfl := Option.some.inj held
        exact fetchable.reads
      · exact addressed.stored oid i held
  | delete subject request =>
    obtain rfl := Option.some.inj taken
    rcases deleteObjectAs_cases s subject request with ⟨e, ran⟩ | ⟨response, stored, ran⟩
    · rw [ran]
      exact addressed
    · rw [ran]
      refine addressed_snoc addressed rfl (fun put => ?_) addressed.stored
      cases put

theorem writes_addressed {s next : SecuredExchangeBroker} {writes : List SecuredStep}
    (addressed : Addressed reading s.inner) (fetchable : ∀ step ∈ writes, WritesFetchable reading step)
    (ran : run securedStep s writes = some next) : Addressed reading next.inner := by
  induction writes generalizing s with
  | nil =>
    obtain rfl := Option.some.inj ran
    exact addressed
  | cons step rest ih =>
    rw [StepRuns.run_cons, Option.bind_eq_some_iff] at ran
    obtain ⟨mid, taken, later⟩ := ran
    exact ih (securedStep_addressed addressed (fetchable step List.mem_cons_self) taken)
      (fun other member => fetchable other (List.mem_cons_of_mem step member)) later

structure Steady (reading : BodyReading) (w : RacingPublisher) : Prop where
  addressed : Addressed reading w.broker.inner
  upcoming : ∀ event ∈ w.upcoming, ∀ step ∈ event.writes, WritesFetchable reading step

theorem Steady.written {w : RacingPublisher} {broker : SecuredExchangeBroker}
    (steady : Steady reading w)
    (written : run securedStep w.broker (w.upcoming.headD {}).writes = some broker) :
    Steady reading ⟨broker, w.upcoming.tail⟩ := by
  obtain ⟨addressed, upcoming⟩ := steady
  cases events : w.upcoming with
  | nil =>
    rw [events] at written
    obtain rfl := Option.some.inj written
    exact ⟨addressed, fun event none => absurd none List.not_mem_nil⟩
  | cons event rest =>
    rw [events] at written upcoming
    exact ⟨writes_addressed addressed (upcoming event List.mem_cons_self) written,
      fun other member => upcoming other (List.mem_cons_of_mem event member)⟩

theorem fetchInstance_steady {w w' : RacingPublisher} {oid : ObjectIdentifier}
    {result : Except TransportError MimInstance} (steady : Steady reading w)
    (ran : (subjectView subject).fetchInstance oid w = some (result, w')) : Steady reading w' := by
  obtain ⟨broker, written, same⟩ := Option.map_eq_some_iff.mp ran
  obtain ⟨_, rfl⟩ := Prod.mk.inj same
  exact steady.written written

theorem applyFetched_steady {entry : JournalEntry} {consumer after : ExchangeBroker}
    {w w' : RacingPublisher} {result : Except TransportError Unit} (steady : Steady reading w)
    (ran : applyFetched (subjectView subject) entry consumer w = some (result, after, w')) :
    Steady reading w' ∧ (after.appliedSequence = consumer.appliedSequence ∨
      after.appliedSequence = entry.sequence) := by
  unfold applyFetched at ran
  split at ran
  · cases fetched : (subjectView subject).fetchInstance entry.oid w with
    | none =>
      rw [fetched] at ran
      cases ran
    | some answered =>
      obtain ⟨found, v⟩ := answered
      have kept := fetchInstance_steady steady fetched
      rw [fetched] at ran
      cases found with
      | error e =>
        obtain ⟨rfl, rfl, rfl⟩ : _ ∧ _ ∧ _ := by simpa using ran
        exact ⟨kept, .inl rfl⟩
      | ok i =>
        obtain ⟨⟨r, b⟩, applied, same⟩ := Option.map_eq_some_iff.mp ran
        simp only [Prod.mk.injEq] at same
        obtain ⟨rfl, rfl, rfl⟩ := same
        exact ⟨kept, entry_cursor (applyRemoteEntry_applied applied)⟩
  · obtain ⟨⟨r, b⟩, applied, same⟩ := Option.map_eq_some_iff.mp ran
    simp only [Prod.mk.injEq] at same
    obtain ⟨rfl, rfl, rfl⟩ := same
    exact ⟨steady, entry_cursor (applyRemoteEntry_applied applied)⟩

theorem pull_steady {consumer after : ExchangeBroker} {since : Nat} {w w' : RacingPublisher}
    {result : Except TransportError ReplicationApplyReport} (steady : Steady reading w)
    (bound : consumer.appliedSequence ≤ u64Max)
    (ran : pullAndApplyRemote (subjectView subject) consumer since w = some (result, after, w')) :
    Steady reading w' ∧ after.appliedSequence ≤ u64Max := by
  obtain ⟨⟨counts, b, v⟩, replayed, same⟩ := Option.map_eq_some_iff.mp ran
  simp only [Prod.mk.injEq] at same
  obtain ⟨_, rfl, rfl⟩ := same
  have numbered : ∀ entry ∈ (w.broker.syncSinceAs subject since).entries,
      entry.sequence ≤ u64Max := fun entry listed =>
    steady.addressed.bound entry (List.mem_filter.mp (List.mem_filter.mp listed).1).1
  have turn : ∀ entry rest c v result after v', Steady reading v ∧ c.appliedSequence ≤ u64Max ∧
      (∀ e ∈ entry :: rest, e.sequence ≤ u64Max) →
      applyFetched (subjectView subject) entry c v = some (result, after, v') →
      Steady reading v' ∧ after.appliedSequence ≤ u64Max ∧ ∀ e ∈ rest, e.sequence ≤ u64Max := by
    intro entry rest c v result after v' inv taken
    obtain ⟨kept, cursor⟩ := applyFetched_steady inv.1 taken
    refine ⟨kept, ?_, fun e member => inv.2.2 e (List.mem_cons_of_mem entry member)⟩
    rcases cursor with same | moved
    · exact same ▸ inv.2.1
    · exact moved ▸ inv.2.2 entry List.mem_cons_self
  have kept := replayEntries_invariant (applyFetched (subjectView subject))
    (fun rest c v => Steady reading v ∧ c.appliedSequence ≤ u64Max ∧ ∀ e ∈ rest, e.sequence ≤ u64Max)
    (fun entry rest c v inv _ =>
      ⟨inv.1, inv.2.1, fun e member => inv.2.2 e (List.mem_cons_of_mem entry member)⟩)
    (fun c v => Steady reading v ∧ c.appliedSequence ≤ u64Max)
    (fun entry rest c v after v' inv _ taken => turn entry rest c v _ after v' inv taken)
    (fun entry rest c v e after v' inv _ taken =>
      have kept := turn entry rest c v _ after v' inv taken
      ⟨kept.1, kept.2.1⟩)
    _ 0 0 consumer w _ _ _ ⟨steady, bound, numbered⟩ replayed
  rcases kept with ⟨_, _, kept, fits, _⟩ | ⟨_, _, kept, fits⟩
  · exact ⟨kept, fits⟩
  · exact ⟨kept, fits⟩

/-- What a run keeps that puts only objects that can be fetched. -/
structure Linked (reading : BodyReading) (f : Federation) : Prop where
  addressed : Addressed reading f.publisher.inner
  bound : f.consumer.appliedSequence ≤ u64Max

theorem federationStep_linked {f next : Federation} {step : FederationStep}
    (linked : Linked reading f) (fetchable : StepFetchable reading step)
    (taken : federationStep subject f step = some next) : Linked reading next := by
  cases step with
  | write step =>
    obtain ⟨p, written, rfl⟩ := Option.map_eq_some_iff.mp taken
    exact ⟨securedStep_addressed linked.addressed fetchable written, linked.bound⟩
  | pull events =>
    obtain ⟨⟨result, consumer, w⟩, ran, rfl⟩ := Option.map_eq_some_iff.mp taken
    obtain ⟨steady, bound⟩ :=
      pull_steady (w := ⟨f.publisher, events⟩) ⟨linked.addressed, fetchable⟩ linked.bound ran
    exact ⟨steady.addressed, bound⟩

end Kept

section Pulls

variable {Q : Type} [MarkupEscape] [Preorder Q] [DecidableLT Q] [UnicodeCase] {site : HttpSite Q}
variable {c : HttpFederationClient} {cn : String} {subject : SubjectAttributes}
variable {reading : BodyReading} (link : Connected site cn subject c)
include link

theorem fetchSync_seen (faithful : reading.Faithful) {since : Nat} (bound : since ≤ u64Max) (w : RacingPublisher) :
    (c.publisher reading site.get).fetchSync since w = (subjectView subject).fetchSync since w := by
  have success : isSuccess 200 = true := rfl
  simp only [HttpFederationClient.publisher, get_sync link bound w, Option.map_some,
    HttpFederationClient.readSyncAnswer, success, if_true, faithful _]
  rfl

theorem fetchInstance_seen {oid : ObjectIdentifier} (reachable : Reachable oid)
    {w : RacingPublisher} (steady : Steady reading w) :
    erased ((c.publisher reading site.get).fetchInstance oid w) =
      erased ((subjectView subject).fetchInstance oid w) := by
  have success : isSuccess 200 = true := rfl
  simp only [HttpFederationClient.publisher, subjectView, get_object link reachable w, erased,
    Option.map_map]
  cases written : run securedStep w.broker (w.upcoming.headD {}).writes with
  | none => rfl
  | some broker =>
    have stored := (steady.written written).addressed.stored
    simp only [Option.map_some, Function.comp_apply, answerFetch, Option.some.injEq, Prod.mk.injEq,
      and_true]
    cases (w.upcoming.headD {}).failure with
    | some e => rfl
    | none =>
      cases got : broker.getByOidAs subject ⟨oid⟩ with
      | error e =>
        have refused : isSuccess (errorStatus e) = false := by
          have := errorStatus_refuses e
          simp only [isSuccess, Bool.and_eq_false_iff, decide_eq_false_iff_not]
          omega
        simp only [HttpFederationClient.readInstanceAnswer, refused]
        rfl
      | ok response =>
        have held := ((getByOidAs_ok_iff broker subject oid response).mp got).2.1
        have read : reading.readObject (.found response) = .ok response := stored oid _ held
        simp only [HttpFederationClient.readInstanceAnswer, success, if_true, read]
        rfl

/-- Whether it gets through or not, a pull over HTTP leaves what a pull from the publisher's
broker leaves. -/
theorem http_pull_erased (faithful : reading.Faithful) {since : Nat} (bound : since ≤ u64Max) {w : RacingPublisher}
    (steady : Steady reading w) (consumer : ExchangeBroker) :
    erased (pullAndApplyRemote (c.publisher reading site.get) consumer since w) =
      erased (pullAndApplyRemote (subjectView subject) consumer since w) := by
  have seen : (subjectView subject).fetchSync since w =
      some (.ok (w.broker.syncSinceAs subject since), w) := rfl
  refine pull_erased steady
    (fun entry consumer v result after v' held ran => (applyFetched_steady held ran).1)
    ((fetchSync_seen link faithful bound w).trans seen) seen ?_ consumer
  intro entry listed put v held
  refine fetchInstance_seen link (steady.addressed.reachable entry ?_ put) held
  exact (List.mem_filter.mp (List.mem_filter.mp listed).1).1

end Pulls

section Runs

variable {Q : Type} [MarkupEscape] [Preorder Q] [DecidableLT Q] [UnicodeCase] {site : HttpSite Q}
variable {c : HttpFederationClient} {cn : String} {subject : SubjectAttributes}
variable {reading : BodyReading}

/-- A federation whose subscriber pulls over HTTP. -/
def httpFederationStep (site : HttpSite Q) (reading : BodyReading) (c : HttpFederationClient)
    (f : Federation) : FederationStep → Option Federation
  | .write step => (securedStep f.publisher step).map fun p => { f with publisher := p }
  | .pull events =>
    (pullAndApplyRemote (c.publisher reading site.get) f.consumer f.consumer.lastAppliedSequence
      ⟨f.publisher, events⟩).map fun r => ⟨r.2.2.broker, r.2.1⟩

theorem httpFederationStep_eq (link : Connected site cn subject c) (faithful : reading.Faithful)
    {f : Federation} (linked : Linked reading f) {step : FederationStep}
    (fetchable : StepFetchable reading step) :
    httpFederationStep site reading c f step = federationStep subject f step := by
  cases step with
  | write step => rfl
  | pull events =>
    have alike := http_pull_erased link faithful linked.bound
      (w := ⟨f.publisher, events⟩) ⟨linked.addressed, fetchable⟩ f.consumer
    have states := congrArg (Option.map fun r => (⟨r.2.2.broker, r.2.1⟩ : Federation)) alike
    simp only [erased, Option.map_map] at states
    exact states

/-- Whatever the writers and the network do, a federation over HTTP goes through the same states
as one whose subscriber sees the publisher's broker as the subject it is served for. -/
theorem http_federation_refines (link : Connected site cn subject c)
    (faithful : reading.Faithful) {f : Federation} (linked : Linked reading f)
    {steps : List FederationStep} (fetchable : ∀ step ∈ steps, StepFetchable reading step) :
    run (httpFederationStep site reading c) f steps = run (federationStep subject) f steps := by
  induction steps generalizing f with
  | nil => rfl
  | cons step rest ih =>
    have own := fetchable step List.mem_cons_self
    rw [StepRuns.run_cons, StepRuns.run_cons, httpFederationStep_eq link faithful linked own]
    cases taken : federationStep subject f step with
    | none => rfl
    | some next =>
      exact ih (federationStep_linked linked own taken)
        fun other member => fetchable other (List.mem_cons_of_mem step member)

end Runs

section Fixtures

def routerFixture : Router where
  extract := decodingExtract
  sinceQuery := fun query =>
    if query = "" then some none
    else (stripPrefix "since=" query).map fun digits => some (Nat.ofDigitChars 10 digits.toList 0)
  filterQuery := fun _ => none

theorem routerFixture_sound : routerFixture.Sound where
  segment := decodingExtract_once
  unqueried := rfl
  since := by
    intro n _
    have filled : "since=" ++ Nat.repr n ≠ "" := by
      intro empty
      have chars := congrArg String.toList empty
      rw [String.toList_append] at chars
      cases chars
    simp only [routerFixture, filled, if_false, (stripPrefix_some_iff _ _ _).mpr rfl,
      Option.map_some, Nat.toList_repr, Nat.ofDigitChars_toDigits (by decide : 1 < 10) le_rfl]

def readingFixture : BodyReading where
  readSync
    | .journal response => .ok response
    | _ => .error "missing field"
  readObject
    | .found response => .ok response
    | _ => .error "missing field"
  statusText := Nat.repr

def hub (e : RestEnvelope) : HttpSite Nat := ⟨"https://hub", routerFixture, exchangeFixture e, none⟩

def gbrName : HeaderValue := ⟨utf8 "gbr"⟩

def gbrClient : HttpFederationClient :=
  ⟨"https://hub/mip4-ies/v1/sync", "https://hub/mip4-ies/v1/objects",
    HeaderMap.insert ⟨[]⟩ headerMimClientCn gbrName⟩

theorem gbrClient_connected (e : RestEnvelope) [UnicodeCase] [MarkupEscape] :
    Connected (hub e) "gbr" operator gbrClient where
  connected := by
    have name : HeaderValue.fromStr "gbr" = some gbrName := by decide
    change connect "https://hub" "gbr" = .ok gbrClient
    unfold connect HttpFederationClient.new
    rw [deriveObjectsBaseUrl_sync]
    change HttpFederationClient.withClientCn ⟨"https://hub" ++ "/mip4-ies/v1/sync",
      "https://hub" ++ "/mip4-ies/v1/objects", ⟨[]⟩⟩ "gbr" = .ok gbrClient
    unfold HttpFederationClient.withClientCn
    rw [name]
    rfl
  sound := routerFixture_sound
  served := by
    have arrived : (hub e).arrived gbrClient.identityHeaders =
        withAccept gbrClient.identityHeaders := rfl
    have bearer : bearerAuthorization (withAccept gbrClient.identityHeaders) = none := by
      decide +kernel
    have principal : (withAccept gbrClient.identityHeaders).text headerMimClientPrincipal =
        none := by
      decide +kernel
    have fingerprint : (withAccept gbrClient.identityHeaders).text headerMimClientCertSha256 =
        none := by
      decide +kernel
    have named : (withAccept gbrClient.identityHeaders).text headerMimClientCn = some "gbr" := by
      decide +kernel
    have known : requiredFixture.subjectResolver.resolve "gbr" = .ok operator := by decide +kernel
    have required : (exchangeFixture e).state.requireClientIdentity = true := rfl
    rw [arrived]
    change (exchangeFixture e).subjectFor _ = _
    rw [RouteContext.subjectFor, resolveSubject_required _ _ required]
    unfold resolveRequestSubject
    simp only [bearer, principal, fingerprint, named]
    exact congrArg asTransport known

theorem readingFixture_faithful : readingFixture.Faithful := fun _ => rfl

def hubSteps : List FederationStep := [
  .write (.put secretSubject ⟨classified "a" "RESTRICTED"⟩),
  .pull [{ writes := [.put secretSubject ⟨classified "b" "SECRET"⟩] }],
  .pull []]

theorem hubSteps_fetchable : ∀ step ∈ hubSteps, StepFetchable readingFixture step := by
  have named : ∀ oid : ObjectIdentifier, ObjectIdentifier.new oid.text = .ok oid →
      (oid.text ≠ "." ∧ oid.text ≠ "..") → escaped (utf8 oid.text) = false → '?' ∉ oid.text.toList →
      (∀ c ∈ oid.text.toList.getLast?, c ≠ '/' ∧ isWhitespace c = false) → Reachable oid := by
    intro oid accepted undotted plain unqueried closed
    refine ⟨accepted, undotted, fun found => ?_, unqueried, closed⟩
    rw [plain] at found
    cases found
  have closed : ∀ (c : Char) {ends : Option Char}, ends = some c → (c ≠ '/' ∧ isWhitespace c = false) →
      ∀ d ∈ ends, d ≠ '/' ∧ isWhitespace d = false := by
    intro c ends last visible d member
    obtain rfl := Option.some.inj (last.symm.trans member)
    exact visible
  have a : Reachable ⟨"a"⟩ :=
    named _ (by decide) (by decide) (by decide +kernel) (by decide) (closed _ rfl (by decide))
  have b : Reachable ⟨"b"⟩ :=
    named _ (by decide) (by decide) (by decide +kernel) (by decide) (closed _ rfl (by decide))
  intro step member
  simp only [hubSteps, List.mem_cons, List.not_mem_nil, or_false] at member
  rcases member with rfl | rfl | rfl
  · exact ⟨a, rfl⟩
  · intro event listed write written
    obtain rfl := List.mem_singleton.mp listed
    obtain rfl := List.mem_singleton.mp written
    exact ⟨b, rfl⟩
  · intro event listed
    cases listed

theorem http_federation_refines_fixture : ∃ (_ : UnicodeCase) (_ : MarkupEscape) (e : RestEnvelope),
    run (httpFederationStep (hub e) readingFixture gbrClient)
        ⟨securedFixture, .new wireRegistry⟩ hubSteps =
      run (federationStep operator) ⟨securedFixture, .new wireRegistry⟩ hubSteps := by
  let : UnicodeCase := asciiCase
  let : MarkupEscape := entityEscape
  have linked : Linked readingFixture ⟨securedFixture, .new wireRegistry⟩ :=
    ⟨⟨fun e member => absurd member List.not_mem_nil, fun e member => absurd member List.not_mem_nil,
      fun oid i held => nomatch held⟩, Nat.zero_le _⟩
  obtain ⟨e, _⟩ := operator_put
  exact ⟨asciiCase, entityEscape, e, http_federation_refines (gbrClient_connected e)
    readingFixture_faithful linked hubSteps_fetchable⟩

end Fixtures

end MimHttp.Routes
