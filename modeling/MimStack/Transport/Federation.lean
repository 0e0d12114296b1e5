import MimStack.Transport.Secured

/-!
Remote federation under races. A subscriber pulls a journal that the publisher
filters by what the subscriber may read at that moment, then fetches the
instances one by one while writers go on. The filter looks at present labels and
present instances, so an entry may be missing from one pull and needed later; a
pull that fails keeps the prefix it applied.
-/
namespace MimTransport
open RustText KeyedLog StepRuns MimCore MimModel MimRuntime MimRuntime.InstanceStore MimLabeling
open MimPolicy ExchangeBroker SecuredExchangeBroker

variable [UnicodeCase]

/-- What happens at the publisher before one fetch is answered: writers' operations, then
possibly a failure of the call itself. -/
structure FetchEvent where
  writes : List SecuredStep := []
  failure : Option TransportError := none

structure RacingPublisher where
  broker : SecuredExchangeBroker
  upcoming : List FetchEvent

def answerFetch (broker : SecuredExchangeBroker) (subject : SubjectAttributes)
    (oid : ObjectIdentifier) (failure : Option TransportError) :
    Except TransportError MimInstance :=
  match failure with
  | some e => .error e
  | none =>
    match broker.getByOidAs subject ⟨oid⟩ with
    | .error e => .error e
    | .ok response => .ok response.inst

/-- The publisher as the subscriber sees it: `sync_since_as` and `get_by_oid_as`. -/
def subjectView (subject : SubjectAttributes) : FederationPublisher RacingPublisher where
  fetchSync := fun since w => some (.ok (w.broker.syncSinceAs subject since), w)
  fetchInstance := fun oid w =>
    let event := w.upcoming.headD {}
    (run securedStep w.broker event.writes).map fun broker =>
      (answerFetch broker subject oid event.failure, ⟨broker, w.upcoming.tail⟩)

structure Federation where
  publisher : SecuredExchangeBroker
  consumer : ExchangeBroker

inductive FederationStep where
  | write (step : SecuredStep)
  | pull (events : List FetchEvent)

def federationStep (subject : SubjectAttributes) (f : Federation) :
    FederationStep → Option Federation
  | .write step => (securedStep f.publisher step).map fun p => { f with publisher := p }
  | .pull events =>
    (pullAndApplyRemote (subjectView subject) f.consumer f.consumer.lastAppliedSequence
      ⟨f.publisher, events⟩).map fun r => ⟨r.2.2.broker, r.2.1⟩

def CanRead (s : SecuredExchangeBroker) (subject : SubjectAttributes) (oid : ObjectIdentifier) :
    Prop :=
  ∃ response, s.getByOidAs subject ⟨oid⟩ = .ok response

structure Settled (s : SecuredExchangeBroker) (subject : SubjectAttributes)
    (consumer : ExchangeBroker) (e : JournalEntry) : Prop where
  put : e.operation = .putObject → CanRead s subject e.key →
    consumer.store.get e.key = s.inner.store.get e.key ∧ e.key ∉ consumer.inactive
  delete : e.operation = .deleteObject → ¬ Active consumer e.key

structure PullState (subject : SubjectAttributes) (top : Nat) (rest : List JournalEntry)
    (consumer : ExchangeBroker) (s : SecuredExchangeBroker) : Prop where
  consistent : Consistent s.inner
  registry : consumer.registry = s.inner.registry
  bound : top ≤ s.inner.journal.length
  applied : consumer.appliedSequence ≤ top
  sorted : (rest.map JournalEntry.sequence).Pairwise (· < ·)
  ahead : ∀ e ∈ rest, consumer.appliedSequence < e.sequence ∧ e.sequence ≤ top
  recorded : ∀ e ∈ rest, e ∈ s.inner.journal
  settled : ∀ e, LastEntry s.inner e → e.sequence ≤ consumer.appliedSequence →
    Settled s subject consumer e
  withheld : ∀ e, LastEntry s.inner e → consumer.appliedSequence < e.sequence →
    e.sequence ≤ top → e ∉ rest → e.operation = .putObject ∧ ¬ CanRead s subject e.key

theorem canRead_iff (s : SecuredExchangeBroker) (subject : SubjectAttributes)
    (oid : ObjectIdentifier) :
    CanRead s subject oid ↔ oid ∉ s.inner.inactive ∧ ∃ i, s.inner.store.get oid = some i ∧
      ∃ d, s.authorize subject i .read = .ok d := by
  unfold CanRead
  constructor
  · rintro ⟨response, ok⟩
    obtain ⟨alive, stored, d, permitted⟩ := (getByOidAs_ok_iff s subject oid response).mp ok
    exact ⟨alive, _, stored, d, permitted⟩
  · rintro ⟨alive, i, stored, d, permitted⟩
    exact ⟨⟨i⟩, (getByOidAs_ok_iff s subject oid ⟨i⟩).mpr ⟨alive, stored, d, permitted⟩⟩

section Writers

variable {subject : SubjectAttributes} {s : SecuredExchangeBroker} {b : ExchangeBroker}
variable {oid : ObjectIdentifier} (advance : Advances s.inner b oid)
include advance

theorem canRead_advance (k : ObjectIdentifier) (other : k ≠ oid) :
    CanRead (s.withInner b) subject k ↔ CanRead s subject k := by
  rw [canRead_iff, canRead_iff, withInner_inner, advance.inactive k other, advance.store k other]
  simp only [authorize_withInner]

theorem pullState_advance {top : Nat} {rest : List JournalEntry} {consumer : ExchangeBroker}
    (room : Roomy s.inner) (after : Consistent b) (p : PullState subject top rest consumer s) :
    PullState subject top rest consumer (s.withInner b) := by
  have bound := p.bound
  have applied := p.applied
  refine ⟨after, ?_, ?_, p.applied, p.sorted, p.ahead, ?_, ?_, ?_⟩
  · rw [p.registry, withInner_inner, advance.registry]
  · rw [withInner_inner, advances_grows advance]
    omega
  · intro e mem
    obtain ⟨operation, journal⟩ := advance.journal
    rw [withInner_inner, journal]
    exact List.mem_append_left _ (p.recorded e mem)
  · intro e last passed
    rcases lastEntry_advance advance p.consistent room e last with new | ⟨other, before⟩
    · omega
    · have agreed := p.settled e before passed
      refine ⟨?_, agreed.delete⟩
      intro put canRead
      rw [withInner_inner, advance.store _ other]
      exact agreed.put put ((canRead_advance advance _ other).mp canRead)
  · intro e last beyond within missing
    rcases lastEntry_advance advance p.consistent room e last with new | ⟨other, before⟩
    · omega
    · rw [canRead_advance advance _ other]
      exact p.withheld e before beyond within missing

end Writers

theorem pullState_write {subject : SubjectAttributes} {top : Nat} {rest : List JournalEntry}
    {consumer : ExchangeBroker} {s next : SecuredExchangeBroker} {l : SecuredStep}
    (room : Roomy s.inner) (p : PullState subject top rest consumer s)
    (taken : securedStep s l = some next) : PullState subject top rest consumer next := by
  rcases securedStep_cases s next l taken with rfl | ⟨b, oid, rfl, advance, kept⟩
  · exact p
  · exact pullState_advance advance room (kept p.consistent room) p

theorem writes_grow (s next : SecuredExchangeBroker) (writes : List SecuredStep)
    (ran : run securedStep s writes = some next) :
    s.inner.journal.length ≤ next.inner.journal.length :=
  invariant securedStep (fun t => s.inner.journal.length ≤ t.inner.journal.length)
    (fun t l u here taken => Nat.le_trans here (securedStep_grows t u l taken))
    writes s next (Nat.le_refl _) ran

theorem pullState_writes {subject : SubjectAttributes} {top : Nat} {rest : List JournalEntry}
    {consumer : ExchangeBroker} {s next : SecuredExchangeBroker} {writes : List SecuredStep}
    (p : PullState subject top rest consumer s) (ran : run securedStep s writes = some next)
    (room : Roomy next.inner) : PullState subject top rest consumer next := by
  refine invariant securedStep (fun t => Roomy t.inner → PullState subject top rest consumer t)
    ?_ writes s next (fun _ => p) ran room
  intro t l u inv taken roomNext
  have roomHere := roomy_of_grown (securedStep_grows t u l taken) roomNext
  exact pullState_write roomHere (inv roomHere) taken

section Entry

variable {subject : SubjectAttributes} {top : Nat} {entry : JournalEntry}
variable {rest : List JournalEntry} {consumer after : ExchangeBroker} {s : SecuredExchangeBroker}
variable (p : PullState subject top (entry :: rest) consumer s)
include p

omit p in
theorem Settled.kept {e : JournalEntry} (settled : Settled s subject consumer e)
    (store : after.store.get e.key = consumer.store.get e.key)
    (inactive : e.key ∈ after.inactive ↔ e.key ∈ consumer.inactive) : Settled s subject after e := by
  refine ⟨?_, ?_⟩
  · intro put canRead
    rw [store, inactive]
    exact settled.put put canRead
  · intro delete
    have gone := settled.delete delete
    unfold Active at *
    rw [mem_keys, store, inactive, ← mem_keys]
    exact gone

omit p in
theorem settled_withheld {e : JournalEntry}
    (withheld : e.operation = .putObject ∧ ¬ CanRead s subject e.key) : Settled s subject after e := by
  obtain ⟨put, unreadable⟩ := withheld
  refine ⟨fun _ canRead => absurd canRead unreadable, ?_⟩
  intro delete
  rw [put] at delete
  cases delete

omit p [UnicodeCase] in
theorem not_mem_of_number {e : JournalEntry} (apart : entry.sequence ≠ e.sequence)
    (missing : e ∉ rest) : e ∉ entry :: rest := by
  rw [List.mem_cons, not_or]
  exact ⟨fun same => apart (congrArg JournalEntry.sequence same.symm), missing⟩

theorem pullState_apply (registry : after.registry = consumer.registry)
    (applied : after.appliedSequence = entry.sequence)
    (store : ∀ k, k ≠ entry.key → after.store.get k = consumer.store.get k)
    (inactive : ∀ k, k ≠ entry.key → (k ∈ after.inactive ↔ k ∈ consumer.inactive))
    (here : Settled s subject after entry) : PullState subject top rest after s := by
  have position := p.ahead entry List.mem_cons_self
  have later := p.sorted
  rw [List.map_cons, List.pairwise_cons] at later
  have following : ∀ e ∈ rest, entry.sequence < e.sequence := fun e mem =>
    later.1 _ (List.mem_map_of_mem mem)
  refine ⟨p.consistent, registry.trans p.registry, p.bound, applied ▸ position.2, later.2, ?_, ?_,
    ?_, ?_⟩
  · intro e mem
    rw [applied]
    exact ⟨following e mem, (p.ahead e (List.mem_cons_of_mem _ mem)).2⟩
  · intro e mem
    exact p.recorded e (List.mem_cons_of_mem _ mem)
  · intro e last passed
    rw [applied] at passed
    have recorded := p.recorded entry List.mem_cons_self
    by_cases same : e.key = entry.key
    · have largest := number_le_lastOn JournalEntry.key p.consistent.numbered last recorded same.symm
      obtain rfl := numbered_unique p.consistent.numbered recorded (lastEntry_mem last)
        (Nat.le_antisymm largest passed)
      exact here
    · by_cases early : e.sequence ≤ consumer.appliedSequence
      · exact (p.settled e last early).kept (store _ same) (inactive _ same)
      · have apart : entry.sequence ≠ e.sequence := fun equal =>
          same (congrArg JournalEntry.key
            (numbered_unique p.consistent.numbered (lastEntry_mem last) recorded equal.symm))
        have missing : e ∉ rest := by
          intro mem
          have := following e mem
          omega
        apply settled_withheld
        exact p.withheld e last (by omega) (by omega) (not_mem_of_number apart missing)
  · intro e last beyond within missing
    rw [applied] at beyond
    exact p.withheld e last (by omega) within (not_mem_of_number (by omega) missing)

theorem head_replicable :
    entry.operation = .putObject ∨ entry.operation = .deleteObject :=
  p.consistent.replicable entry (p.recorded entry List.mem_cons_self)

theorem pullState_put (put : entry.operation = .putObject) (i : MimInstance)
    {failure : Option TransportError}
    (fetched : answerFetch s subject entry.oid failure = .ok i) :
    ∃ after, consumer.applyRemoteEntry entry (some i) = some (.ok (), after) ∧
      PullState subject top rest after s := by
  have found : s.getByOidAs subject ⟨entry.oid⟩ = .ok ⟨i⟩ := by
    unfold answerFetch at fetched
    split at fetched
    · cases fetched
    cases got : s.getByOidAs subject ⟨entry.oid⟩ with
    | error e => simp [got] at fetched
    | ok response =>
      simp only [got, Except.ok.injEq] at fetched
      rw [← fetched]
  obtain ⟨alive, stored, d, permitted⟩ := (getByOidAs_ok_iff s subject entry.oid ⟨i⟩).mp found
  have own : i.oid = entry.oid := s.inner.store.keyed _ i stored
  have accepted : validatePut consumer.registry i = some (.ok ()) := by
    rw [p.registry]
    exact p.consistent.accepted _ i stored
  have advance := advances_commitPut consumer i
  rw [own] at advance
  refine ⟨(consumer.commitPut i).setApplied entry.sequence, ?_, ?_⟩
  · rw [applyRemoteEntry, put]
    exact applyPutEntry_accepted consumer entry i accepted
  · refine pullState_apply p rfl rfl advance.store advance.inactive ⟨fun _ _ => ?_, ?_⟩
    · refine ⟨?_, ?_⟩
      · change (consumer.commitPut i).store.get entry.oid = s.inner.store.get entry.oid
        rw [commitPut_store, get_insert, own, if_pos rfl, stored]
      · change entry.oid ∉ (consumer.commitPut i).inactive
        rw [commitPut_inactive, own]
        exact Finset.notMem_erase _ _
    · intro delete
      rw [put] at delete
      cases delete

theorem pullState_delete (delete : entry.operation = .deleteObject) :
    consumer.applyRemoteEntry entry none = some (.ok (), consumer.afterDeleteEntry entry) ∧
      PullState subject top rest (consumer.afterDeleteEntry entry) s := by
  refine ⟨?_, ?_⟩
  · rw [applyRemoteEntry, delete]
    exact congrArg some (applyDeleteEntry_eq consumer entry)
  · have vacuous : ∀ {P : Prop}, entry.operation = .putObject → P := by
      intro P put
      rw [delete] at put
      cases put
    by_cases stored : consumer.storeContains entry.oid = true
    · have after : consumer.afterDeleteEntry entry =
          (consumer.commitDelete entry.oid).setApplied entry.sequence := by
        rw [afterDeleteEntry, if_pos stored]
      have advance := advances_commitDelete consumer entry.oid
      rw [after]
      refine pullState_apply p rfl rfl advance.store advance.inactive
        ⟨fun put => vacuous put, fun _ active => active.2 ?_⟩
      exact Finset.mem_insert_self _ _
    · have after : consumer.afterDeleteEntry entry = consumer.setApplied entry.sequence := by
        rw [afterDeleteEntry, if_neg stored]
      rw [after]
      refine pullState_apply p rfl rfl (fun _ _ => rfl) (fun _ _ => Iff.rfl)
        ⟨fun put => vacuous put, fun _ active => stored ?_⟩
      exact (containsKey_iff _ _).mpr active.1

end Entry

theorem fetched_entry (subject : SubjectAttributes) (entry : JournalEntry)
    (consumer after : ExchangeBroker) (w w' : RacingPublisher)
    (result : Except TransportError Unit)
    (ran : applyFetched (subjectView subject) entry consumer w = some (result, after, w')) :
    (∃ writes, run securedStep w.broker writes = some w'.broker) ∧
      ((∃ e, result = .error e ∧ after = consumer) ∨
        (∃ i failure, entry.operation = .putObject ∧
          answerFetch w'.broker subject entry.oid failure = .ok i ∧
          consumer.applyRemoteEntry entry (some i) = some (result, after)) ∨
        entry.operation ≠ .putObject ∧
          consumer.applyRemoteEntry entry none = some (result, after)) := by
  unfold applyFetched at ran
  split at ran
  · rename_i put
    split at ran
    · cases ran
    · rename_i e v fetched
      obtain ⟨broker, written, same⟩ := Option.map_eq_some_iff.mp fetched
      simp only [Prod.mk.injEq] at same
      simp only [Option.some.injEq, Prod.mk.injEq] at ran
      obtain ⟨rfl, rfl, rfl⟩ := ran
      obtain ⟨_, rfl⟩ := same
      exact ⟨⟨_, written⟩, .inl ⟨e, rfl, rfl⟩⟩
    · rename_i i v fetched
      obtain ⟨broker, written, same⟩ := Option.map_eq_some_iff.mp fetched
      simp only [Prod.mk.injEq] at same
      obtain ⟨⟨r, c⟩, applied, final⟩ := Option.map_eq_some_iff.mp ran
      simp only [Prod.mk.injEq] at final
      obtain ⟨rfl, rfl, rfl⟩ := final
      obtain ⟨answer, rfl⟩ := same
      exact ⟨⟨_, written⟩, .inr (.inl ⟨i, _, put, answer, applied⟩)⟩
  · rename_i other
    obtain ⟨⟨r, c⟩, applied, final⟩ := Option.map_eq_some_iff.mp ran
    simp only [Prod.mk.injEq] at final
    obtain ⟨rfl, rfl, rfl⟩ := final
    exact ⟨⟨[], rfl⟩, .inr (.inr ⟨other, applied⟩)⟩

section Pull

variable {subject : SubjectAttributes} {top : Nat} {entry : JournalEntry}
variable {rest : List JournalEntry} {consumer after : ExchangeBroker} {w w' : RacingPublisher}

def Served (subject : SubjectAttributes) (consumer : ExchangeBroker) (s : SecuredExchangeBroker) :
    Prop :=
  PullState subject consumer.appliedSequence [] consumer s

theorem pullState_served {s : SecuredExchangeBroker}
    (p : PullState subject top rest consumer s) : Served subject consumer s where
  consistent := p.consistent
  registry := p.registry
  bound := Nat.le_trans p.applied p.bound
  applied := Nat.le_refl _
  sorted := List.Pairwise.nil
  ahead := by intro e mem; cases mem
  recorded := by intro e mem; cases mem
  settled := p.settled
  withheld := by
    intro e _ beyond within
    omega

variable (inv : Roomy w.broker.inner → PullState subject top (entry :: rest) consumer w.broker)
include inv

theorem pullState_entry (roomNext : Roomy w'.broker.inner) (result : Except TransportError Unit)
    (ran : applyFetched (subjectView subject) entry consumer w = some (result, after, w')) :
    (result = .ok () ∧ PullState subject top rest after w'.broker) ∨
      (∃ e, result = .error e) ∧ Served subject after w'.broker := by
  obtain ⟨⟨writes, written⟩, outcome⟩ := fetched_entry subject entry consumer after w w' result ran
  have roomHere := roomy_of_grown (writes_grow _ _ writes written) roomNext
  have p := pullState_writes (inv roomHere) written roomNext
  rcases outcome with ⟨e, failed, rfl⟩ | ⟨i, failure, put, fetched, applied⟩ | ⟨other, applied⟩
  · exact .inr ⟨⟨e, failed⟩, pullState_served p⟩
  · obtain ⟨next, done, kept⟩ := pullState_put p put i fetched
    rw [done, Option.some.injEq, Prod.mk.injEq] at applied
    obtain ⟨rfl, rfl⟩ := applied
    exact .inl ⟨rfl, kept⟩
  · obtain ⟨done, kept⟩ := pullState_delete p ((head_replicable p).resolve_left other)
    rw [done, Option.some.injEq, Prod.mk.injEq] at applied
    obtain ⟨rfl, rfl⟩ := applied
    exact .inl ⟨rfl, kept⟩

theorem pullState_skip (passed : entry.sequence ≤ consumer.appliedSequence)
    (room : Roomy w.broker.inner) : False := by
  have := ((inv room).ahead entry List.mem_cons_self).1
  omega

end Pull

theorem pullState_start {subject : SubjectAttributes} {consumer : ExchangeBroker}
    {s : SecuredExchangeBroker} (served : Served subject consumer s) :
    PullState subject s.inner.journal.length
      (s.syncSinceAs subject consumer.appliedSequence).entries consumer s := by
  have listed : ∀ e, e ∈ (s.syncSinceAs subject consumer.appliedSequence).entries ↔
      (e ∈ s.inner.journal ∧ consumer.appliedSequence < e.sequence) ∧
        (e.operation = .deleteObject ∨ CanRead s subject e.key) := by
    intro e
    have readable : (s.getByOidAs subject ⟨e.oid⟩).isOk = true ↔ CanRead s subject e.key := by
      unfold CanRead
      cases s.getByOidAs subject ⟨e.oid⟩ <;> simp [Except.isOk, Except.toBool]
    simp only [syncSinceAs, ExchangeBroker.syncSince, List.mem_filter, decide_eq_true_eq,
      Bool.or_eq_true, beq_iff_eq, readable]
  refine ⟨served.consistent, served.registry, Nat.le_refl _, served.bound, ?_, ?_, ?_,
    served.settled, ?_⟩
  · have sublist : (s.syncSinceAs subject consumer.appliedSequence).entries.Sublist
        s.inner.journal := (List.filter_sublist).trans List.filter_sublist
    exact (numbered_sorted served.consistent.numbered).sublist (sublist.map _)
  · intro e mem
    obtain ⟨⟨inJournal, beyond⟩, _⟩ := (listed e).mp mem
    exact ⟨beyond, numbered_le served.consistent.numbered inJournal⟩
  · intro e mem
    exact ((listed e).mp mem).1.1
  · intro e last beyond _ missing
    have inJournal := lastEntry_mem last
    rcases served.consistent.replicable e inJournal with put | delete
    · refine ⟨put, fun canRead => missing ?_⟩
      exact (listed e).mpr ⟨⟨inJournal, beyond⟩, .inr canRead⟩
    · exact absurd ((listed e).mpr ⟨⟨inJournal, beyond⟩, .inl delete⟩) missing

theorem applyFetched_grows {subject : SubjectAttributes} {entry : JournalEntry}
    {consumer after : ExchangeBroker} {w w' : RacingPublisher}
    {result : Except TransportError Unit}
    (ran : applyFetched (subjectView subject) entry consumer w = some (result, after, w')) :
    w.broker.inner.journal.length ≤ w'.broker.inner.journal.length := by
  obtain ⟨⟨writes, written⟩, _⟩ := fetched_entry subject entry consumer after w w' result ran
  exact writes_grow _ _ writes written

theorem pull_served {subject : SubjectAttributes} {consumer after : ExchangeBroker}
    {w w' : RacingPublisher} {result : Except TransportError ReplicationApplyReport}
    (served : Roomy w.broker.inner → Served subject consumer w.broker)
    (ran : pullAndApplyRemote (subjectView subject) consumer consumer.appliedSequence w =
      some (result, after, w')) :
    w.broker.inner.journal.length ≤ w'.broker.inner.journal.length ∧
      (Roomy w'.broker.inner → Served subject after w'.broker) := by
  let top := w.broker.inner.journal.length
  obtain ⟨⟨counts, c, v⟩, replayed, final⟩ := Option.map_eq_some_iff.mp ran
  simp only [Prod.mk.injEq] at final
  obtain ⟨_, rfl, rfl⟩ := final
  have kept := replayEntries_invariant (applyFetched (subjectView subject))
    (fun rest c v => top ≤ v.broker.inner.journal.length ∧
      (Roomy v.broker.inner → PullState subject top rest c v.broker))
    (fun entry rest c v inv passed =>
      ⟨inv.1, fun room => (pullState_skip inv.2 passed room).elim⟩)
    (fun c v => top ≤ v.broker.inner.journal.length ∧
      (Roomy v.broker.inner → Served subject c v.broker))
    (by
      intro entry rest c v after v' inv _ taken
      refine ⟨Nat.le_trans inv.1 (applyFetched_grows taken), fun room => ?_⟩
      rcases pullState_entry inv.2 room _ taken with ⟨_, p⟩ | ⟨⟨e, impossible⟩, _⟩
      · exact p
      · cases impossible)
    (by
      intro entry rest c v e after v' inv _ stopped
      refine ⟨Nat.le_trans inv.1 (applyFetched_grows stopped), fun room => ?_⟩
      rcases pullState_entry inv.2 room _ stopped with ⟨impossible, _⟩ | ⟨_, s⟩
      · cases impossible
      · exact s)
    _ 0 0 consumer w _ _ _ ⟨Nat.le_refl _, fun room => pullState_start (served room)⟩ replayed
  rcases kept with ⟨_, _, grown, p⟩ | ⟨_, _, grown, s⟩
  · exact ⟨grown, fun room => pullState_served (p room)⟩
  · exact ⟨grown, s⟩

theorem served_new (subject : SubjectAttributes) (registry : ModelRegistry)
    (pep : PolicyEnforcementPoint) (own : SubjectAttributes) (domain : SecurityDomain) :
    Served subject (.new registry) ⟨.new registry, pep, own, domain⟩ where
  consistent := consistent_new registry
  registry := rfl
  bound := Nat.le_refl _
  applied := Nat.le_refl _
  sorted := List.Pairwise.nil
  ahead := by intro e mem; cases mem
  recorded := by intro e mem; cases mem
  settled := by intro e last; cases lastEntry_mem last
  withheld := by intro e last; cases lastEntry_mem last

theorem federationStep_served (subject : SubjectAttributes) (f next : Federation)
    (l : FederationStep) (served : Roomy f.publisher.inner → Served subject f.consumer f.publisher)
    (taken : federationStep subject f l = some next) (room : Roomy next.publisher.inner) :
    Served subject next.consumer next.publisher := by
  cases l with
  | write step =>
    obtain ⟨p, written, rfl⟩ := Option.map_eq_some_iff.mp taken
    have roomHere := roomy_of_grown (securedStep_grows _ _ _ written) room
    exact pullState_write roomHere (served roomHere) written
  | pull events =>
    obtain ⟨⟨result, c, w⟩, ran, rfl⟩ := Option.map_eq_some_iff.mp taken
    exact (pull_served (w := ⟨f.publisher, events⟩) served ran).2 room

theorem quiet_pull {subject : SubjectAttributes} {consumer : ExchangeBroker}
    {s : SecuredExchangeBroker} (served : Served subject consumer s) :
    ∃ report after w, pullAndApplyRemote (subjectView subject) consumer consumer.appliedSequence
        ⟨s, []⟩ = some (.ok report, after, w) ∧ w.broker = s ∧
      PullState subject s.inner.journal.length [] after s := by
  let sync := s.syncSinceAs subject consumer.appliedSequence
  have fetchable : ∀ e ∈ sync.entries, e.operation = .putObject → CanRead s subject e.key := by
    intro e mem put
    have kept := (List.mem_filter.mp mem).2
    rw [put] at kept
    unfold CanRead
    cases got : s.getByOidAs subject ⟨e.oid⟩ with
    | error _ => simp [got, Except.isOk, Except.toBool] at kept
    | ok response => exact ⟨response, rfl⟩
  obtain ⟨counts, after, w, replayed, rfl, p, _⟩ := replayEntries_total
    (applyFetched (subjectView subject))
    (fun rest c v => v = ⟨s, []⟩ ∧ PullState subject s.inner.journal.length rest c s ∧
      ∀ e ∈ rest, e ∈ sync.entries)
    (by
      rintro entry rest c v ⟨_, p, _⟩ passed
      have := (p.ahead entry List.mem_cons_self).1
      omega)
    (by
      rintro entry rest c v ⟨rfl, p, listed⟩ _
      have later : ∀ e ∈ rest, e ∈ sync.entries := fun e mem =>
        listed e (List.mem_cons_of_mem _ mem)
      rcases head_replicable p with put | delete
      · obtain ⟨response, got⟩ := fetchable entry (listed entry List.mem_cons_self) put
        have fetched : answerFetch s subject entry.oid none = .ok response.inst := by
          unfold answerFetch
          simp only [show s.getByOidAs subject ⟨entry.oid⟩ = .ok response from got]
        obtain ⟨next, applied, kept⟩ := pullState_put p put response.inst fetched
        refine ⟨next, ⟨s, []⟩, ?_, rfl, kept, later⟩
        simp [applyFetched, put, subjectView, fetched, applied]
      · obtain ⟨applied, kept⟩ := pullState_delete p delete
        refine ⟨_, ⟨s, []⟩, ?_, rfl, kept, later⟩
        simp [applyFetched, delete, applied])
    sync.entries 0 0 consumer ⟨s, []⟩ ⟨rfl, pullState_start served, fun e mem => mem⟩
  refine ⟨⟨counts.1, counts.2, sync.latestSequence⟩, after, ⟨s, []⟩, ?_, rfl, p⟩
  simp only [pullAndApplyRemote, subjectView]
  exact congrArg (Option.map _) replayed

theorem converged {subject : SubjectAttributes} {consumer : ExchangeBroker}
    {s : SecuredExchangeBroker}
    (p : PullState subject s.inner.journal.length [] consumer s) :
    (∀ oid, CanRead s subject oid →
        consumer.store.get oid = s.inner.store.get oid ∧ Active consumer oid) ∧
      ∀ oid ∈ s.inner.inactive, ¬ Active consumer oid := by
  have reached : ∀ e, LastEntry s.inner e → Settled s subject consumer e ∨
      e.operation = .putObject ∧ ¬ CanRead s subject e.key := by
    intro e last
    by_cases passed : e.sequence ≤ consumer.appliedSequence
    · exact .inl (p.settled e last passed)
    · have within := numbered_le p.consistent.numbered (lastEntry_mem last)
      exact .inr (p.withheld e last (by omega) within List.not_mem_nil)
  refine ⟨?_, ?_⟩
  · intro oid canRead
    obtain ⟨alive, i, stored, _⟩ := (canRead_iff s subject oid).mp canRead
    have active : Active s.inner oid := by
      refine ⟨?_, alive⟩
      rw [mem_keys, stored]
      rfl
    obtain ⟨e, last, put⟩ := (active_iff_last p.consistent oid).mp active
    obtain rfl : e.key = oid := (lastOn_mem JournalEntry.key last).2
    rcases reached e last with agreed | ⟨_, unreadable⟩
    · obtain ⟨same, shown⟩ := agreed.put put canRead
      refine ⟨same, ?_, shown⟩
      rw [mem_keys, same, stored]
      rfl
    · exact absurd canRead unreadable
  · intro oid gone
    obtain ⟨e, last, delete⟩ := (inactive_iff_last p.consistent oid).mp gone
    obtain rfl : e.key = oid := (lastOn_mem JournalEntry.key last).2
    rcases reached e last with agreed | ⟨put, _⟩
    · exact agreed.delete delete
    · rw [delete] at put
      cases put

theorem federation_run_served (subject : SubjectAttributes) (registry : ModelRegistry)
    (pep : PolicyEnforcementPoint) (own : SubjectAttributes) (domain : SecurityDomain)
    (labels : List FederationStep) (f : Federation)
    (reached : run (federationStep subject)
      ⟨⟨.new registry, pep, own, domain⟩, .new registry⟩ labels = some f) :
    Roomy f.publisher.inner → Served subject f.consumer f.publisher :=
  invariant (federationStep subject)
    (fun g => Roomy g.publisher.inner → Served subject g.consumer g.publisher)
    (fun g l next inv taken room => federationStep_served subject g next l inv taken room)
    labels _ f (fun _ => served_new subject registry pep own domain) reached

theorem remote_convergence (subject : SubjectAttributes) (registry : ModelRegistry)
    (pep : PolicyEnforcementPoint) (own : SubjectAttributes) (domain : SecurityDomain)
    (labels : List FederationStep) (f : Federation)
    (reached : run (federationStep subject)
      ⟨⟨.new registry, pep, own, domain⟩, .new registry⟩ labels = some f)
    (room : Roomy f.publisher.inner) :
    ∃ report after w, pullAndApplyRemote (subjectView subject) f.consumer
        f.consumer.lastAppliedSequence ⟨f.publisher, []⟩ = some (.ok report, after, w) ∧
      w.broker = f.publisher ∧
      (∀ oid i decision, Active f.publisher.inner oid → f.publisher.inner.store.get oid = some i →
        f.publisher.authorize subject i .read = .ok decision →
          Active after oid ∧ after.store.get oid = some i) ∧
      ∀ oid ∈ f.publisher.inner.inactive, ¬ Active after oid := by
  have served := federation_run_served subject registry pep own domain labels f reached room
  obtain ⟨report, after, w, ran, same, p⟩ := quiet_pull served
  obtain ⟨shown, hidden⟩ := converged p
  refine ⟨report, after, w, ran, same, ?_, hidden⟩
  intro oid i decision active stored permitted
  obtain ⟨equal, here⟩ := shown oid
    ((canRead_iff _ _ _).mpr ⟨active.2, i, stored, decision, permitted⟩)
  exact ⟨here, equal.trans stored⟩

def federationFixture : List FederationStep := [
  .write (.put secretSubject ⟨classified "a" "RESTRICTED"⟩),
  .write (.put secretSubject ⟨classified "b" "SECRET"⟩),
  .write (.put secretSubject ⟨classified "c" "RESTRICTED"⟩),
  .pull [{}, { writes := [.delete secretSubject ⟨⟨"c"⟩⟩] }],
  .write (.put secretSubject ⟨classified "b" "RESTRICTED"⟩)]

omit [UnicodeCase] in
theorem remote_convergence_fixture : ∃ (_ : UnicodeCase) (f : Federation),
    run (federationStep restrictedSubject)
      ⟨securedFixture, .new wireRegistry⟩ federationFixture = some f ∧
    f.consumer.lastAppliedSequence = 1 ∧
    ∃ report after w, pullAndApplyRemote (subjectView restrictedSubject) f.consumer
        f.consumer.lastAppliedSequence ⟨f.publisher, []⟩ = some (.ok report, after, w) ∧
      Active after ⟨"a"⟩ ∧ Active after ⟨"b"⟩ ∧ ¬ Active after ⟨"c"⟩ := by
  let _ : UnicodeCase := asciiCase
  have reaches : (run (federationStep restrictedSubject)
      ⟨securedFixture, .new wireRegistry⟩ federationFixture).map (fun f =>
        (f.publisher.inner.journal.length, f.consumer.lastAppliedSequence,
          (f.publisher.getByOidAs restrictedSubject ⟨⟨"a"⟩⟩).isOk,
          (f.publisher.getByOidAs restrictedSubject ⟨⟨"b"⟩⟩).isOk,
          decide (⟨"c"⟩ ∈ f.publisher.inner.inactive))) = some (5, 1, true, true, true) := by
    decide +kernel
  obtain ⟨f, reached, observed⟩ := Option.map_eq_some_iff.mp reaches
  simp only [Prod.mk.injEq, decide_eq_true_eq] at observed
  obtain ⟨length, applied, readA, readB, gone⟩ := observed
  obtain ⟨report, after, w, ran, _, shown, hidden⟩ := remote_convergence restrictedSubject
    wireRegistry ⟨.presetHighToLow⟩ secretSubject highDomain federationFixture f reached
    (by unfold Roomy u64Max; omega)
  have activeOf : ∀ oid, (f.publisher.getByOidAs restrictedSubject ⟨oid⟩).isOk = true →
      Active after oid := by
    intro oid readable
    cases got : f.publisher.getByOidAs restrictedSubject ⟨oid⟩ with
    | error e =>
      rw [got] at readable
      cases readable
    | ok response =>
      obtain ⟨alive, stored, d, permitted⟩ := (getByOidAs_ok_iff _ _ _ _).mp got
      refine (shown oid response.inst d ⟨?_, alive⟩ stored permitted).1
      rw [mem_keys, stored]
      rfl
  exact ⟨asciiCase, f, reached, applied, report, after, w, ran, activeOf _ readA,
    activeOf _ readB, hidden _ gone⟩

end MimTransport
