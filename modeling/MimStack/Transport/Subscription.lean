import MimStack.Lib.Outcome
import MimStack.Transport.Secured

/-!
What a subscriber sees of a journal and what a pull leaves behind. The filter asks
about the instance stored under an entry's OID at the time of the request, and the pull
copies that same instance, so relabelled and re-created objects go by their present
label. Delete entries are not filtered.
-/
namespace MimTransport
open RustText StepRuns MimCore MimModel MimRuntime MimRuntime.InstanceStore MimLabeling MimPolicy
open ExchangeBroker SecuredExchangeBroker

variable [UnicodeCase]

/-- The enforcement point lets the subject read the instance at this broker. -/
def PermitsRead (s : SecuredExchangeBroker) (subject : SubjectAttributes) (i : MimInstance) : Prop :=
  ∃ label decision, instanceLabel i = .ok label ∧
    s.pep.enforceAccess subject label .read s.domain = .ok decision

theorem permitsRead_iff (s : SecuredExchangeBroker) (subject : SubjectAttributes)
    (i : MimInstance) :
    PermitsRead s subject i ↔ ∃ decision, s.authorize subject i .read = .ok decision := by
  simp only [authorize_ok_iff, PermitsRead]
  exact ⟨fun ⟨label, decision, both⟩ => ⟨decision, label, both⟩,
    fun ⟨decision, label, both⟩ => ⟨label, decision, both⟩⟩

/-- The object is active and its present instance readable. -/
def Readable (s : SecuredExchangeBroker) (subject : SubjectAttributes) (oid : ObjectIdentifier) :
    Prop :=
  oid ∉ s.inner.inactive ∧ ∃ i, s.inner.store.get oid = some i ∧ PermitsRead s subject i

theorem getByOidAs_isOk_iff (s : SecuredExchangeBroker) (subject : SubjectAttributes)
    (oid : ObjectIdentifier) :
    (s.getByOidAs subject ⟨oid⟩).isOk = true ↔ Readable s subject oid := by
  rw [Fallible.isOk_iff]
  constructor
  · rintro ⟨response, got⟩
    obtain ⟨active, stored, permitted⟩ := (getByOidAs_ok_iff s subject oid response).mp got
    exact ⟨active, response.inst, stored, (permitsRead_iff _ _ _).mpr permitted⟩
  · rintro ⟨active, i, stored, permitted⟩
    exact ⟨⟨i⟩, (getByOidAs_ok_iff s subject oid ⟨i⟩).mpr
      ⟨active, stored, (permitsRead_iff _ _ _).mp permitted⟩⟩

theorem filtered_journal (s : SecuredExchangeBroker) (subject : SubjectAttributes) (since : Nat)
    (e : JournalEntry) :
    e ∈ (s.syncSinceAs subject since).entries ↔
      e ∈ s.inner.journal ∧ since < e.sequence ∧
        (e.operation = .deleteObject ∨ Readable s subject e.oid) := by
  simp only [syncSinceAs, ExchangeBroker.syncSince, List.mem_filter, decide_eq_true_iff, Bool.or_eq_true,
    beq_iff_eq, getByOidAs_isOk_iff, and_assoc]

/-- `ReplicationAgent::pull_and_apply_for_subject`. -/
def pullAndApplyForSubject (consumer : ExchangeBroker) (publisher : SecuredExchangeBroker)
    (subject : SubjectAttributes) (since : Nat) :
    Option (Except TransportError ReplicationApplyReport × ExchangeBroker) :=
  applySyncResponse consumer publisher.inner (publisher.syncSinceAs subject since)

/-- From `before` on, the journal was extended and the store holds, under the OID of every put
added to it, an instance with the property; under all other OIDs it is as it was. -/
structure Confined (allowed : MimInstance → Prop) (before after : ExchangeBroker)
    (added : List JournalEntry) : Prop where
  journal : after.journal = before.journal ++ added
  puts : ∀ e ∈ added, e.operation = .putObject →
    ∃ i, after.store.get e.oid = some i ∧ allowed i
  others : ∀ oid, (∀ e ∈ added, e.operation = .putObject → e.oid ≠ oid) →
    after.store.get oid = before.store.get oid

omit [UnicodeCase] in
theorem Confined.start (allowed : MimInstance → Prop) (b : ExchangeBroker) :
    Confined allowed b b [] :=
  ⟨by simp, by simp, fun _ _ => rfl⟩

omit [UnicodeCase] in
theorem Confined.put {allowed : MimInstance → Prop} {before mid : ExchangeBroker}
    {added : List JournalEntry} (confined : Confined allowed before mid added) {i : MimInstance}
    (permitted : allowed i) (n : Nat) :
    ∃ more, Confined allowed before ((mid.commitPut i).setApplied n) more := by
  refine ⟨added ++ [⟨saturatingAdd mid.sequence 1, .putObject, i.oid⟩], ?_, ?_, ?_⟩
  · change mid.journal ++ _ = _
    rw [confined.journal, List.append_assoc]
  · intro e member put
    change ∃ j, (mid.store.insert i).get e.oid = some j ∧ allowed j
    rw [get_insert]
    by_cases same : e.oid = i.oid
    · exact ⟨i, if_pos same, permitted⟩
    · rw [if_neg same]
      rcases List.mem_append.mp member with old | new
      · exact confined.puts e old put
      · rw [List.mem_singleton] at new
        exact absurd (congrArg JournalEntry.oid new) same
  · intro oid untouched
    change (mid.store.insert i).get oid = _
    have other : oid ≠ i.oid := fun same =>
      untouched ⟨_, .putObject, i.oid⟩ (List.mem_append_right _ (List.mem_singleton_self _)) rfl
        same.symm
    rw [get_insert, if_neg other]
    exact confined.others oid fun e member => untouched e (List.mem_append_left _ member)

omit [UnicodeCase] in
theorem Confined.delete {allowed : MimInstance → Prop} {before mid : ExchangeBroker}
    {added : List JournalEntry} (confined : Confined allowed before mid added)
    (entry : JournalEntry) : ∃ more, Confined allowed before (mid.afterDeleteEntry entry) more := by
  unfold afterDeleteEntry
  split
  · refine ⟨added ++ [⟨saturatingAdd mid.sequence 1, .deleteObject, entry.oid⟩], ?_, ?_, ?_⟩
    · change mid.journal ++ _ = _
      rw [confined.journal, List.append_assoc]
    · intro e member put
      rcases List.mem_append.mp member with old | new
      · exact confined.puts e old put
      · rw [List.mem_singleton] at new
        rw [new] at put
        cases put
    · intro oid untouched
      exact confined.others oid fun e member => untouched e (List.mem_append_left _ member)
  · exact ⟨added, confined.journal, confined.puts, confined.others⟩

omit [UnicodeCase] in
theorem applyEntryFrom_confined {allowed : MimInstance → Prop}
    {before b publisher after : ExchangeBroker} {entry : JournalEntry} {added : List JournalEntry}
    {result : Except TransportError Unit}
    (offered : entry.operation = .deleteObject ∨
      ∃ i, publisher.store.get entry.oid = some i ∧ allowed i)
    (confined : Confined allowed before b added)
    (ran : b.applyEntryFrom publisher entry = some (result, after)) :
    ∃ more, Confined allowed before after more := by
  cases applyEntryFrom_applied ran with
  | refused e => exact ⟨added, confined⟩
  | put i operation here accepted =>
    rcases offered with delete | ⟨j, stored, permitted⟩
    · rw [operation] at delete
      cases delete
    · obtain rfl := Option.some.inj (here.symm.trans stored)
      exact confined.put permitted entry.sequence
  | delete operation => exact confined.delete entry

omit [UnicodeCase] in
theorem applySyncResponse_confined {allowed : MimInstance → Prop}
    {consumer publisher after : ExchangeBroker} {sync : SyncResponse}
    {result : Except TransportError ReplicationApplyReport}
    (offered : ∀ e ∈ sync.entries, e.operation = .deleteObject ∨
      ∃ i, publisher.store.get e.oid = some i ∧ allowed i)
    (ran : applySyncResponse consumer publisher sync = some (result, after)) :
    ∃ added, Confined allowed consumer after added := by
  obtain ⟨⟨counts, stopped, _⟩, replayed, same⟩ := Option.map_eq_some_iff.mp ran
  obtain ⟨_, rfl⟩ := Prod.mk.inj same
  have one : ∀ entry b result' mid (w : Unit), (entry.operation = .deleteObject ∨
      ∃ i, publisher.store.get entry.oid = some i ∧ allowed i) →
      (∃ added, Confined allowed consumer b added) →
      applyLocal publisher entry b w = some (result', mid, ()) →
      ∃ added, Confined allowed consumer mid added := by
    intro entry b result' mid w offer confined applied
    obtain ⟨added, confined⟩ := confined
    obtain ⟨⟨outcome, next⟩, taken, same⟩ := Option.map_eq_some_iff.mp applied
    obtain ⟨_, rfl, _⟩ := by simpa using same
    exact applyEntryFrom_confined offer confined taken
  have kept := replayEntries_invariant (applyLocal publisher)
    (fun entries b _ => (∀ e ∈ entries, e.operation = .deleteObject ∨
      ∃ i, publisher.store.get e.oid = some i ∧ allowed i) ∧
      ∃ added, Confined allowed consumer b added)
    (fun entry rest b _ here _ => ⟨fun e member => here.1 e (List.mem_cons_of_mem _ member), here.2⟩)
    (fun b _ => ∃ added, Confined allowed consumer b added)
    (fun entry rest b w mid _ here _ taken =>
      ⟨fun e member => here.1 e (List.mem_cons_of_mem _ member),
        one entry b _ mid w (here.1 entry List.mem_cons_self) here.2 taken⟩)
    (fun entry rest b w e mid _ here _ taken =>
      one entry b _ mid w (here.1 entry List.mem_cons_self) here.2 taken)
    sync.entries 0 0 consumer () counts stopped () ⟨offered, [], .start allowed consumer⟩ replayed
  rcases kept with ⟨_, _, _, confined⟩ | ⟨_, _, confined⟩
  · exact confined
  · exact confined

/-- Whatever a pull for a subject puts into the consumer, up to its end or the entry it fails at,
is a present instance of the publisher that the subject may read there. -/
theorem subscriber_confined (publisher : SecuredExchangeBroker) (subject : SubjectAttributes)
    (since : Nat) (consumer : ExchangeBroker)
    {result : Except TransportError ReplicationApplyReport} {after : ExchangeBroker}
    (ran : pullAndApplyForSubject consumer publisher subject since = some (result, after)) :
    (∃ added, Confined (PermitsRead publisher subject) consumer after added) ∧
    ((∀ oid, consumer.store.get oid = none) →
      ∀ oid i, after.store.get oid = some i → PermitsRead publisher subject i) := by
  have offered : ∀ e ∈ (publisher.syncSinceAs subject since).entries,
      e.operation = .deleteObject ∨
        ∃ i, publisher.inner.store.get e.oid = some i ∧ PermitsRead publisher subject i := by
    intro e member
    rcases ((filtered_journal publisher subject since e).mp member).2.2 with delete | readable
    · exact .inl delete
    · exact .inr readable.2
  obtain ⟨added, confined⟩ := applySyncResponse_confined offered ran
  refine ⟨⟨added, confined⟩, ?_⟩
  intro fresh oid i stored
  by_cases put : ∃ e ∈ added, e.operation = .putObject ∧ e.oid = oid
  · obtain ⟨e, member, operation, rfl⟩ := put
    obtain ⟨j, stored', permitted⟩ := confined.puts e member operation
    obtain rfl := Option.some.inj (stored.symm.trans stored')
    exact permitted
  · have untouched := confined.others oid fun e member operation same =>
      put ⟨e, member, operation, same⟩
    rw [untouched, fresh oid] at stored
    cases stored

def subscriptionFixture : SecuredExchangeBroker :=
  securedFixture.withInner ((securedFixture.inner.commitPut (classified "a" "SECRET")).commitPut
    (classified "b" "RESTRICTED"))

omit [UnicodeCase] in
theorem subscriber_confined_fixture : letI := asciiCase
    ∃ result after, pullAndApplyForSubject (.new wireRegistry) subscriptionFixture
        restrictedSubject 0 = some (result, after) ∧ after.len = 1 ∧
      ∀ oid i, after.store.get oid = some i →
        PermitsRead subscriptionFixture restrictedSubject i := by
  let : UnicodeCase := asciiCase
  have checked : (pullAndApplyForSubject (.new wireRegistry) subscriptionFixture
      restrictedSubject 0).any (fun ran => ran.2.len == 1) = true := by decide +kernel
  cases pulled : pullAndApplyForSubject (.new wireRegistry) subscriptionFixture
      restrictedSubject 0 with
  | none =>
    rw [pulled] at checked
    cases checked
  | some ran =>
    rw [pulled, Option.any_some, beq_iff_eq] at checked
    exact ⟨ran.1, ran.2, rfl, checked, (subscriber_confined _ _ _ _ pulled).2 fun _ => rfl⟩

omit [UnicodeCase] in
/-- The delete of a secret object is shown to a subject that may not read it. -/
theorem deleted_object_named :
    ¬ ∀ [UnicodeCase] (registry : ModelRegistry) (pep : PolicyEnforcementPoint)
        (own : SubjectAttributes) (domain : SecurityDomain) (labels : List SecuredStep)
        (s : SecuredExchangeBroker),
      run securedStep ⟨.new registry, pep, own, domain⟩ labels = some s →
      ∀ subject since, ∀ e ∈ (s.syncSinceAs subject since).entries,
        ∃ i, s.inner.store.get e.oid = some i ∧ PermitsRead s subject i := by
  intro claim
  let _ : UnicodeCase := asciiCase
  have first := securedStep_put_fixture securedFixture secretSubject "a" "SECRET"
    (by decide +kernel) (by decide) rfl
  have reached : run securedStep securedFixture [.put secretSubject ⟨classified "a" "SECRET"⟩,
      .delete secretSubject ⟨⟨"a"⟩⟩] = some ((securedFixture.withInner (securedFixture.inner.commitPut
        (classified "a" "SECRET"))).deleteObjectAs secretSubject ⟨⟨"a"⟩⟩).2 := by
    rw [run_cons, first]
    rfl
  obtain ⟨i, stored, readable⟩ := claim wireRegistry ⟨.presetHighToLow⟩ secretSubject highDomain _ _
    reached restrictedSubject 0 ⟨2, .deleteObject, ⟨"a"⟩⟩ (by decide +kernel)
  obtain ⟨decision, permitted⟩ := (permitsRead_iff _ _ _).mp readable
  have refused : (securedFixture.authorize restrictedSubject (classified "a" "SECRET") .read).isOk =
      false := by decide +kernel
  have same : i = classified "a" "SECRET" ∧
      securedFixture.authorize restrictedSubject i .read = .ok decision := by
    rcases deleteObjectAs_cases (securedFixture.withInner (securedFixture.inner.commitPut
      (classified "a" "SECRET"))) secretSubject ⟨⟨"a"⟩⟩ with ⟨e, ran⟩ | ⟨response, _, ran⟩ <;>
    · rw [ran] at stored permitted
      exact ⟨(Option.some.inj stored).symm, permitted⟩
  rw [← same.1, same.2] at refused
  cases refused

end MimTransport
