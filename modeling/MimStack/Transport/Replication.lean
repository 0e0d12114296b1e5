import MimStack.Transport.Journal
import MimStack.Lib.Runs

/-!
Replaying a publisher's journal into a consumer. Every variant of the agent runs
the same loop: an entry at or below the consumer's applied sequence is skipped,
any other is applied, and the first failure ends the loop with the prefix kept.
What an entry's application consults is threaded as a world `W`, so that a
remote publisher may change between two calls of the loop.
-/
namespace MimTransport
open RustText KeyedLog StepRuns MimCore MimModel MimRuntime MimRuntime.InstanceStore
open ExchangeBroker

structure ReplicationApplyReport where
  applied : Nat
  skipped : Nat
  latestSequence : Nat
  deriving DecidableEq

variable {W : Type}

abbrev EntryBody (W : Type) :=
  JournalEntry → ExchangeBroker → W → Option (Except TransportError Unit × ExchangeBroker × W)

def replayEntries (body : EntryBody W) : List JournalEntry → Nat → Nat → ExchangeBroker → W →
    Option (Except TransportError (Nat × Nat) × ExchangeBroker × W)
  | [], applied, skipped, consumer, w => some (.ok (applied, skipped), consumer, w)
  | entry :: rest, applied, skipped, consumer, w =>
    if entry.sequence ≤ consumer.lastAppliedSequence then
      replayEntries body rest applied (skipped + 1) consumer w
    else
      match body entry consumer w with
      | none => none
      | some (.error e, after, w') => some (.error e, after, w')
      | some (.ok (), after, w') => replayEntries body rest (applied + 1) skipped after w'

def report (sync : SyncResponse) :
    Except TransportError (Nat × Nat) → Except TransportError ReplicationApplyReport
  | .error e => .error e
  | .ok (applied, skipped) => .ok ⟨applied, skipped, sync.latestSequence⟩

def applyLocal (publisher : ExchangeBroker) : EntryBody Unit := fun entry consumer _ =>
  (consumer.applyEntryFrom publisher entry).map fun r => (r.1, r.2, ())

def applySyncResponse (consumer publisher : ExchangeBroker) (sync : SyncResponse) :
    Option (Except TransportError ReplicationApplyReport × ExchangeBroker) :=
  (replayEntries (applyLocal publisher) sync.entries 0 0 consumer ()).map
    fun r => (report sync r.1, r.2.1)

/-- `ReplicationAgent::pull_and_apply`. -/
def pullAndApply (consumer publisher : ExchangeBroker) (since : Nat) :
    Option (Except TransportError ReplicationApplyReport × ExchangeBroker) :=
  applySyncResponse consumer publisher (publisher.syncSince since)

structure FederationPublisher (W : Type) where
  fetchSync : Nat → W → Option (Except TransportError SyncResponse × W)
  fetchInstance : ObjectIdentifier → W → Option (Except TransportError MimInstance × W)

def applyFetched (publisher : FederationPublisher W) : EntryBody W := fun entry consumer w =>
  if entry.operation = .putObject then
    match publisher.fetchInstance entry.oid w with
    | none => none
    | some (.error e, w') => some (.error e, consumer, w')
    | some (.ok i, w') =>
      (consumer.applyRemoteEntry entry (some i)).map fun r => (r.1, r.2, w')
  else (consumer.applyRemoteEntry entry none).map fun r => (r.1, r.2, w)

/-- `ReplicationAgent::pull_and_apply_remote`, and the loop of the HTTP client's
`replicate_into`. -/
def pullAndApplyRemote (publisher : FederationPublisher W) (consumer : ExchangeBroker)
    (since : Nat) (w : W) :
    Option (Except TransportError ReplicationApplyReport × ExchangeBroker × W) :=
  match publisher.fetchSync since w with
  | none => none
  | some (.error e, w') => some (.error e, consumer, w')
  | some (.ok sync, w') =>
    (replayEntries (applyFetched publisher) sync.entries 0 0 consumer w').map
      fun r => (report sync r.1, r.2)

section Loop

variable (body : EntryBody W) (inv : List JournalEntry → ExchangeBroker → W → Prop)
variable (skips : ∀ entry rest consumer w, inv (entry :: rest) consumer w →
  entry.sequence ≤ consumer.appliedSequence → inv rest consumer w)
include skips

theorem replayEntries_invariant (failed : ExchangeBroker → W → Prop)
    (steps : ∀ entry rest consumer w after w', inv (entry :: rest) consumer w →
      consumer.appliedSequence < entry.sequence →
      body entry consumer w = some (.ok (), after, w') → inv rest after w')
    (fails : ∀ entry rest consumer w e after w', inv (entry :: rest) consumer w →
      consumer.appliedSequence < entry.sequence →
      body entry consumer w = some (.error e, after, w') → failed after w') :
    ∀ entries applied skipped consumer w result after w', inv entries consumer w →
      replayEntries body entries applied skipped consumer w = some (result, after, w') →
      (∃ counts, result = .ok counts ∧ inv [] after w') ∨
        ∃ e, result = .error e ∧ failed after w' := by
  intro entries
  induction entries with
  | nil =>
    intro applied skipped consumer w result after w' start ran
    simp only [replayEntries, Option.some.injEq, Prod.mk.injEq] at ran
    obtain ⟨rfl, rfl, rfl⟩ := ran
    exact .inl ⟨_, rfl, start⟩
  | cons entry rest ih =>
    intro applied skipped consumer w result after w' start ran
    rw [replayEntries] at ran
    split at ran
    · rename_i passed
      exact ih _ _ _ _ _ _ _ (skips entry rest consumer w start passed) ran
    · rename_i ahead
      have later : consumer.appliedSequence < entry.sequence := Nat.lt_of_not_le ahead
      split at ran
      · cases ran
      · rename_i e mid v stopped
        simp only [Option.some.injEq, Prod.mk.injEq] at ran
        obtain ⟨rfl, rfl, rfl⟩ := ran
        exact .inr ⟨e, rfl, fails entry rest consumer w e _ _ start later stopped⟩
      · rename_i mid v taken
        exact ih _ _ _ _ _ _ _ (steps entry rest consumer w mid v start later taken) ran

theorem replayEntries_total
    (steps : ∀ entry rest consumer w, inv (entry :: rest) consumer w →
      consumer.appliedSequence < entry.sequence →
      ∃ after w', body entry consumer w = some (.ok (), after, w') ∧ inv rest after w') :
    ∀ entries applied skipped consumer w, inv entries consumer w →
      ∃ counts after w', replayEntries body entries applied skipped consumer w =
        some (.ok counts, after, w') ∧ inv [] after w' := by
  intro entries
  induction entries with
  | nil =>
    intro applied skipped consumer w start
    exact ⟨_, _, _, rfl, start⟩
  | cons entry rest ih =>
    intro applied skipped consumer w start
    rw [replayEntries]
    split
    · rename_i passed
      exact ih _ _ _ _ (skips entry rest consumer w start passed)
    · rename_i ahead
      obtain ⟨mid, v, taken, kept⟩ :=
        steps entry rest consumer w start (Nat.lt_of_not_le ahead)
      rw [taken]
      exact ih _ _ mid v kept

end Loop

/-- A consumer that has replayed the first `n` entries of a publisher's journal. An instance
under a key is the publisher's present one unless a put still ahead concerns that key. -/
structure Follows (publisher : ExchangeBroker) (n : Nat) (consumer : ExchangeBroker) : Prop where
  registry : consumer.registry = publisher.registry
  bound : n ≤ publisher.journal.length
  journal : consumer.journal = publisher.journal.take n
  applied : consumer.appliedSequence = n
  consistent : Consistent consumer
  current : ∀ k, (∀ e ∈ publisher.journal.drop n, e.operation = .putObject → e.key ≠ k) →
    consumer.store.get k = publisher.store.get k

theorem follows_new (registry : ModelRegistry) : Follows (.new registry) 0 (.new registry) where
  registry := rfl
  bound := Nat.le_refl _
  journal := rfl
  applied := rfl
  consistent := consistent_new registry
  current := fun _ _ => rfl

theorem follows_all {publisher consumer : ExchangeBroker} (c : Consistent publisher)
    (f : Follows publisher publisher.journal.length consumer) :
    consumer.store = publisher.store ∧ consumer.inactive = publisher.inactive ∧
      consumer.journal = publisher.journal ∧ consumer.sequence = publisher.sequence ∧
      consumer.appliedSequence = publisher.sequence := by
  have journal : consumer.journal = publisher.journal := by
    rw [f.journal, List.take_length]
  refine ⟨?_, ?_, journal, ?_, ?_⟩
  · refine ext_of_get _ _ ?_ fun k => ?_
    · rw [f.consistent.keys, c.keys, journal]
    · exact f.current k (by simp)
  · rw [f.consistent.inactive, c.inactive, journal]
  · rw [f.consistent.sequence, c.sequence, journal]
  · rw [f.applied, c.sequence]

theorem drop_at {α : Type} {l : List α} {n : Nat} {a : α} (here : l[n]? = some a) :
    l.drop n = a :: l.drop (n + 1) := by
  obtain ⟨inside, same⟩ := List.getElem?_eq_some_iff.mp here
  rw [List.drop_eq_getElem_cons inside, same]

theorem take_at {α : Type} {l : List α} {n : Nat} {a : α} (here : l[n]? = some a) :
    l.take (n + 1) = l.take n ++ [a] := by
  obtain ⟨inside, same⟩ := List.getElem?_eq_some_iff.mp here
  rw [List.take_succ_eq_append_getElem inside, same]

theorem consumer_roomy {publisher consumer : ExchangeBroker} {n : Nat} (room : Roomy publisher)
    (f : Follows publisher n consumer) : Roomy consumer := by
  unfold Roomy at *
  rw [f.journal, List.length_take]
  omega

section Entry

variable {publisher consumer : ExchangeBroker} {n : Nat} {entry : JournalEntry}
variable (c : Consistent publisher) (room : Roomy publisher) (f : Follows publisher n consumer)
variable (here : publisher.journal[n]? = some entry)
include c room f here

theorem recorded_entry (operation : IesOperation) (same : entry.operation = operation) :
    consumer.journal ++ [⟨saturatingAdd consumer.sequence 1, operation, entry.oid⟩] =
      publisher.journal.take (n + 1) := by
  have inside := (List.getElem?_eq_some_iff.mp here).1
  have length : consumer.journal.length = n := by
    rw [f.journal, List.length_take]
    omega
  have number : saturatingAdd consumer.sequence 1 = entry.sequence := by
    rw [f.consistent.sequence, length, numbered_getElem c.numbered here]
    refine saturatingAdd_one ?_
    unfold Roomy at room
    omega
  rw [take_at here, f.journal, number, ← same]

theorem follows_put (put : entry.operation = .putObject) :
    ∃ after, consumer.applyEntryFrom publisher entry = some (.ok (), after) ∧
      Follows publisher (n + 1) after := by
  have inside := (List.getElem?_eq_some_iff.mp here).1
  have known : entry.oid ∈ publisher.store.keys := by
    rw [c.keys, mem_keysOf]
    exact ⟨entry, List.mem_of_getElem? here, rfl⟩
  obtain ⟨i, stored⟩ := Option.isSome_iff_exists.mp ((mem_keys _ _).mp known)
  have own : i.oid = entry.oid := publisher.store.keyed _ i stored
  have accepted : validatePut consumer.registry i = some (.ok ()) := by
    rw [f.registry]
    exact c.accepted _ i stored
  have present : publisher.storeGet entry.oid = some i := stored
  refine ⟨(consumer.commitPut i).setApplied entry.sequence, ?_, ?_⟩
  · rw [applyEntryFrom, put]
    simp only [present]
    exact applyPutEntry_accepted consumer entry i accepted
  · refine ⟨f.registry, inside, ?_, ?_, ?_, ?_⟩
    · rw [← recorded_entry c room f here .putObject put, ← own]
      rfl
    · exact numbered_getElem c.numbered here
    · exact setApplied_consistent
        (commitPut_consistent f.consistent (consumer_roomy room f) i accepted) _
    · intro k untouched
      change (consumer.commitPut i).store.get k = _
      rw [commitPut_store, get_insert, own]
      split
      · rename_i same
        rw [same, stored]
      · rename_i other
        refine f.current k ?_
        rw [drop_at here]
        exact List.forall_mem_cons.mpr ⟨fun _ same => other same.symm, untouched⟩

theorem follows_delete (delete : entry.operation = .deleteObject) :
    ∃ after, consumer.applyEntryFrom publisher entry = some (.ok (), after) ∧
      Follows publisher (n + 1) after := by
  have inside := (List.getElem?_eq_some_iff.mp here).1
  have gone : entry.isDelete = true := by simp [JournalEntry.isDelete, delete]
  have stored : consumer.storeContains entry.oid = true := by
    rw [storeContains, containsKey_iff, f.consistent.keys, f.journal]
    exact c.introduced n entry here gone
  have result : consumer.afterDeleteEntry entry =
      (consumer.commitDelete entry.oid).setApplied entry.sequence := by
    rw [afterDeleteEntry, stored]
    rfl
  refine ⟨(consumer.commitDelete entry.oid).setApplied entry.sequence, ?_, ?_⟩
  · rw [applyEntryFrom, delete]
    simp only [applyDeleteEntry_eq, result]
  · refine ⟨f.registry, inside, ?_, ?_, ?_, ?_⟩
    · exact recorded_entry c room f here .deleteObject delete
    · exact numbered_getElem c.numbered here
    · exact setApplied_consistent
        (commitDelete_consistent f.consistent (consumer_roomy room f) _ stored) _
    · intro k untouched
      refine f.current k ?_
      rw [drop_at here]
      refine List.forall_mem_cons.mpr ⟨fun put => ?_, untouched⟩
      rw [delete] at put
      cases put

end Entry

theorem follows_put_commit {publisher consumer : ExchangeBroker} {n : Nat}
    (f : Follows publisher n consumer) (i : MimInstance) :
    Follows (publisher.commitPut i) n consumer := by
  refine ⟨f.registry, ?_, ?_, f.applied, f.consistent, ?_⟩
  · rw [commitPut_journal, List.length_append]
    exact Nat.le_add_right_of_le f.bound
  · rw [commitPut_journal, List.take_append_of_le_length f.bound, f.journal]
  · intro k untouched
    rw [commitPut_journal, List.drop_append_of_le_length f.bound] at untouched
    have other : ¬ k = i.oid := fun same =>
      untouched _ (List.mem_append_right _ (List.mem_singleton_self _)) rfl same.symm
    rw [commitPut_store, get_insert, if_neg other]
    exact f.current k fun e mem => untouched e (List.mem_append_left _ mem)

theorem follows_delete_commit {publisher consumer : ExchangeBroker} {n : Nat}
    (f : Follows publisher n consumer) (oid : ObjectIdentifier) :
    Follows (publisher.commitDelete oid) n consumer := by
  refine ⟨f.registry, ?_, ?_, f.applied, f.consistent, ?_⟩
  · rw [commitDelete_journal, List.length_append]
    exact Nat.le_add_right_of_le f.bound
  · rw [commitDelete_journal, List.take_append_of_le_length f.bound, f.journal]
  · intro k untouched
    rw [commitDelete_journal, List.drop_append_of_le_length f.bound] at untouched
    exact f.current k fun e mem => untouched e (List.mem_append_left _ mem)

theorem drop_uncons {α : Type} {l rest : List α} {m : Nat} {a : α} (split : a :: rest = l.drop m) :
    l[m]? = some a ∧ rest = l.drop (m + 1) := by
  have head : (l.drop m)[0]? = some a := by rw [← split]; rfl
  rw [List.getElem?_drop, Nat.add_zero] at head
  rw [drop_at head, List.cons.injEq] at split
  exact ⟨head, split.2⟩

/-- A replay under way: what is left is a suffix of the journal that starts no later than the
consumer's position. -/
def Replaying (publisher : ExchangeBroker) (rest : List JournalEntry) (consumer : ExchangeBroker)
    (_ : Unit) : Prop :=
  ∃ n m, Follows publisher n consumer ∧ m ≤ n ∧ rest = publisher.journal.drop m

section Pull

variable {publisher consumer : ExchangeBroker} {entry : JournalEntry} {rest : List JournalEntry}
variable (c : Consistent publisher)
include c

theorem replaying_skip (r : Replaying publisher (entry :: rest) consumer ())
    (passed : entry.sequence ≤ consumer.appliedSequence) :
    Replaying publisher rest consumer () := by
  obtain ⟨n, m, f, order, split⟩ := r
  obtain ⟨here, tail⟩ := drop_uncons split
  rw [numbered_getElem c.numbered here, f.applied] at passed
  exact ⟨n, m + 1, f, passed, tail⟩

theorem replaying_step (room : Roomy publisher)
    (r : Replaying publisher (entry :: rest) consumer ())
    (ahead : consumer.appliedSequence < entry.sequence) :
    ∃ after, applyLocal publisher entry consumer () = some (.ok (), after, ()) ∧
      Replaying publisher rest after () := by
  obtain ⟨n, m, f, order, split⟩ := r
  obtain ⟨here, tail⟩ := drop_uncons split
  rw [numbered_getElem c.numbered here, f.applied] at ahead
  obtain rfl : m = n := by omega
  have stepped : ∃ after, consumer.applyEntryFrom publisher entry = some (.ok (), after) ∧
      Follows publisher (m + 1) after := by
    rcases c.replicable entry (List.mem_of_getElem? here) with put | delete
    · exact follows_put c room f here put
    · exact follows_delete c room f here delete
  obtain ⟨after, applied, follows⟩ := stepped
  refine ⟨after, ?_, m + 1, m + 1, follows, Nat.le_refl _, tail⟩
  rw [applyLocal, applied]
  rfl

theorem pullAndApply_follows {n : Nat} (room : Roomy publisher) (f : Follows publisher n consumer)
    (since : Nat) (behind : since ≤ n) :
    ∃ report after, pullAndApply consumer publisher since = some (.ok report, after) ∧
      Follows publisher publisher.journal.length after := by
  obtain ⟨counts, after, _, ran, p, m, follows, order, empty⟩ := replayEntries_total
    (applyLocal publisher) (Replaying publisher)
    (fun _ _ _ _ r passed => replaying_skip c r passed)
    (fun _ _ _ _ r ahead =>
      let ⟨after, applied, kept⟩ := replaying_step c room r ahead
      ⟨after, (), applied, kept⟩)
    (publisher.syncSince since).entries 0 0 consumer ()
    ⟨n, since, f, behind, syncSince_entries c since⟩
  have reached : publisher.journal.length ≤ m := List.drop_eq_nil_iff.mp empty.symm
  have all : p = publisher.journal.length := Nat.le_antisymm follows.bound (by omega)
  refine ⟨⟨counts.1, counts.2, publisher.sequence⟩, after, ?_, all ▸ follows⟩
  rw [pullAndApply, applySyncResponse, ran]
  rfl

end Pull

structure ReplicaPair where
  publisher : ExchangeBroker
  consumer : ExchangeBroker

inductive ReplicaStep where
  | put (request : PutObjectRequest)
  | delete (request : DeleteObjectRequest)
  | pull (since : Nat)

/-- Writers act on the publisher only, with any outcome; a pull starts from a cursor that is
not past the consumer's applied sequence. -/
def replicaStep (s : ReplicaPair) : ReplicaStep → Option ReplicaPair
  | .put request => (s.publisher.putObject request).map fun r => { s with publisher := r.2 }
  | .delete request => some { s with publisher := (s.publisher.deleteObject request).2 }
  | .pull since =>
    if since ≤ s.consumer.lastAppliedSequence then
      (pullAndApply s.consumer s.publisher since).map fun r => { s with consumer := r.2 }
    else none

def ReplicaPair.new (registry : ModelRegistry) : ReplicaPair := ⟨.new registry, .new registry⟩

structure ReplicaInvariant (s : ReplicaPair) : Prop where
  consistent : Consistent s.publisher
  follows : ∃ n, Follows s.publisher n s.consumer

theorem replicaStep_grows (s next : ReplicaPair) (l : ReplicaStep)
    (taken : replicaStep s l = some next) :
    s.publisher.journal.length ≤ next.publisher.journal.length := by
  cases l with
  | put request =>
    obtain ⟨⟨result, after⟩, ran, rfl⟩ := Option.map_eq_some_iff.mp taken
    exact journal_grows_put ran
  | delete request =>
    obtain rfl := Option.some.inj taken
    exact journal_grows_delete s.publisher request
  | pull since =>
    rw [replicaStep] at taken
    split at taken
    · obtain ⟨r, _, rfl⟩ := Option.map_eq_some_iff.mp taken
      exact Nat.le_refl _
    · cases taken

theorem replicaStep_invariant (s next : ReplicaPair) (l : ReplicaStep) (room : Roomy s.publisher)
    (inv : ReplicaInvariant s) (taken : replicaStep s l = some next) : ReplicaInvariant next := by
  obtain ⟨c, n, f⟩ := inv
  cases l with
  | put request =>
    obtain ⟨⟨result, after⟩, ran, rfl⟩ := Option.map_eq_some_iff.mp taken
    refine ⟨putObject_consistent c room ran, n, ?_⟩
    rcases putObject_cases _ _ _ _ ran with ⟨_, _, _, rfl⟩ | ⟨_, _, rfl⟩
    · exact f
    · exact follows_put_commit f request.inst
  | delete request =>
    obtain rfl := Option.some.inj taken
    refine ⟨deleteObject_consistent c room request, n, ?_⟩
    rcases deleteObject_cases s.publisher request with ⟨_, ran⟩ | ⟨_, ran⟩
    · rw [ran]
      exact f
    · rw [ran]
      exact follows_delete_commit f request.oid
  | pull since =>
    rw [replicaStep] at taken
    split at taken
    · rename_i behind
      rw [lastAppliedSequence, f.applied] at behind
      obtain ⟨report, after, ran, follows⟩ := pullAndApply_follows c room f since behind
      rw [ran] at taken
      obtain rfl := Option.some.inj taken
      exact ⟨c, _, follows⟩
    · cases taken

theorem replica_run_invariant (registry : ModelRegistry) (labels : List ReplicaStep)
    (s : ReplicaPair) (reached : run replicaStep (.new registry) labels = some s)
    (room : Roomy s.publisher) : ReplicaInvariant s := by
  have kept := invariant replicaStep
    (fun s => Roomy s.publisher → ReplicaInvariant s)
    (by
      intro s l next inv taken roomNext
      have grows := replicaStep_grows s next l taken
      have roomHere : Roomy s.publisher := by
        unfold Roomy at *
        omega
      exact replicaStep_invariant s next l roomHere (inv roomHere) taken)
    labels (.new registry) s
    (fun _ => ⟨consistent_new registry, 0, follows_new registry⟩) reached
  exact kept room

/-- After any interleaving of writes on the publisher and pulls, every pull succeeds and
leaves the consumer equal to the publisher. -/
theorem replication_equivalence (registry : ModelRegistry) (labels : List ReplicaStep)
    (s : ReplicaPair) (reached : run replicaStep (.new registry) labels = some s)
    (room : Roomy s.publisher) (since : Nat)
    (behind : since ≤ s.consumer.lastAppliedSequence) :
    ∃ report after, pullAndApply s.consumer s.publisher since = some (.ok report, after) ∧
      after.store = s.publisher.store ∧ after.inactive = s.publisher.inactive ∧
      after.journal = s.publisher.journal ∧ after.sequence = s.publisher.sequence ∧
      after.appliedSequence = s.publisher.sequence := by
  obtain ⟨c, n, f⟩ := replica_run_invariant registry labels s reached room
  rw [lastAppliedSequence, f.applied] at behind
  obtain ⟨report, after, ran, follows⟩ := pullAndApply_follows c room f since behind
  exact ⟨report, after, ran, follows_all c follows⟩

def replicaFixture : List ReplicaStep := [
  .put ⟨wireInstance "a" {}⟩, .pull 0, .delete ⟨⟨"a"⟩⟩,
  .put ⟨wireInstance "a" { policy := .value "NATO" }⟩, .put ⟨wireInstance "b" {}⟩]

theorem replication_equivalence_fixture :
    ∃ s report after, run replicaStep (.new wireRegistry) replicaFixture = some s ∧
      pullAndApply s.consumer s.publisher 1 = some (.ok report, after) ∧
      after.store = s.publisher.store ∧ after.journal = s.publisher.journal := by
  have reaches : (run replicaStep (.new wireRegistry) replicaFixture).map
      (fun s => (s.publisher.journal.length, s.consumer.lastAppliedSequence)) = some (4, 1) := by
    decide +kernel
  obtain ⟨s, reached, counts⟩ := Option.map_eq_some_iff.mp reaches
  rw [Prod.mk.injEq] at counts
  obtain ⟨report, after, ran, store, _, journal, _⟩ := replication_equivalence wireRegistry
    replicaFixture s reached (by unfold Roomy u64Max; omega) 1 (by omega)
  exact ⟨s, report, after, reached, ran, store, journal⟩

end MimTransport
