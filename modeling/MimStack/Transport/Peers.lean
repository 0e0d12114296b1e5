import MimStack.Transport.Replication

/-!
One consumer pulling from several publishers. Each publisher numbers its own
journal, and the consumer has a single applied sequence, so what one publisher's
numbers have reached decides which entries of another are passed over.
-/
namespace MimTransport
open RustText KeyedLog StepRuns MimCore MimModel MimRuntime MimRuntime.InstanceStore
open ExchangeBroker

def openView (publisher : ExchangeBroker) : FederationPublisher Unit where
  fetchSync := fun since w => some (.ok (publisher.syncSince since), w)
  fetchInstance := fun oid w =>
    match publisher.getByOid ⟨oid⟩ with
    | .error e => some (.error e, w)
    | .ok response => some (.ok response.inst, w)

variable {ι : Type} [DecidableEq ι]

/-- `pulled i` says that a pull from publisher `i` has completed after its last operation. -/
structure Peers (ι : Type) where
  publishers : ι → ExchangeBroker
  consumer : ExchangeBroker
  pulled : ι → Bool

def Peers.new (registry : ι → ModelRegistry) (consumerRegistry : ModelRegistry) : Peers ι where
  publishers := fun i => .new (registry i)
  consumer := .new consumerRegistry
  pulled := fun _ => false

def Peers.advance (s : Peers ι) (i : ι) (b : ExchangeBroker) : Peers ι :=
  { s with
    publishers := Function.update s.publishers i b
    pulled := Function.update s.pulled i false }

def Peers.deliver (s : Peers ι) (i : ι) (result : Except TransportError ReplicationApplyReport)
    (c : ExchangeBroker) : Peers ι :=
  { s with consumer := c, pulled := Function.update s.pulled i (s.pulled i || result.isOk) }

inductive PeerStep (ι : Type) where
  | put (i : ι) (request : PutObjectRequest)
  | delete (i : ι) (request : DeleteObjectRequest)
  | pull (i : ι)
  | pullRemote (i : ι)

def peerStep (s : Peers ι) : PeerStep ι → Option (Peers ι)
  | .put i request => ((s.publishers i).putObject request).map fun r => s.advance i r.2
  | .delete i request => some (s.advance i ((s.publishers i).deleteObject request).2)
  | .pull i =>
    (pullAndApply s.consumer (s.publishers i) s.consumer.lastAppliedSequence).map
      fun r => s.deliver i r.1 r.2
  | .pullRemote i =>
    (pullAndApplyRemote (openView (s.publishers i)) s.consumer
      s.consumer.lastAppliedSequence ()).map fun r => s.deliver i r.1 r.2.1

/-- The publisher a step pulls from. -/
def PeerStep.source : PeerStep ι → Option ι
  | .pull i | .pullRemote i => some i
  | .put _ _ | .delete _ _ => none

/-- Publishers put objects of their own only. -/
def PeerStep.Owned (owner : ObjectIdentifier → ι) : PeerStep ι → Prop
  | .put i request => owner request.inst.oid = i
  | _ => True

/-- Nothing of a publisher the consumer has caught up with is missing at the consumer. -/
def Complete (s : Peers ι) : Prop :=
  ∀ i, s.pulled i = true → ∀ oid, Active (s.publishers i) oid → Active s.consumer oid

/-- Whatever is active at the publisher and not at the consumer was last written beyond the
consumer's applied sequence. -/
def Covers (publisher consumer : ExchangeBroker) : Prop :=
  ∀ oid, Active publisher oid → ¬ Active consumer oid →
    ∃ e, lastOn JournalEntry.key oid publisher.journal = some e ∧
      consumer.appliedSequence < e.sequence

section Replay

structure Replays (before after : ExchangeBroker) (entry : JournalEntry) : Prop where
  applied : after.appliedSequence = entry.sequence
  here : Active after entry.key ↔ entry.operation = .putObject
  elsewhere : ∀ k, k ≠ entry.key → (Active after k ↔ Active before k)

structure Replayed (start : ExchangeBroker) (done : List JournalEntry) (after : ExchangeBroker) :
    Prop where
  touched : ∀ oid e, lastOn JournalEntry.key oid done = some e →
    (Active after oid ↔ e.operation = .putObject)
  untouched : ∀ oid, (∀ e ∈ done, e.key ≠ oid) → (Active after oid ↔ Active start oid)
  grown : start.appliedSequence ≤ after.appliedSequence
  applied : ∀ e ∈ done, e.sequence ≤ after.appliedSequence

theorem replayed_nil (start : ExchangeBroker) : Replayed start [] start where
  touched := by intro oid e last; cases last
  untouched := fun _ _ => Iff.rfl
  grown := Nat.le_refl _
  applied := by intro e mem; cases mem

theorem replayed_snoc {start c after : ExchangeBroker} {done : List JournalEntry}
    {entry : JournalEntry} (r : Replayed start done c) (step : Replays c after entry)
    (ahead : c.appliedSequence < entry.sequence) : Replayed start (done ++ [entry]) after where
  touched := by
    intro oid e last
    rw [lastOn_snoc] at last
    split at last
    · rename_i same
      obtain rfl := Option.some.inj last
      rw [← same]
      exact step.here
    · rename_i other
      rw [step.elsewhere oid fun same => other same.symm]
      exact r.touched oid e last
  untouched := by
    intro oid missed
    have other := missed entry (List.mem_append_right _ (List.mem_singleton_self _))
    rw [step.elsewhere oid fun same => other same.symm]
    exact r.untouched oid fun e mem => missed e (List.mem_append_left _ mem)
  grown := by
    have := r.grown
    have := step.applied
    omega
  applied := by
    intro e mem
    rw [step.applied]
    rcases List.mem_append.mp mem with old | new
    · have := r.applied e old
      omega
    · rw [List.mem_singleton] at new
      rw [new]

def Outcome (c : ExchangeBroker) (entry : JournalEntry) (result : Except TransportError Unit)
    (after : ExchangeBroker) : Prop :=
  (∃ e, result = .error e ∧ after = c) ∨ result = .ok () ∧ Replays c after entry

section Entry

variable {c after : ExchangeBroker} {entry : JournalEntry} {result : Except TransportError Unit}

theorem replays_put {i : MimInstance} (put : entry.operation = .putObject)
    (own : i.oid = entry.oid) :
    Replays c ((c.commitPut i).setApplied entry.sequence) entry := by
  have advance := advances_commitPut c i
  refine ⟨rfl, iff_of_true ⟨?_, ?_⟩ put, ?_⟩
  · change entry.oid ∈ (c.store.insert i).keys
    rw [mem_keys, get_insert, own, if_pos rfl]
    rfl
  · change entry.oid ∉ (c.commitPut i).inactive
    rw [commitPut_inactive, own]
    exact Finset.notMem_erase _ _
  · intro k other
    exact advances_active advance k (own ▸ other)

theorem replays_delete (delete : entry.operation = .deleteObject) :
    Replays c (c.afterDeleteEntry entry) entry := by
  have kept : ¬ entry.operation = .putObject := by
    rw [delete]
    simp
  unfold afterDeleteEntry
  split
  · have advance := advances_commitDelete c entry.oid
    refine ⟨rfl, iff_of_false (fun active => active.2 ?_) kept, fun k other =>
      advances_active advance k other⟩
    exact Finset.mem_insert_self _ _
  · rename_i missing
    refine ⟨rfl, iff_of_false (fun active => missing ?_) kept, fun _ _ => Iff.rfl⟩
    exact (containsKey_iff _ _).mpr active.1

theorem outcome_of_applied {found : Option MimInstance}
    (own : ∀ i, found = some i → i.oid = entry.oid)
    (applied : EntryApplied c entry found result after) : Outcome c entry result after := by
  cases applied with
  | refused e => exact .inl ⟨e, rfl, rfl⟩
  | put i operation here accepted => exact .inr ⟨rfl, replays_put operation (own i here)⟩
  | delete operation => exact .inr ⟨rfl, replays_delete operation⟩

theorem outcome_entryFrom (publisher : ExchangeBroker)
    (ran : c.applyEntryFrom publisher entry = some (result, after)) :
    Outcome c entry result after :=
  outcome_of_applied (fun i stored => publisher.store.keyed _ i stored)
    (applyEntryFrom_applied ran)

theorem outcome_remoteEntry (i : Option MimInstance) (own : ∀ j, i = some j → j.oid = entry.oid)
    (ran : c.applyRemoteEntry entry i = some (result, after)) : Outcome c entry result after :=
  outcome_of_applied own (applyRemoteEntry_applied ran)

theorem outcome_local (publisher : ExchangeBroker)
    (ran : applyLocal publisher entry c () = some (result, after, ())) :
    Outcome c entry result after := by
  obtain ⟨⟨r, b⟩, applied, same⟩ := Option.map_eq_some_iff.mp ran
  simp only [Prod.mk.injEq, and_true] at same
  obtain ⟨rfl, rfl⟩ := same
  exact outcome_entryFrom publisher applied

theorem outcome_fetched (publisher : ExchangeBroker)
    (ran : applyFetched (openView publisher) entry c () = some (result, after, ())) :
    Outcome c entry result after := by
  unfold applyFetched at ran
  split at ran
  · split at ran
    · cases ran
    · simp only [Option.some.injEq, Prod.mk.injEq] at ran
      exact .inl ⟨_, ran.1.symm, ran.2.1.symm⟩
    · rename_i i w fetched
      obtain ⟨⟨r, b⟩, applied, same⟩ := Option.map_eq_some_iff.mp ran
      simp only [Prod.mk.injEq] at same
      obtain ⟨rfl, rfl, _⟩ := same
      refine outcome_remoteEntry (some i) ?_ applied
      rintro j same
      obtain rfl := Option.some.inj same
      simp only [openView] at fetched
      split at fetched
      · simp at fetched
      · rename_i response found
        simp only [Option.some.injEq, Prod.mk.injEq, Except.ok.injEq, and_true] at fetched
        rw [← fetched]
        exact publisher.store.keyed _ _ ((getByOid_ok_iff _ _ _).mp found).2
  · obtain ⟨⟨r, b⟩, applied, same⟩ := Option.map_eq_some_iff.mp ran
    simp only [Prod.mk.injEq] at same
    obtain ⟨rfl, rfl, _⟩ := same
    exact outcome_remoteEntry none (by intro j same; cases same) applied

end Entry

theorem replay_replayed (body : EntryBody Unit)
    (outcome : ∀ entry c result after, body entry c () = some (result, after, ()) →
      Outcome c entry result after)
    (start after : ExchangeBroker) (entries : List JournalEntry)
    (sorted : (entries.map JournalEntry.sequence).Pairwise (· < ·))
    (ahead : ∀ e ∈ entries, start.appliedSequence < e.sequence)
    (result : Except TransportError (Nat × Nat))
    (ran : replayEntries body entries 0 0 start () = some (result, after, ())) :
    ∃ done, (∀ e ∈ done, e ∈ entries) ∧ Replayed start done after ∧
      (result.isOk = true → done = entries) := by
  have kept := replayEntries_invariant body
    (fun rest c _ => ∃ done, done ++ rest = entries ∧ Replayed start done c ∧
      ∀ e ∈ rest, c.appliedSequence < e.sequence)
    (by
      rintro entry rest c w ⟨done, _, _, later⟩ passed
      have := later entry List.mem_cons_self
      omega)
    (fun c _ => ∃ done, (∀ e ∈ done, e ∈ entries) ∧ Replayed start done c)
    (by
      rintro entry rest c w mid w' ⟨done, split, r, later⟩ beyond taken
      rcases outcome entry c _ mid taken with ⟨e, impossible, _⟩ | ⟨_, step⟩
      · cases impossible
      · refine ⟨done ++ [entry], by simp [split], replayed_snoc r step beyond, ?_⟩
        rw [← split, List.map_append, List.pairwise_append, List.map_cons,
          List.pairwise_cons] at sorted
        intro e mem
        rw [step.applied]
        exact sorted.2.1.1 _ (List.mem_map_of_mem mem))
    (by
      rintro entry rest c w e mid w' ⟨done, split, r, _⟩ _ stopped
      rcases outcome entry c _ mid stopped with ⟨_, _, rfl⟩ | ⟨impossible, _⟩
      · refine ⟨done, fun f mem => ?_, r⟩
        rw [← split]
        exact List.mem_append_left _ mem
      · cases impossible)
    entries 0 0 start () result after () ⟨[], rfl, replayed_nil start, ahead⟩ ran
  rcases kept with ⟨_, _, done, split, r, _⟩ | ⟨e, failed, done, listed, r⟩
  · rw [List.append_nil] at split
    exact ⟨done, fun e mem => split ▸ mem, r, fun _ => split⟩
  · refine ⟨done, listed, r, ?_⟩
    rw [failed]
    intro impossible
    cases impossible

end Replay

section Pull

variable {publisher consumer after : ExchangeBroker}
variable {result : Except TransportError ReplicationApplyReport} (c : Consistent publisher)

def Applied (publisher consumer : ExchangeBroker)
    (result : Except TransportError ReplicationApplyReport) (after : ExchangeBroker) : Prop :=
  ∃ done, (∀ e ∈ done, e ∈ (publisher.syncSince consumer.appliedSequence).entries) ∧
    Replayed consumer done after ∧
    (result.isOk = true → done = (publisher.syncSince consumer.appliedSequence).entries)

theorem mem_syncSince (since : Nat) (e : JournalEntry) :
    e ∈ (publisher.syncSince since).entries ↔ e ∈ publisher.journal ∧ since < e.sequence := by
  simp [ExchangeBroker.syncSince]

include c

theorem replay_applied (body : EntryBody Unit)
    (outcome : ∀ entry b r d, body entry b () = some (r, d, ()) → Outcome b entry r d)
    (counts : Except TransportError (Nat × Nat))
    (ran : replayEntries body (publisher.syncSince consumer.appliedSequence).entries 0 0 consumer
      () = some (counts, after, ())) :
    Applied publisher consumer (report (publisher.syncSince consumer.appliedSequence) counts)
      after := by
  have sorted : ((publisher.syncSince consumer.appliedSequence).entries.map
      JournalEntry.sequence).Pairwise (· < ·) :=
    (numbered_sorted c.numbered).sublist (List.filter_sublist.map _)
  obtain ⟨done, listed, r, all⟩ := replay_replayed body outcome consumer after _ sorted
    (fun e mem => ((mem_syncSince _ e).mp mem).2) counts ran
  refine ⟨done, listed, r, fun ok => all ?_⟩
  cases counts with
  | error e => cases ok
  | ok counts => rfl

theorem pull_applied
    (ran : pullAndApply consumer publisher consumer.lastAppliedSequence = some (result, after)) :
    Applied publisher consumer result after := by
  obtain ⟨⟨counts, b, u⟩, replayed, same⟩ := Option.map_eq_some_iff.mp ran
  simp only [Prod.mk.injEq] at same
  obtain ⟨rfl, rfl⟩ := same
  exact replay_applied c (applyLocal publisher) (fun _ _ _ _ => outcome_local publisher) counts
    replayed

theorem pullRemote_applied (u : Unit)
    (ran : pullAndApplyRemote (openView publisher) consumer consumer.lastAppliedSequence () =
      some (result, after, u)) : Applied publisher consumer result after := by
  obtain ⟨⟨counts, b, v⟩, replayed, same⟩ := Option.map_eq_some_iff.mp ran
  simp only [Prod.mk.injEq] at same
  obtain ⟨rfl, rfl, _⟩ := same
  exact replay_applied c (applyFetched (openView publisher))
    (fun _ _ _ _ => outcome_fetched publisher) counts replayed

variable (a : Applied publisher consumer result after) (ok : result.isOk = true)
include a ok

theorem pull_complete_iff :
    (∀ oid, Active publisher oid → Active after oid) ↔ Covers publisher consumer := by
  obtain ⟨done, _, r, all⟩ := a
  obtain rfl := all ok
  have missed : ∀ oid e, lastOn JournalEntry.key oid publisher.journal = some e →
      e.sequence ≤ consumer.appliedSequence →
      ∀ f ∈ (publisher.syncSince consumer.appliedSequence).entries, f.key ≠ oid := by
    intro oid e last passed f mem on
    obtain ⟨inJournal, beyond⟩ := (mem_syncSince _ f).mp mem
    have := number_le_lastOn JournalEntry.key c.numbered last inJournal on
    omega
  constructor
  · intro complete oid active absent
    obtain ⟨e, last, _⟩ := (active_iff_last c oid).mp active
    refine ⟨e, last, ?_⟩
    by_contra passed
    exact absent ((r.untouched oid (missed oid e last (by omega))).mp (complete oid active))
  · intro covers oid active
    obtain ⟨e, last, put⟩ := (active_iff_last c oid).mp active
    by_cases beyond : consumer.appliedSequence < e.sequence
    · exact (r.touched oid e (lastOn_filter JournalEntry.key _ last (by simpa using beyond))).mpr put
    · rw [r.untouched oid (missed oid e last (by omega))]
      by_contra absent
      obtain ⟨f, last', ahead⟩ := covers oid active absent
      rw [last] at last'
      exact beyond (Option.some.inj last' ▸ ahead)

theorem pull_reaches : publisher.journal.length ≤ after.appliedSequence := by
  obtain ⟨done, _, r, all⟩ := a
  obtain rfl := all ok
  rcases Nat.eq_zero_or_pos publisher.journal.length with empty | positive
  · omega
  · let last := publisher.journal[publisher.journal.length - 1]
    have here : publisher.journal[publisher.journal.length - 1]? = some last :=
      List.getElem?_eq_getElem _
    have number := numbered_getElem c.numbered here
    by_cases beyond : consumer.appliedSequence < last.sequence
    · have := r.applied last ((mem_syncSince _ last).mpr ⟨List.mem_of_getElem? here, beyond⟩)
      omega
    · have := r.grown
      omega

end Pull

section Owned

variable {owner : ObjectIdentifier → ι} {i : ι} {b : ExchangeBroker}
variable (owned : ∀ e ∈ b.journal, owner e.key = i)
include owned

omit [DecidableEq ι] in
theorem owned_put {after : ExchangeBroker} {request : PutObjectRequest}
    {result : Except TransportError PutObjectResponse} (own : owner request.inst.oid = i)
    (ran : b.putObject request = some (result, after)) : ∀ e ∈ after.journal, owner e.key = i := by
  rcases putObject_cases _ _ _ _ ran with ⟨_, _, _, rfl⟩ | ⟨_, _, rfl⟩
  · exact owned
  · rw [commitPut_journal]
    exact List.forall_mem_append.mpr ⟨owned, List.forall_mem_singleton.mpr own⟩

omit [DecidableEq ι] in
theorem owned_delete (consistent : Consistent b) (request : DeleteObjectRequest) :
    ∀ e ∈ (b.deleteObject request).2.journal, owner e.key = i := by
  rcases deleteObject_cases b request with ⟨_, ran⟩ | ⟨stored, ran⟩
  · rw [ran]
    exact owned
  · have known := (containsKey_iff _ _).mp stored
    rw [consistent.keys, mem_keysOf] at known
    obtain ⟨f, mem, same⟩ := known
    have own : owner request.oid = i := same ▸ owned f mem
    rw [ran, commitDelete_journal]
    exact List.forall_mem_append.mpr ⟨owned, List.forall_mem_singleton.mpr own⟩

end Owned

structure Orderly (owner : ObjectIdentifier → ι) (s : Peers ι) : Prop where
  consistent : ∀ i, Consistent (s.publishers i)
  owned : ∀ i, ∀ e ∈ (s.publishers i).journal, owner e.key = i
  reached : ∀ i, s.pulled i = true →
    (s.publishers i).journal.length ≤ s.consumer.appliedSequence

omit [DecidableEq ι] in
theorem orderly_new (owner : ObjectIdentifier → ι) (registry : ι → ModelRegistry)
    (consumerRegistry : ModelRegistry) : Orderly owner (Peers.new registry consumerRegistry) where
  consistent := fun i => consistent_new (registry i)
  owned := by intro i e mem; cases mem
  reached := by intro i pulled; cases pulled

def Admissible (owner : ObjectIdentifier → ι) (_ : Peers ι) (l : PeerStep ι) (next : Peers ι) :
    Prop :=
  l.Owned owner ∧ ∀ i, Roomy (next.publishers i)

/-- A pull that leaves its publisher caught up with was not going to pass over anything. -/
def PullCovers (s : Peers ι) (l : PeerStep ι) (next : Peers ι) : Prop :=
  ∀ i, l.source = some i → next.pulled i = true → Covers (s.publishers i) s.consumer

section Step

variable {owner : ObjectIdentifier → ι} {s : Peers ι} (o : Orderly owner s) (full : Complete s)
include o full

theorem advance_step (i : ι) (b : ExchangeBroker) (consistent : Consistent b)
    (owned : ∀ e ∈ b.journal, owner e.key = i) :
    Complete (s.advance i b) ∧ Orderly owner (s.advance i b) := by
  refine ⟨?_, ?_, ?_, ?_⟩
  · intro j pulled oid active
    by_cases same : j = i
    · simp [Peers.advance, same] at pulled
    · simp only [Peers.advance, Function.update_of_ne same] at pulled active
      exact full j pulled oid active
  · intro j
    by_cases same : j = i
    · subst same
      simpa [Peers.advance] using consistent
    · simpa [Peers.advance, same] using o.consistent j
  · intro j
    by_cases same : j = i
    · subst same
      simpa [Peers.advance] using owned
    · simpa [Peers.advance, same] using o.owned j
  · intro j pulled
    by_cases same : j = i
    · simp [Peers.advance, same] at pulled
    · simp only [Peers.advance, Function.update_of_ne same] at pulled ⊢
      exact o.reached j pulled

section Delivery

omit o full in
theorem deliver_pulled_self (i : ι) (result : Except TransportError ReplicationApplyReport)
    (c : ExchangeBroker) :
    (s.deliver i result c).pulled i = true ↔ s.pulled i = true ∨ result.isOk = true := by
  simp [Peers.deliver]

omit o full in
theorem deliver_pulled_other {i j : ι} (result : Except TransportError ReplicationApplyReport)
    (c : ExchangeBroker) (other : j ≠ i) : (s.deliver i result c).pulled j = s.pulled j := by
  simp [Peers.deliver, other]

variable {i : ι} {result : Except TransportError ReplicationApplyReport} {c : ExchangeBroker}
variable (a : Applied (s.publishers i) s.consumer result c)
include a

omit full [DecidableEq ι] in
theorem applied_elsewhere {j : ι} (other : j ≠ i) {oid : ObjectIdentifier}
    (active : Active (s.publishers j) oid) : Active c oid ↔ Active s.consumer oid := by
  obtain ⟨done, listed, r, _⟩ := a
  apply r.untouched oid
  intro e mem same
  obtain ⟨f, last, _⟩ := (active_iff_last (o.consistent j) oid).mp active
  obtain ⟨inJournal, key⟩ := lastOn_mem JournalEntry.key last
  have mine := o.owned i e ((mem_syncSince _ e).mp (listed e mem)).1
  have theirs := o.owned j f inJournal
  rw [key, ← same, mine] at theirs
  exact other theirs.symm

omit full [DecidableEq ι] in
theorem applied_caughtUp (pulled : s.pulled i = true) (oid : ObjectIdentifier) :
    Active c oid ↔ Active s.consumer oid := by
  obtain ⟨done, listed, r, _⟩ := a
  apply r.untouched oid
  intro e mem
  obtain ⟨inJournal, beyond⟩ := (mem_syncSince _ e).mp (listed e mem)
  have within := numbered_le (o.consistent i).numbered inJournal
  have reached := o.reached i pulled
  omega

theorem deliver_here_iff (pulled : (s.deliver i result c).pulled i = true) :
    (∀ oid, Active (s.publishers i) oid → Active c oid) ↔
      Covers (s.publishers i) s.consumer := by
  rcases (deliver_pulled_self i result c).mp pulled with before | ok
  · apply iff_of_true
    · intro oid active
      exact (applied_caughtUp o a before oid).mpr (full i before oid active)
    · intro oid active absent
      exact absurd (full i before oid active) absent
  · exact pull_complete_iff (o.consistent i) a ok

omit full in
theorem deliver_reached {j : ι} (pulled : (s.deliver i result c).pulled j = true) :
    (s.publishers j).journal.length ≤ c.appliedSequence := by
  have grown : s.consumer.appliedSequence ≤ c.appliedSequence := by
    obtain ⟨_, _, r, _⟩ := a
    exact r.grown
  by_cases same : j = i
  · subst same
    rcases (deliver_pulled_self j result c).mp pulled with before | ok
    · exact Nat.le_trans (o.reached j before) grown
    · exact pull_reaches (o.consistent j) a ok
  · rw [deliver_pulled_other _ _ same] at pulled
    exact Nat.le_trans (o.reached j pulled) grown

end Delivery

theorem deliver_step (i : ι) (result : Except TransportError ReplicationApplyReport)
    (c : ExchangeBroker) (a : Applied (s.publishers i) s.consumer result c) :
    (Complete (s.deliver i result c) ↔
        ((s.deliver i result c).pulled i = true → Covers (s.publishers i) s.consumer)) ∧
      Orderly owner (s.deliver i result c) := by
  refine ⟨⟨?_, ?_⟩, o.consistent, o.owned, fun j => deliver_reached o a⟩
  · intro complete pulled
    exact (deliver_here_iff o full a pulled).mp (complete i pulled)
  · intro covers j pulled
    by_cases same : j = i
    · subst same
      exact (deliver_here_iff o full a pulled).mpr (covers pulled)
    · rw [deliver_pulled_other _ _ same] at pulled
      intro oid active
      exact (applied_elsewhere o a same active).mpr (full j pulled oid active)

end Step

theorem peerStep_complete_iff (owner : ObjectIdentifier → ι) (s : Peers ι) (l : PeerStep ι)
    (next : Peers ι) (inv : Complete s ∧ Orderly owner s) (taken : peerStep s l = some next)
    (allowed : Admissible owner s l next) :
    (Complete next ↔ PullCovers s l next) ∧ (Complete next → Complete next ∧ Orderly owner next) := by
  obtain ⟨full, o⟩ := inv
  obtain ⟨owned, room⟩ := allowed
  have written : ∀ i b, next = s.advance i b → l.source = none →
      Consistent b → (∀ e ∈ b.journal, owner e.key = i) →
      (Complete next ↔ PullCovers s l next) ∧
        (Complete next → Complete next ∧ Orderly owner next) := by
    rintro i b rfl nothing consistent mine
    have kept := advance_step o full i b consistent mine
    refine ⟨iff_of_true kept.1 ?_, fun _ => kept⟩
    intro j source
    rw [nothing] at source
    cases source
  have delivered : ∀ i result c, next = s.deliver i result c → l.source = some i →
      Applied (s.publishers i) s.consumer result c →
      (Complete next ↔ PullCovers s l next) ∧
        (Complete next → Complete next ∧ Orderly owner next) := by
    rintro i result c rfl source applied
    obtain ⟨exact', kept⟩ := deliver_step o full i result c applied
    refine ⟨exact'.trans ?_, fun complete => ⟨complete, kept⟩⟩
    unfold PullCovers
    rw [source]
    exact ⟨fun covers j same => Option.some.inj same ▸ covers, fun covers => covers i rfl⟩
  cases l with
  | put i request =>
    obtain ⟨⟨result, b⟩, ran, rfl⟩ := Option.map_eq_some_iff.mp taken
    have roomNext : Roomy b := by simpa [Peers.advance] using room i
    have roomHere := roomy_of_grown (journal_grows_put ran) roomNext
    exact written i b rfl rfl (putObject_consistent (o.consistent i) roomHere ran)
      (owned_put (o.owned i) owned ran)
  | delete i request =>
    obtain rfl := Option.some.inj taken
    have roomNext : Roomy ((s.publishers i).deleteObject request).2 := by
      simpa [Peers.advance] using room i
    have roomHere := roomy_of_grown (journal_grows_delete _ request) roomNext
    exact written i _ rfl rfl (deleteObject_consistent (o.consistent i) roomHere request)
      (owned_delete (o.owned i) (o.consistent i) request)
  | pull i =>
    obtain ⟨⟨result, c⟩, ran, rfl⟩ := Option.map_eq_some_iff.mp taken
    exact delivered i result c rfl rfl (pull_applied (o.consistent i) ran)
  | pullRemote i =>
    obtain ⟨⟨result, c, u⟩, ran, rfl⟩ := Option.map_eq_some_iff.mp taken
    exact delivered i result c rfl rfl (pullRemote_applied (o.consistent i) u ran)

omit [DecidableEq ι] in
theorem complete_new (registry : ι → ModelRegistry) (consumerRegistry : ModelRegistry) :
    Complete (Peers.new registry consumerRegistry) := by
  intro i pulled
  cases pulled

theorem peerStep_roomy (s : Peers ι) (l : PeerStep ι) (next : Peers ι)
    (taken : peerStep s l = some next) (room : ∀ i, Roomy (next.publishers i)) (i : ι) :
    Roomy (s.publishers i) := by
  have written : ∀ j b, next = s.advance j b → (s.publishers j).journal.length ≤ b.journal.length →
      Roomy (s.publishers i) := by
    rintro j b rfl grown
    have after := room i
    by_cases same : i = j
    · subst same
      simp only [Peers.advance, Function.update_self] at after
      exact roomy_of_grown grown after
    · simpa only [Peers.advance, Function.update_of_ne same] using after
  cases l with
  | put j request =>
    obtain ⟨⟨result, b⟩, ran, rfl⟩ := Option.map_eq_some_iff.mp taken
    exact written j b rfl (journal_grows_put ran)
  | delete j request =>
    obtain rfl := Option.some.inj taken
    exact written j _ rfl (journal_grows_delete _ request)
  | pull j =>
    obtain ⟨_, _, rfl⟩ := Option.map_eq_some_iff.mp taken
    exact room i
  | pullRemote j =>
    obtain ⟨_, _, rfl⟩ := Option.map_eq_some_iff.mp taken
    exact room i

/-- Over whole runs: no state ever misses an object of a publisher the consumer has caught up
with if and only if no completed pull passes over an object that is missing. -/
theorem run_complete_iff (registry : ι → ModelRegistry) (consumerRegistry : ModelRegistry)
    (owner : ObjectIdentifier → ι) (labels : List (PeerStep ι))
    (owned : ∀ l ∈ labels, l.Owned owner) (s : Peers ι)
    (reached : run peerStep (.new registry consumerRegistry) labels = some s)
    (room : ∀ i, Roomy (s.publishers i)) :
    EveryStep peerStep (fun _ _ next => Complete next) (.new registry consumerRegistry) labels ↔
      EveryStep peerStep PullCovers (.new registry consumerRegistry) labels := by
  have allowed := (everyStep_of_final peerStep (PeerStep.Owned owner)
    (fun t => ∀ i, Roomy (t.publishers i)) peerStep_roomy labels _ s owned reached room).2
  exact everyStep_iff_within peerStep (fun t => Complete t ∧ Orderly owner t) (Admissible owner)
    (fun _ _ next => Complete next) PullCovers (peerStep_complete_iff owner) labels _
    ⟨complete_new registry consumerRegistry, orderly_new owner registry consumerRegistry⟩ allowed

def ownerFixture (oid : ObjectIdentifier) : Bool := oid == ⟨"b"⟩

def twoPeers : Peers Bool := .new (fun _ => wireRegistry) wireRegistry

def coveredFixture : List (PeerStep Bool) := [
  .put false ⟨wireInstance "a" {}⟩, .pull false,
  .put true ⟨wireInstance "b" {}⟩, .delete true ⟨⟨"b"⟩⟩, .put true ⟨wireInstance "b" {}⟩,
  .pullRemote true]

def passedOverFixture : List (PeerStep Bool) := [
  .put false ⟨wireInstance "a" {}⟩, .put true ⟨wireInstance "b" {}⟩, .pull false, .pull true]

theorem run_complete_fixture :
    EveryStep peerStep (fun _ _ next => Complete next) twoPeers coveredFixture ↔
      EveryStep peerStep PullCovers twoPeers coveredFixture := by
  have reaches : (run peerStep twoPeers coveredFixture).map (fun s =>
      ((s.publishers false).journal.length, (s.publishers true).journal.length)) =
      some (1, 3) := by
    decide +kernel
  obtain ⟨s, reached, lengths⟩ := Option.map_eq_some_iff.mp reaches
  rw [Prod.mk.injEq] at lengths
  refine run_complete_iff (fun _ => wireRegistry) wireRegistry ownerFixture coveredFixture ?_ s
    reached ?_
  · simp [coveredFixture, PeerStep.Owned, ownerFixture, wireInstance]
  · intro i
    cases i with
    | false => unfold Roomy u64Max; omega
    | true => unfold Roomy u64Max; omega

/-- The first publisher's numbers pass over the second publisher's only object. -/
theorem second_publisher_passed_over :
    ¬ ∀ (ι : Type) [DecidableEq ι] (registry : ι → ModelRegistry)
        (consumerRegistry : ModelRegistry) (owner : ObjectIdentifier → ι)
        (labels : List (PeerStep ι)) (s : Peers ι),
      (∀ l ∈ labels, l.Owned owner) →
      run peerStep (.new registry consumerRegistry) labels = some s →
      (∀ i, s.pulled i = true) →
      ∀ i oid, Active (s.publishers i) oid → Active s.consumer oid := by
  intro claim
  have reaches : (run peerStep twoPeers passedOverFixture).map (fun s =>
      (s.pulled false, s.pulled true, decide (⟨"b"⟩ ∈ (s.publishers true).store.keys),
        decide (⟨"b"⟩ ∈ (s.publishers true).inactive),
        decide (⟨"b"⟩ ∈ s.consumer.store.keys))) = some (true, true, true, false, false) := by
    decide +kernel
  obtain ⟨s, reached, observed⟩ := Option.map_eq_some_iff.mp reaches
  simp only [Prod.mk.injEq, decide_eq_true_eq, decide_eq_false_iff_not] at observed
  obtain ⟨first, second, stored, alive, absent⟩ := observed
  refine absent (claim Bool (fun _ => wireRegistry) wireRegistry ownerFixture passedOverFixture s
    ?_ reached ?_ true ⟨"b"⟩ ⟨stored, alive⟩).1
  · simp [passedOverFixture, PeerStep.Owned, ownerFixture, wireInstance]
  · intro i
    cases i with
    | false => exact first
    | true => exact second

end MimTransport
