import MimStack.Transport.Broker

/-!
What the journal of a broker says about its store. Entries carry no content, so
the journal determines the stored keys in order and the inactive set, and the
store alone knows the current instance under each key.
-/
namespace MimTransport
open RustText KeyedLog MimCore MimModel MimRuntime MimRuntime.InstanceStore ExchangeBroker

def JournalEntry.isDelete (entry : JournalEntry) : Bool := entry.operation == .deleteObject

abbrev JournalEntry.key : JournalEntry → ObjectIdentifier := JournalEntry.oid

/-- The journal accounts for the stored keys, their order and the inactive set, and every
stored instance passes the registry's validation. -/
structure Consistent (b : ExchangeBroker) : Prop where
  keys : b.store.keys = keysOf JournalEntry.key b.journal
  inactive : b.inactive = retiredOf JournalEntry.key JournalEntry.isDelete b.journal
  numbered : Numbered JournalEntry.sequence b.journal
  sequence : b.sequence = b.journal.length
  accepted : ∀ k i, b.store.get k = some i → validatePut b.registry i = some (.ok ())
  replicable : ∀ e ∈ b.journal, e.operation = .putObject ∨ e.operation = .deleteObject
  introduced : ∀ n e, b.journal[n]? = some e → e.isDelete = true →
    e.key ∈ keysOf JournalEntry.key (b.journal.take n)

theorem consistent_new (registry : ModelRegistry) : Consistent (.new registry) where
  keys := rfl
  inactive := rfl
  numbered := rfl
  sequence := rfl
  accepted := by intro k i stored; cases stored
  replicable := by intro e mem; cases mem
  introduced := by intro n e here; simp [ExchangeBroker.new] at here

/-- A journal never outgrows a 64-bit counter while this holds. -/
def Roomy (b : ExchangeBroker) : Prop := b.journal.length < u64Max

theorem roomy_of_grown {b after : ExchangeBroker} (grown : b.journal.length ≤ after.journal.length)
    (room : Roomy after) : Roomy b :=
  Nat.lt_of_le_of_lt grown room

theorem saturatingAdd_one {n : Nat} (room : n < u64Max) : saturatingAdd n 1 = n + 1 := by
  unfold saturatingAdd
  omega

theorem introduced_snoc {journal : List JournalEntry} {e : JournalEntry}
    (before : ∀ n f, journal[n]? = some f → f.isDelete = true →
      f.key ∈ keysOf JournalEntry.key (journal.take n))
    (last : e.isDelete = true → e.key ∈ keysOf JournalEntry.key journal) (n : Nat)
    (f : JournalEntry) (here : (journal ++ [e])[n]? = some f) (gone : f.isDelete = true) :
    f.key ∈ keysOf JournalEntry.key ((journal ++ [e]).take n) := by
  rcases Nat.lt_trichotomy n journal.length with inside | atEnd | beyond
  · rw [List.getElem?_append_left inside] at here
    rw [List.take_append_of_le_length (Nat.le_of_lt inside)]
    exact before n f here gone
  · subst atEnd
    simp only [List.getElem?_concat_length, Option.some.injEq] at here
    subst here
    rw [List.take_append_of_le_length (Nat.le_refl _), List.take_length]
    exact last gone
  · have none' : (journal ++ [e])[n]? = none := by
      rw [List.getElem?_eq_none_iff, List.length_append, List.length_singleton]
      omega
    rw [none'] at here
    cases here

theorem commitPut_consistent {b : ExchangeBroker} (c : Consistent b) (room : Roomy b)
    (i : MimInstance) (accepted : validatePut b.registry i = some (.ok ())) :
    Consistent (b.commitPut i) := by
  have next : saturatingAdd b.sequence 1 = b.journal.length + 1 := by
    rw [c.sequence, saturatingAdd_one room]
  refine ⟨?_, ?_, ?_, ?_, ?_, ?_, ?_⟩
  · rw [commitPut_store, keys_insert, c.keys, commitPut_journal, keysOf_snoc]
  · rw [commitPut_inactive, c.inactive, commitPut_journal, retiredOf_snoc]
    rfl
  · rw [commitPut_journal]
    exact numbered_snoc c.numbered next
  · rw [commitPut_sequence, next, commitPut_journal, List.length_append, List.length_singleton]
  · intro k j stored
    rw [commitPut_store, get_insert] at stored
    split at stored
    · rw [← Option.some.inj stored, commitPut_registry]
      exact accepted
    · exact c.accepted k j stored
  · intro e mem
    rw [commitPut_journal, List.mem_append, List.mem_singleton] at mem
    rcases mem with old | rfl
    · exact c.replicable e old
    · exact .inl rfl
  · rw [commitPut_journal]
    exact introduced_snoc c.introduced (by simp [JournalEntry.isDelete])

theorem commitDelete_consistent {b : ExchangeBroker} (c : Consistent b) (room : Roomy b)
    (oid : ObjectIdentifier) (stored : b.storeContains oid = true) :
    Consistent (b.commitDelete oid) := by
  have next : saturatingAdd b.sequence 1 = b.journal.length + 1 := by
    rw [c.sequence, saturatingAdd_one room]
  have known : oid ∈ keysOf JournalEntry.key b.journal := by
    rw [← c.keys]
    exact (containsKey_iff b.store oid).mp stored
  refine ⟨?_, ?_, ?_, ?_, c.accepted, ?_, ?_⟩
  · rw [commitDelete_store, c.keys, commitDelete_journal, keysOf_snoc, if_pos known]
  · rw [commitDelete_inactive, c.inactive, commitDelete_journal, retiredOf_snoc]
    rfl
  · rw [commitDelete_journal]
    exact numbered_snoc c.numbered next
  · rw [commitDelete_sequence, next, commitDelete_journal, List.length_append,
      List.length_singleton]
  · intro e mem
    rw [commitDelete_journal, List.mem_append, List.mem_singleton] at mem
    rcases mem with old | rfl
    · exact c.replicable e old
    · exact .inr rfl
  · rw [commitDelete_journal]
    exact introduced_snoc c.introduced fun _ => known

theorem setApplied_consistent {b : ExchangeBroker} (c : Consistent b) (n : Nat) :
    Consistent (b.setApplied n) :=
  ⟨c.keys, c.inactive, c.numbered, c.sequence, c.accepted, c.replicable, c.introduced⟩

theorem putObject_consistent {b after : ExchangeBroker} {request : PutObjectRequest}
    {result : Except TransportError PutObjectResponse} (c : Consistent b) (room : Roomy b)
    (ran : b.putObject request = some (result, after)) : Consistent after := by
  rcases putObject_cases b request result after ran with ⟨_, _, _, rfl⟩ | ⟨accepted, _, rfl⟩
  · exact c
  · exact commitPut_consistent c room request.inst accepted

theorem deleteObject_consistent {b : ExchangeBroker} (c : Consistent b) (room : Roomy b)
    (request : DeleteObjectRequest) : Consistent (b.deleteObject request).2 := by
  rcases deleteObject_cases b request with ⟨_, ran⟩ | ⟨stored, ran⟩
  · rw [ran]
    exact c
  · rw [ran]
    exact commitDelete_consistent c room request.oid stored

theorem afterDeleteEntry_consistent {b : ExchangeBroker} (c : Consistent b) (room : Roomy b)
    (entry : JournalEntry) : Consistent (b.afterDeleteEntry entry) := by
  unfold afterDeleteEntry
  refine setApplied_consistent ?_ _
  split
  · rename_i stored
    exact commitDelete_consistent c room entry.oid stored
  · exact c

theorem journal_grows_put {b after : ExchangeBroker} {request : PutObjectRequest}
    {result : Except TransportError PutObjectResponse}
    (ran : b.putObject request = some (result, after)) :
    b.journal.length ≤ after.journal.length := by
  rcases putObject_cases b request result after ran with ⟨_, _, _, rfl⟩ | ⟨_, _, rfl⟩
  · exact Nat.le_refl _
  · rw [commitPut_journal, List.length_append]
    exact Nat.le_add_right _ _

theorem journal_grows_delete (b : ExchangeBroker) (request : DeleteObjectRequest) :
    b.journal.length ≤ (b.deleteObject request).2.journal.length := by
  rcases deleteObject_cases b request with ⟨_, ran⟩ | ⟨_, ran⟩
  · rw [ran]
  · rw [ran, commitDelete_journal, List.length_append]
    exact Nat.le_add_right _ _

/-- An object is active when it is stored and not marked inactive. -/
def Active (b : ExchangeBroker) (oid : ObjectIdentifier) : Prop :=
  oid ∈ b.store.keys ∧ oid ∉ b.inactive

section Reading

variable {b : ExchangeBroker} (c : Consistent b)
include c

theorem active_iff_last (oid : ObjectIdentifier) :
    Active b oid ↔
      ∃ e, lastOn JournalEntry.key oid b.journal = some e ∧ e.operation = .putObject := by
  unfold Active
  rw [c.keys, c.inactive, mem_keysOf, mem_retiredOf]
  constructor
  · rintro ⟨⟨e, mem, on⟩, alive⟩
    cases last : lastOn JournalEntry.key oid b.journal with
    | none => exact absurd on ((lastOn_eq_none _ _ _).mp last e mem)
    | some f =>
      refine ⟨f, rfl, ?_⟩
      rcases c.replicable f (lastOn_mem _ last).1 with put | delete
      · exact put
      · exact absurd ⟨f, last, by simp [JournalEntry.isDelete, delete]⟩ alive
  · rintro ⟨e, last, put⟩
    refine ⟨⟨e, (lastOn_mem _ last).1, (lastOn_mem _ last).2⟩, ?_⟩
    rintro ⟨f, last', gone⟩
    rw [last] at last'
    rw [← Option.some.inj last'] at gone
    simp [JournalEntry.isDelete, put] at gone

theorem inactive_iff_last (oid : ObjectIdentifier) :
    oid ∈ b.inactive ↔
      ∃ e, lastOn JournalEntry.key oid b.journal = some e ∧ e.operation = .deleteObject := by
  rw [c.inactive, mem_retiredOf]
  simp [JournalEntry.isDelete]

theorem syncSince_entries (since : Nat) : (b.syncSince since).entries = b.journal.drop since :=
  filter_after c.numbered since

end Reading

structure Advances (before after : ExchangeBroker) (oid : ObjectIdentifier) : Prop where
  registry : after.registry = before.registry
  journal : ∃ operation, after.journal =
    before.journal ++ [⟨saturatingAdd before.sequence 1, operation, oid⟩]
  store : ∀ k, k ≠ oid → after.store.get k = before.store.get k
  inactive : ∀ k, k ≠ oid → (k ∈ after.inactive ↔ k ∈ before.inactive)
  applied : after.appliedSequence = before.appliedSequence

theorem advances_commitPut (b : ExchangeBroker) (i : MimInstance) :
    Advances b (b.commitPut i) i.oid where
  registry := rfl
  journal := ⟨.putObject, rfl⟩
  store := by
    intro k other
    rw [commitPut_store, get_insert, if_neg other]
  inactive := by
    intro k other
    rw [commitPut_inactive, Finset.mem_erase]
    exact ⟨fun gone => gone.2, fun gone => ⟨other, gone⟩⟩
  applied := rfl

theorem advances_commitDelete (b : ExchangeBroker) (oid : ObjectIdentifier) :
    Advances b (b.commitDelete oid) oid where
  registry := rfl
  journal := ⟨.deleteObject, rfl⟩
  store := by
    intro k other
    rfl
  inactive := by
    intro k other
    rw [commitDelete_inactive, Finset.mem_insert]
    exact ⟨fun gone => gone.resolve_left other, .inr⟩
  applied := rfl

theorem advances_grows {before after : ExchangeBroker} {oid : ObjectIdentifier}
    (a : Advances before after oid) : after.journal.length = before.journal.length + 1 := by
  obtain ⟨operation, journal⟩ := a.journal
  rw [journal, List.length_append, List.length_singleton]

theorem advances_active {before after : ExchangeBroker} {oid : ObjectIdentifier}
    (a : Advances before after oid) (k : ObjectIdentifier) (other : k ≠ oid) :
    Active after k ↔ Active before k := by
  unfold Active
  rw [mem_keys, mem_keys, a.store k other, a.inactive k other]

def LastEntry (b : ExchangeBroker) (e : JournalEntry) : Prop :=
  lastOn JournalEntry.key e.key b.journal = some e

theorem lastEntry_mem {b : ExchangeBroker} {e : JournalEntry} (last : LastEntry b e) :
    e ∈ b.journal :=
  (lastOn_mem JournalEntry.key last).1

theorem lastEntry_advance {before after : ExchangeBroker} {oid : ObjectIdentifier}
    (advance : Advances before after oid) (c : Consistent before) (room : Roomy before)
    (e : JournalEntry) (last : LastEntry after e) :
    e.sequence = before.journal.length + 1 ∨ e.key ≠ oid ∧ LastEntry before e := by
  obtain ⟨operation, journal⟩ := advance.journal
  unfold LastEntry at last
  rw [journal, lastOn_snoc] at last
  split at last
  · left
    obtain rfl := Option.some.inj last
    change saturatingAdd before.sequence 1 = _
    rw [c.sequence, saturatingAdd_one room]
  · rename_i other
    exact .inr ⟨fun same => other same.symm, last⟩

end MimTransport
