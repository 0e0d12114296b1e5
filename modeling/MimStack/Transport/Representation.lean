import Mathlib.Data.Finset.Card
import MimStack.Lib.Runs
import MimStack.Transport.Journal

/-!
The representation of a broker over its whole life: any sequence of puts, deletes and
replicated entries keeps store, inactive set, journal and counter in step, and a call
that fails changes nothing.
-/
namespace MimTransport
open KeyedLog StepRuns MimCore MimModel MimRuntime MimRuntime.InstanceStore ExchangeBroker

inductive BrokerCall where
  | put (request : PutObjectRequest)
  | delete (request : DeleteObjectRequest)
  | applyFrom (publisher : ExchangeBroker) (entry : JournalEntry)
  | applyRemote (entry : JournalEntry) (i : Option MimInstance)

/-- Whether the call succeeds, and the state it leaves. -/
def BrokerCall.answer (b : ExchangeBroker) :
    BrokerCall → Option (Except TransportError Unit × ExchangeBroker)
  | .put request => (b.putObject request).map fun ran => (ran.1.map fun _ => (), ran.2)
  | .delete request =>
    some ((b.deleteObject request).1.map fun _ => (), (b.deleteObject request).2)
  | .applyFrom publisher entry => b.applyEntryFrom publisher entry
  | .applyRemote entry i => b.applyRemoteEntry entry i

def BrokerCall.step (b : ExchangeBroker) (call : BrokerCall) : Option ExchangeBroker :=
  (call.answer b).map Prod.snd

inductive CallEffect (b : ExchangeBroker) : Except TransportError Unit → ExchangeBroker → Prop where
  | failed (e : TransportError) : CallEffect b (.error e) b
  | put (i : MimInstance) (accepted : validatePut b.registry i = some (.ok ())) :
      CallEffect b (.ok ()) (b.commitPut i)
  | delete (oid : ObjectIdentifier) (stored : b.storeContains oid = true) :
      CallEffect b (.ok ()) (b.commitDelete oid)
  | appliedPut (i : MimInstance) (accepted : validatePut b.registry i = some (.ok ())) (n : Nat) :
      CallEffect b (.ok ()) ((b.commitPut i).setApplied n)
  | appliedDelete (entry : JournalEntry) : CallEffect b (.ok ()) (b.afterDeleteEntry entry)

theorem effect_of_applied {b after : ExchangeBroker} {entry : JournalEntry}
    {found : Option MimInstance} {result : Except TransportError Unit}
    (applied : EntryApplied b entry found result after) : CallEffect b result after := by
  cases applied with
  | refused e => exact .failed e
  | put i operation here accepted => exact .appliedPut i accepted entry.sequence
  | delete operation => exact .appliedDelete entry

theorem effect_of_answer {b after : ExchangeBroker} {call : BrokerCall}
    {result : Except TransportError Unit} (ran : call.answer b = some (result, after)) :
    CallEffect b result after := by
  cases call with
  | put request =>
    obtain ⟨⟨response, mid⟩, put, same⟩ := Option.map_eq_some_iff.mp ran
    obtain ⟨rfl, rfl⟩ := Prod.mk.inj same
    rcases putObject_cases b request response _ put with ⟨e, _, rfl, rfl⟩ | ⟨accepted, rfl, rfl⟩
    · exact .failed e
    · exact .put request.inst accepted
  | delete request =>
    obtain ⟨rfl, rfl⟩ := Prod.mk.inj (Option.some.inj ran)
    rcases deleteObject_cases b request with ⟨_, same⟩ | ⟨stored, same⟩
    · rw [same]
      exact .failed _
    · rw [same]
      exact .delete request.oid stored
  | applyFrom publisher entry => exact effect_of_applied (applyEntryFrom_applied ran)
  | applyRemote entry i => exact effect_of_applied (applyRemoteEntry_applied ran)

theorem CallEffect.unchanged {b after : ExchangeBroker} {e : TransportError}
    (effect : CallEffect b (.error e) after) : after = b := by
  cases effect
  rfl

theorem CallEffect.consistent {b after : ExchangeBroker} {result : Except TransportError Unit}
    (effect : CallEffect b result after) (c : Consistent b) (room : Roomy b) : Consistent after := by
  cases effect with
  | failed e => exact c
  | put i accepted => exact commitPut_consistent c room i accepted
  | delete oid stored => exact commitDelete_consistent c room oid stored
  | appliedPut i accepted n =>
    exact setApplied_consistent (commitPut_consistent c room i accepted) n
  | appliedDelete entry => exact afterDeleteEntry_consistent c room entry

theorem CallEffect.grows {b after : ExchangeBroker} {result : Except TransportError Unit}
    (effect : CallEffect b result after) : b.journal.length ≤ after.journal.length := by
  have committed : ∀ oid next, Advances b next oid → b.journal.length ≤ next.journal.length := by
    intro oid next advance
    have := advances_grows advance
    omega
  cases effect with
  | failed e => exact le_refl _
  | put i accepted => exact committed _ _ (advances_commitPut b i)
  | delete oid stored => exact committed _ _ (advances_commitDelete b oid)
  | appliedPut i accepted n => exact committed _ (b.commitPut i) (advances_commitPut b i)
  | appliedDelete entry =>
    unfold afterDeleteEntry
    split
    · exact committed _ (b.commitDelete entry.oid) (advances_commitDelete b entry.oid)
    · exact le_refl _

theorem effect_of_step {b after : ExchangeBroker} {call : BrokerCall}
    (taken : BrokerCall.step b call = some after) : ∃ result, CallEffect b result after := by
  obtain ⟨⟨result, _⟩, ran, rfl⟩ := Option.map_eq_some_iff.mp taken
  exact ⟨result, effect_of_answer ran⟩

theorem CallEffect.registry {b after : ExchangeBroker} {result : Except TransportError Unit}
    (effect : CallEffect b result after) : after.registry = b.registry := by
  cases effect with
  | appliedDelete entry =>
    unfold afterDeleteEntry
    split <;> rfl
  | _ => rfl

theorem run_registry (registry : ModelRegistry) (calls : List BrokerCall) {b : ExchangeBroker}
    (reached : run BrokerCall.step (.new registry) calls = some b) : b.registry = registry := by
  refine invariant BrokerCall.step (fun s => s.registry = registry) ?_ calls _ b rfl reached
  intro s call next own taken
  obtain ⟨result, effect⟩ := effect_of_step taken
  rw [effect.registry, own]

theorem run_consistent (registry : ModelRegistry) (calls : List BrokerCall) {b : ExchangeBroker}
    (reached : run BrokerCall.step (.new registry) calls = some b) (room : Roomy b) :
    Consistent b := by
  induction calls using List.reverseRecOn generalizing b with
  | nil =>
    obtain rfl := Option.some.inj reached
    exact consistent_new registry
  | append_singleton calls call ih =>
    rw [run_append, Option.bind_eq_some_iff] at reached
    obtain ⟨mid, before, last⟩ := reached
    rw [run_cons, Option.bind_eq_some_iff] at last
    obtain ⟨after, taken, done⟩ := last
    obtain rfl := Option.some.inj done
    obtain ⟨result, effect⟩ := effect_of_step taken
    have room' := roomy_of_grown effect.grows room
    exact effect.consistent (ih before room') room'

/-- The four components in step with each other. -/
structure Represented (b : ExchangeBroker) : Prop where
  keyed : ∀ oid i, b.store.get oid = some i → i.oid = oid
  stored : ∀ oid ∈ b.inactive, oid ∈ b.store.keys
  numbers : b.journal.map JournalEntry.sequence = List.range' 1 b.sequence
  journalled : ∀ oid, oid ∈ b.store.keys ↔ ∃ e ∈ b.journal, e.oid = oid
  inactive : ∀ oid, oid ∈ b.inactive ↔
    ∃ e, lastOn JournalEntry.key oid b.journal = some e ∧ e.operation = .deleteObject
  active : b.activeCount = b.len - b.inactive.card

theorem Consistent.stored {b : ExchangeBroker} (c : Consistent b) :
    ∀ oid ∈ b.inactive, oid ∈ b.store.keys := by
  intro oid gone
  obtain ⟨e, last, _⟩ := (inactive_iff_last c oid).mp gone
  obtain ⟨member, on⟩ := lastOn_mem JournalEntry.key last
  rw [c.keys, mem_keysOf]
  exact ⟨e, member, on⟩

theorem Consistent.active {b : ExchangeBroker} (c : Consistent b) :
    b.activeCount + b.inactive.card = b.len := by
  have distinct : (b.store.keys.filter fun oid => decide (oid ∈ b.inactive)).Nodup :=
    b.store.instances.nodup.filter _
  have retired : (b.store.keys.filter fun oid => decide (oid ∈ b.inactive)).toFinset =
      b.inactive := by
    ext oid
    rw [List.mem_toFinset, List.mem_filter, decide_eq_true_iff]
    exact ⟨fun both => both.2, fun gone => ⟨c.stored oid gone, gone⟩⟩
  have size := List.toFinset_card_of_nodup distinct
  have parts := List.length_eq_length_filter_add (l := b.store.keys)
    fun oid => decide (oid ∈ b.inactive)
  rw [retired] at size
  simp only [activeCount, len, decide_not]
  omega

theorem Consistent.represented {b : ExchangeBroker} (c : Consistent b) : Represented b where
  keyed := b.store.keyed
  stored := c.stored
  numbers := by
    rw [c.sequence]
    exact c.numbered
  journalled oid := by
    rw [c.keys]
    exact mem_keysOf _ _ _
  inactive := inactive_iff_last c
  active := by
    have := c.active
    omega

theorem representation_invariant (registry : ModelRegistry) (calls : List BrokerCall)
    {b : ExchangeBroker} (reached : run BrokerCall.step (.new registry) calls = some b)
    (room : b.journal.length < u64Max) :
    Represented b ∧ ∀ call e after, BrokerCall.answer b call = some (.error e, after) → after = b :=
  ⟨(run_consistent registry calls reached room).represented,
    fun _ _ _ ran => (effect_of_answer ran).unchanged⟩

theorem step_put_wire : BrokerCall.step (.new wireRegistry) (.put ⟨wireInstance "a" {}⟩) =
    some (commitPut (.new wireRegistry) (wireInstance "a" {})) := by
  have accepted := wireInstance_accepted "a" {} (by decide)
  simp only [BrokerCall.step, BrokerCall.answer, putObject_accepted (.new wireRegistry) _ accepted]
  rfl

theorem representation_invariant_fixture :
    ∃ b, run BrokerCall.step (.new wireRegistry)
        [.put ⟨wireInstance "a" {}⟩, .delete ⟨⟨"a"⟩⟩] = some b ∧
      Represented b ∧ b.activeCount = 0 ∧ b.len = 1 := by
  have reached : run BrokerCall.step (.new wireRegistry)
      [.put ⟨wireInstance "a" {}⟩, .delete ⟨⟨"a"⟩⟩] =
      some (commitDelete (commitPut (.new wireRegistry) (wireInstance "a" {})) ⟨"a"⟩) := by
    rw [run_cons, step_put_wire]
    rfl
  have represented := (representation_invariant wireRegistry _ reached (by decide)).1
  exact ⟨_, reached, represented, by decide, by decide⟩

end MimTransport
