import MimStack.Lib.Mirrors
import MimStack.Transport.Representation
import MimStack.Transport.Replication

/-!
Two brokers that pull from each other. A pulled entry is applied by a put or a delete of the
consumer's own, so it enters the consumer's journal and comes back to where it came from.
-/
namespace MimTransport
open RustText KeyedLog StepRuns Mirrors MimCore MimModel MimRuntime MimRuntime.InstanceStore
open ExchangeBroker

def mirror (b : ExchangeBroker) : Replica ObjectIdentifier (Except TransportError GetByOidResponse)
    where
  shows oid := b.getByOid ⟨oid⟩
  log := b.journal.map JournalEntry.key
  mark := b.appliedSequence

structure Copying (a b : ExchangeBroker) (done : List JournalEntry) (c : ExchangeBroker) : Prop where
  registry : c.registry = a.registry
  log : c.journal.map JournalEntry.key = a.journal.map JournalEntry.key ++ done.map JournalEntry.key
  applied : c.appliedSequence = a.appliedSequence + done.length
  put : ∀ oid e, lastOn JournalEntry.key oid done = some e → e.operation = .putObject →
    oid ∉ c.inactive ∧ c.store.get oid = b.store.get oid
  deleted : ∀ oid e, lastOn JournalEntry.key oid done = some e → e.operation = .deleteObject →
    oid ∈ c.inactive
  others : ∀ oid, (∀ e ∈ done, e.key ≠ oid) → c.getByOid ⟨oid⟩ = a.getByOid ⟨oid⟩
  known : ∀ k ∈ (b.journal.map JournalEntry.key).take c.appliedSequence, k ∈ c.store.keys
  consistent : Roomy c → Consistent c

structure Joined (a b : ExchangeBroker) : Prop where
  registry : a.registry = b.registry
  mark : a.appliedSequence ≤ b.journal.length
  known : ∀ k ∈ (b.journal.map JournalEntry.key).take a.appliedSequence, k ∈ a.store.keys

theorem copying_start {a b : ExchangeBroker} (c : Consistent a) (joined : Joined a b) :
    Copying a b [] a where
  registry := rfl
  log := (List.append_nil _).symm
  applied := rfl
  put := by
    intro oid e last
    cases last
  deleted := by
    intro oid e last
    cases last
  others := fun _ _ => rfl
  known := joined.known
  consistent := fun _ => c

theorem getByOid_advances {before after : ExchangeBroker} {oid k : ObjectIdentifier}
    (a : Advances before after oid) (other : k ≠ oid) : after.getByOid ⟨k⟩ = before.getByOid ⟨k⟩ := by
  unfold getByOid storeGet
  simp only [a.inactive k other, a.store k other]

section Entry

variable {a b c : ExchangeBroker} {done : List JournalEntry} {entry : JournalEntry}

theorem copying_commit {next : ExchangeBroker} (copying : Copying a b done c)
    (advance : Advances c next entry.key) (grown : c.store.keys ⊆ next.store.keys)
    (stored : entry.key ∈ next.store.keys)
    (put : entry.operation = .putObject →
      entry.key ∉ next.inactive ∧ next.store.get entry.key = b.store.get entry.key)
    (deleted : entry.operation = .deleteObject → entry.key ∈ next.inactive)
    (here : b.journal[c.appliedSequence]? = some entry)
    (number : entry.sequence = c.appliedSequence + 1)
    (consistent : Roomy c → Consistent c → Consistent next) :
    Copying a b (done ++ [entry]) (next.setApplied entry.sequence) where
  registry := advance.registry.trans copying.registry
  log := by
    obtain ⟨operation, journal⟩ := advance.journal
    change next.journal.map JournalEntry.key = _
    rw [journal, List.map_append, copying.log, List.map_append, List.append_assoc]
    rfl
  applied := by
    change entry.sequence = _
    rw [number, copying.applied, List.length_append, List.length_singleton, Nat.add_assoc]
  put := by
    intro oid e last operation
    rw [lastOn_snoc] at last
    split at last
    · rename_i same
      obtain rfl := Option.some.inj last
      exact same ▸ put operation
    · rename_i other
      obtain ⟨alive, held⟩ := copying.put oid e last operation
      have apart : oid ≠ entry.key := fun same => other same.symm
      exact ⟨fun gone => alive ((advance.inactive oid apart).mp gone),
        (advance.store oid apart).trans held⟩
  deleted := by
    intro oid e last operation
    rw [lastOn_snoc] at last
    split at last
    · rename_i same
      obtain rfl := Option.some.inj last
      exact same ▸ deleted operation
    · rename_i other
      exact (advance.inactive oid fun same => other same.symm).mpr (copying.deleted oid e last operation)
  others := by
    intro oid missed
    have apart : entry.key ≠ oid := missed entry (List.mem_append_right _ (List.mem_singleton_self _))
    have before : c.getByOid ⟨oid⟩ = a.getByOid ⟨oid⟩ :=
      copying.others oid fun e member => missed e (List.mem_append_left _ member)
    exact (getByOid_advances advance apart.symm).trans before
  known := by
    intro k member
    change k ∈ (b.journal.map JournalEntry.key).take entry.sequence at member
    have place : (b.journal.map JournalEntry.key)[c.appliedSequence]? = some entry.key := by
      rw [List.getElem?_map, here]
      rfl
    rw [number, take_at place, List.mem_append, List.mem_singleton] at member
    rcases member with old | rfl
    · exact grown (copying.known k old)
    · exact stored
  consistent := by
    intro room
    have size := advances_grows advance
    have roomBefore : Roomy c := by
      change next.journal.length < u64Max at room
      unfold Roomy
      omega
    exact setApplied_consistent (consistent roomBefore (copying.consistent roomBefore)) _

theorem copying_entry (source : Consistent b) (joined : Joined a b) (copying : Copying a b done c)
    (here : b.journal[c.appliedSequence]? = some entry) :
    ∃ after, c.applyEntryFrom b entry = some (.ok (), after) ∧
      Copying a b (done ++ [entry]) after := by
  have number : entry.sequence = c.appliedSequence + 1 := numbered_getElem source.numbered here
  rcases source.replicable entry (List.mem_of_getElem? here) with put | delete
  · have known : entry.key ∈ b.store.keys := by
      rw [source.keys, mem_keysOf]
      exact ⟨entry, List.mem_of_getElem? here, rfl⟩
    obtain ⟨i, held⟩ := Option.isSome_iff_exists.mp ((mem_keys _ _).mp known)
    have own : i.oid = entry.key := b.store.keyed _ i held
    have accepted : validatePut c.registry i = some (.ok ()) := by
      rw [copying.registry, joined.registry]
      exact source.accepted _ i held
    refine ⟨(c.commitPut i).setApplied entry.sequence, ?_, ?_⟩
    · have present : b.storeGet entry.oid = some i := held
      rw [applyEntryFrom, put]
      simp only [present]
      exact applyPutEntry_accepted c entry i accepted
    · have stored : (c.commitPut i).store.get entry.key = some i := by
        rw [commitPut_store, get_insert, own, if_pos rfl]
      refine copying_commit copying (own ▸ advances_commitPut c i) ?_ ?_ (fun _ => ⟨?_, ?_⟩) ?_ here
        number fun room consistent => commitPut_consistent consistent room i accepted
      · intro k member
        rw [commitPut_store, keys_insert]
        split
        · exact member
        · exact List.mem_append_left _ member
      · rw [mem_keys, stored]
        rfl
      · rw [commitPut_inactive, own]
        exact Finset.notMem_erase _ _
      · rw [stored]
        exact held.symm
      · intro other
        rw [put] at other
        cases other
  · have introduced := source.introduced _ entry here (by simp [JournalEntry.isDelete, delete])
    have stored : entry.key ∈ c.store.keys := by
      refine copying.known entry.key ?_
      rw [← List.map_take, List.mem_map]
      obtain ⟨e, member, same⟩ := (mem_keysOf _ _ _).mp introduced
      exact ⟨e, member, same⟩
    have contained : c.storeContains entry.oid = true := (containsKey_iff _ _).mpr stored
    refine ⟨(c.commitDelete entry.oid).setApplied entry.sequence, ?_, ?_⟩
    · rw [applyEntryFrom, delete]
      simp only [applyDeleteEntry_eq, afterDeleteEntry, contained, if_true]
    · refine copying_commit copying (advances_commitDelete c entry.oid) (fun k member => member)
        stored ?_ (fun _ => Finset.mem_insert_self _ _) here number
        fun room consistent => commitDelete_consistent consistent room entry.oid contained
      intro other
      rw [delete] at other
      cases other

end Entry

section Pull

variable {a b : ExchangeBroker}

theorem pull_copies (own : Consistent a) (source : Consistent b) (joined : Joined a b) :
    ∃ report after, pullAndApply a b a.lastAppliedSequence = some (.ok report, after) ∧
      Copying a b (b.journal.drop a.appliedSequence) after := by
  have place : ∀ {done entry rest c}, done ++ entry :: rest = b.journal.drop a.appliedSequence →
      Copying a b done c → b.journal[c.appliedSequence]? = some entry := by
    intro done entry rest c split copying
    have inside : (b.journal.drop a.appliedSequence)[done.length]? = some entry := by
      rw [← split, List.getElem?_append_right (Nat.le_refl _), Nat.sub_self]
      rfl
    rw [List.getElem?_drop] at inside
    rw [copying.applied]
    exact inside
  obtain ⟨counts, after, u, ran, done, split, copying⟩ := replayEntries_total (applyLocal b)
    (fun rest c _ => ∃ done, done ++ rest = b.journal.drop a.appliedSequence ∧ Copying a b done c)
    (by
      rintro entry rest c w ⟨done, split, copying⟩ passed
      have number := numbered_getElem source.numbered (place split copying)
      omega)
    (by
      rintro entry rest c w ⟨done, split, copying⟩ _
      obtain ⟨after, applied, kept⟩ := copying_entry source joined copying (place split copying)
      refine ⟨after, w, ?_, done ++ [entry], ?_, kept⟩
      · rw [applyLocal, applied]
        rfl
      · rw [List.append_assoc]
        exact split)
    (b.journal.drop a.appliedSequence) 0 0 a () ⟨[], rfl, copying_start own joined⟩
  rw [List.append_nil] at split
  refine ⟨⟨counts.1, counts.2, b.sequence⟩, after, ?_, split ▸ copying⟩
  have entries : (b.syncSince a.lastAppliedSequence).entries = b.journal.drop a.appliedSequence :=
    syncSince_entries source _
  rw [pullAndApply, applySyncResponse, entries, ran]
  rfl

theorem mirror_pull {after : ExchangeBroker} (source : Consistent b) (joined : Joined a b)
    (copying : Copying a b (b.journal.drop a.appliedSequence) after) :
    mirror after = (mirror a).pull (mirror b) := by
  have ahead : (mirror a).ahead (mirror b) =
      (b.journal.drop a.appliedSequence).map JournalEntry.key := List.map_drop.symm
  have shows : (mirror after).shows = ((mirror a).pull (mirror b)).shows := by
    funext oid
    by_cases taken : oid ∈ (mirror a).ahead (mirror b)
    · have pulled : ((mirror a).pull (mirror b)).shows oid = b.getByOid ⟨oid⟩ := if_pos taken
      rw [pulled]
      rw [ahead] at taken
      obtain ⟨e, last⟩ : ∃ e, lastOn JournalEntry.key oid (b.journal.drop a.appliedSequence) =
          some e := by
        refine Option.ne_none_iff_exists'.mp fun none => ?_
        obtain ⟨e, member, same⟩ := List.mem_map.mp taken
        exact (lastOn_eq_none _ _ _).mp none e member same
      have whole : lastOn JournalEntry.key oid b.journal = some e := by
        rw [← List.take_append_drop a.appliedSequence b.journal, lastOn_append, last, Option.some_or]
      change after.getByOid ⟨oid⟩ = _
      rcases source.replicable e (lastOn_mem _ whole).1 with put | delete
      · obtain ⟨alive, held⟩ := copying.put oid e last put
        have active : oid ∉ b.inactive := ((active_iff_last source oid).mpr ⟨e, whole, put⟩).2
        simp only [getByOid, storeGet, if_neg alive, if_neg active, held]
      · have gone := copying.deleted oid e last delete
        have retired : oid ∈ b.inactive := (inactive_iff_last source oid).mpr ⟨e, whole, delete⟩
        simp only [getByOid, if_pos gone, if_pos retired]
    · have pulled : ((mirror a).pull (mirror b)).shows oid = a.getByOid ⟨oid⟩ := if_neg taken
      rw [pulled]
      rw [ahead] at taken
      exact copying.others oid fun e member same => taken (List.mem_map.mpr ⟨e, member, same⟩)
  have log : (mirror after).log = ((mirror a).pull (mirror b)).log := by
    change after.journal.map JournalEntry.key = (mirror a).log ++ (mirror a).ahead (mirror b)
    rw [copying.log, ahead]
    rfl
  have mark : (mirror after).mark = ((mirror a).pull (mirror b)).mark := by
    change after.appliedSequence = (b.journal.map JournalEntry.key).length
    rw [copying.applied, List.length_drop, List.length_map]
    have := joined.mark
    omega
  calc mirror after = ⟨(mirror after).shows, (mirror after).log, (mirror after).mark⟩ := rfl
    _ = (mirror a).pull (mirror b) := by rw [shows, log, mark]

theorem copying_joined {after : ExchangeBroker} (joined : Joined a b)
    (copying : Copying a b (b.journal.drop a.appliedSequence) after) : Joined after b where
  registry := copying.registry.trans joined.registry
  mark := by
    rw [copying.applied, List.length_drop]
    have := joined.mark
    omega
  known := copying.known

theorem copying_journal_grows {done : List JournalEntry} {after : ExchangeBroker}
    (copying : Copying a b done after) :
    after.journal.length = a.journal.length + done.length := by
  have sizes := congrArg List.length copying.log
  rwa [List.length_map, List.length_append, List.length_map, List.length_map] at sizes

theorem joined_appended {after : ExchangeBroker} {more : List ObjectIdentifier}
    (joined : Joined b a) (registry : after.registry = a.registry)
    (log : after.journal.map JournalEntry.key = a.journal.map JournalEntry.key ++ more) :
    Joined b after where
  registry := joined.registry.trans registry.symm
  mark := by
    have sizes := congrArg List.length log
    rw [List.length_map, List.length_append, List.length_map] at sizes
    have := joined.mark
    omega
  known := by
    rw [log, List.take_append_of_le_length (by rw [List.length_map]; exact joined.mark)]
    exact joined.known

theorem applyEntryFrom_grows {publisher after : ExchangeBroker} {entry : JournalEntry}
    {result : Except TransportError Unit}
    (ran : a.applyEntryFrom publisher entry = some (result, after)) :
    a.journal.length ≤ after.journal.length := by
  cases applyEntryFrom_applied ran with
  | refused e => exact Nat.le_refl _
  | put i _ _ _ => exact Nat.le_of_lt (Nat.lt_of_succ_le (advances_grows (advances_commitPut a i)).ge)
  | delete _ =>
    unfold afterDeleteEntry
    split
    · exact Nat.le_of_lt (Nat.lt_of_succ_le (advances_grows (advances_commitDelete a _)).ge)
    · exact Nat.le_refl _

theorem pull_grows {since : Nat} {result : Except TransportError ReplicationApplyReport}
    {after : ExchangeBroker} (ran : pullAndApply a b since = some (result, after)) :
    a.journal.length ≤ after.journal.length := by
  obtain ⟨⟨counts, c, u⟩, replayed, same⟩ := Option.map_eq_some_iff.mp ran
  simp only [Prod.mk.injEq] at same
  obtain ⟨_, rfl⟩ := same
  have step : ∀ {entry c w result mid w'}, a.journal.length ≤ c.journal.length →
      applyLocal b entry c w = some (result, mid, w') → a.journal.length ≤ mid.journal.length := by
    intro entry c w result mid w' bound applied
    obtain ⟨⟨r, d⟩, taken, same⟩ := Option.map_eq_some_iff.mp applied
    simp only [Prod.mk.injEq] at same
    obtain ⟨_, rfl, _⟩ := same
    exact Nat.le_trans bound (applyEntryFrom_grows taken)
  rcases replayEntries_invariant (applyLocal b) (fun _ c _ => a.journal.length ≤ c.journal.length)
    (fun _ _ _ _ bound _ => bound) (fun c _ => a.journal.length ≤ c.journal.length)
    (fun _ _ _ _ _ _ bound _ taken => step bound taken)
    (fun _ _ _ _ _ _ _ bound _ taken => step bound taken)
    _ 0 0 a () _ _ _ (Nat.le_refl _) replayed with ⟨_, _, bound⟩ | ⟨_, _, bound⟩
  · exact bound
  · exact bound

end Pull

section Writes

variable {a b after : ExchangeBroker} {oid : ObjectIdentifier}

theorem mirror_write (advance : Advances a after oid) :
    mirror after = (mirror a).write oid (after.getByOid ⟨oid⟩) := by
  have shows : (mirror after).shows = Function.update (mirror a).shows oid (after.getByOid ⟨oid⟩) := by
    funext k
    by_cases same : k = oid
    · rw [same, Function.update_self]
      rfl
    · rw [Function.update_of_ne same]
      exact getByOid_advances advance same
  have log : (mirror after).log = (mirror a).log ++ [oid] := by
    obtain ⟨operation, journal⟩ := advance.journal
    change after.journal.map JournalEntry.key = _
    rw [journal, List.map_append]
    rfl
  have mark : (mirror after).mark = (mirror a).mark := advance.applied
  calc mirror after = ⟨(mirror after).shows, (mirror after).log, (mirror after).mark⟩ := rfl
    _ = (mirror a).write oid (after.getByOid ⟨oid⟩) := by
      rw [shows, log, mark]
      rfl

theorem joined_write (joined : Joined a b) (advance : Advances a after oid)
    (grown : a.store.keys ⊆ after.store.keys) : Joined after b where
  registry := advance.registry.trans joined.registry
  mark := advance.applied ▸ joined.mark
  known := fun k member => grown (joined.known k (advance.applied ▸ member))

end Writes

abbrev Mutual := Bool → ExchangeBroker

inductive MutualStep where
  | put (site : Bool) (request : PutObjectRequest)
  | delete (site : Bool) (request : DeleteObjectRequest)
  | pull (site : Bool)

/-- A site's writers act on its own broker, with any outcome; a pull is from the other site. -/
def mutualStep (m : Mutual) : MutualStep → Option Mutual
  | .put site request => ((m site).putObject request).map fun r => Function.update m site r.2
  | .delete site request => some (Function.update m site ((m site).deleteObject request).2)
  | .pull site =>
    (pullAndApply (m site) (m !site) (m site).lastAppliedSequence).map
      fun r => Function.update m site r.2

/-- A pull that returns a report. -/
def PullsOk (m : Mutual) (site : Bool) (next : Mutual) : Prop :=
  ∃ report b, pullAndApply (m site) (m !site) (m site).lastAppliedSequence = some (.ok report, b) ∧
    next = Function.update m site b

theorem PullsOk.step {m next : Mutual} {site : Bool} (pulls : PullsOk m site next) :
    mutualStep m (.pull site) = some next := by
  obtain ⟨report, b, ran, rfl⟩ := pulls
  rw [mutualStep, ran]
  rfl

def Mutual.new (registry : ModelRegistry) : Mutual := fun _ => .new registry

/-- A step by which a writer changes a broker. -/
def MutualStep.writes (m : Mutual) : MutualStep → Bool
  | .put site request => ((m site).putObject request).any fun r => r.1.isOk
  | .delete site request => ((m site).deleteObject request).1.isOk
  | .pull _ => false

/-- The accepted writes of a run. -/
def localWrites (m : Mutual) : List MutualStep → Nat
  | [] => 0
  | step :: rest =>
    match mutualStep m step with
    | none => 0
    | some next => (if step.writes m then 1 else 0) + localWrites next rest

structure MutualInvariant (m : Mutual) : Prop where
  consistent : ∀ site, Consistent (m site)
  joined : ∀ site, Joined (m site) (m !site)
  mirrored : ∀ site, Mirrored (mirror (m site)) (mirror (m !site))

section System

variable {m next : Mutual}

theorem mutual_new (registry : ModelRegistry) : MutualInvariant (.new registry) where
  consistent := fun _ => consistent_new registry
  joined := fun _ => ⟨rfl, Nat.le_refl _, fun _ none => absurd none List.not_mem_nil⟩
  mirrored := fun _ => mirrored_new rfl rfl rfl

theorem mutual_update (inv : MutualInvariant m) (site : Bool) {b : ExchangeBroker}
    (consistent : Consistent b) (mine : Joined b (m !site)) (theirs : Joined (m !site) b)
    (mirrored : Mirrored (mirror b) (mirror (m !site))) :
    MutualInvariant (Function.update m site b) := by
  have here : Function.update m site b site = b := Function.update_self _ _ _
  have there : Function.update m site b (!site) = m !site :=
    Function.update_of_ne (by cases site <;> decide) _ _
  have sides : ∀ other, other = site ∨ other = !site := by
    intro other
    cases site <;> cases other <;> simp
  refine ⟨fun other => ?_, fun other => ?_, fun other => ?_⟩
  · rcases sides other with rfl | rfl
    · exact here.symm ▸ consistent
    · exact there.symm ▸ inv.consistent _
  · rcases sides other with rfl | rfl
    · rw [here, there]
      exact mine
    · rw [Bool.not_not, here, there]
      exact theirs
  · rcases sides other with rfl | rfl
    · rw [here, there]
      exact mirrored
    · rw [Bool.not_not, here, there]
      exact mirrored.symm

inductive MutualEffect (m : Mutual) (step : MutualStep) : Mutual → Prop where
  | refused (nothing : step.writes m = false) : MutualEffect m step m
  | wrote (site : Bool) (oid : ObjectIdentifier) (b : ExchangeBroker) (accepted : step.writes m = true)
      (advance : Advances (m site) b oid) (grown : (m site).store.keys ⊆ b.store.keys)
      (kept : Roomy (m site) → Consistent b) : MutualEffect m step (Function.update m site b)
  | pulled (site : Bool) (b : ExchangeBroker) (same : step = .pull site)
      (copying : Copying (m site) (m !site) ((m !site).journal.drop (m site).appliedSequence) b) :
      MutualEffect m step (Function.update m site b)

theorem mutual_effect (inv : MutualInvariant m) {step : MutualStep}
    (taken : mutualStep m step = some next) : MutualEffect m step next := by
  cases step with
  | put site request =>
    obtain ⟨⟨result, b⟩, ran, rfl⟩ := Option.map_eq_some_iff.mp taken
    rcases putObject_cases _ _ _ _ ran with ⟨e, _, rfl, rfl⟩ | ⟨accepted, rfl, rfl⟩
    · rw [Function.update_eq_self]
      refine .refused ?_
      rw [MutualStep.writes, ran]
      rfl
    · refine .wrote site request.inst.oid _ ?_ (advances_commitPut _ _) ?_
        fun room => commitPut_consistent (inv.consistent site) room _ accepted
      · rw [MutualStep.writes, ran]
        rfl
      · intro k member
        rw [commitPut_store, keys_insert]
        split
        · exact member
        · exact List.mem_append_left _ member
  | delete site request =>
    obtain rfl := Option.some.inj taken
    rcases deleteObject_cases (m site) request with ⟨_, ran⟩ | ⟨stored, ran⟩
    · rw [ran, Function.update_eq_self]
      refine .refused ?_
      rw [MutualStep.writes, ran]
      rfl
    · rw [ran]
      refine .wrote site request.oid _ ?_ (advances_commitDelete _ _) (fun k member => member)
        fun room => commitDelete_consistent (inv.consistent site) room _ stored
      rw [MutualStep.writes, ran]
      rfl
  | pull site =>
    obtain ⟨report, b, ran, copying⟩ :=
      pull_copies (inv.consistent site) (inv.consistent _) (inv.joined site)
    rw [mutualStep, ran] at taken
    obtain rfl := Option.some.inj taken
    exact .pulled site b rfl copying

theorem mutualStep_grows {step : MutualStep} (taken : mutualStep m step = some next)
    (other : Bool) : (m other).journal.length ≤ (next other).journal.length := by
  have updated : ∀ site b, (m site).journal.length ≤ b.journal.length →
      (m other).journal.length ≤ (Function.update m site b other).journal.length := by
    intro site b grown
    by_cases same : other = site
    · rw [same, Function.update_self]
      exact grown
    · rw [Function.update_of_ne same]
  cases step with
  | put site request =>
    obtain ⟨⟨result, b⟩, ran, rfl⟩ := Option.map_eq_some_iff.mp taken
    exact updated site b (journal_grows_put ran)
  | delete site request =>
    obtain rfl := Option.some.inj taken
    exact updated site _ (journal_grows_delete _ request)
  | pull site =>
    obtain ⟨⟨result, b⟩, ran, rfl⟩ := Option.map_eq_some_iff.mp taken
    exact updated site b (pull_grows ran)

def Mutual.unseen (m : Mutual) : Nat := owed (mirror (m false)) (mirror (m true))

theorem unseen_sides (m : Mutual) (site : Bool) :
    m.unseen = owed (mirror (m site)) (mirror (m !site)) := by
  cases site with
  | false => rfl
  | true => exact owed_comm _ _

theorem unseen_update (m : Mutual) (site : Bool) (b : ExchangeBroker) :
    Mutual.unseen (Function.update m site b) = owed (mirror b) (mirror (m !site)) := by
  rw [unseen_sides _ site, Function.update_self,
    Function.update_of_ne (by cases site <;> decide)]

theorem effect_kept (inv : MutualInvariant m) {step : MutualStep} (effect : MutualEffect m step next)
    (room : ∀ site, Roomy (next site)) : MutualInvariant next ∧
      next.unseen = m.unseen + if step.writes m then 1 else 0 := by
  cases effect with
  | refused nothing =>
    rw [nothing]
    exact ⟨inv, rfl⟩
  | wrote site oid b accepted advance grown kept =>
    have size := advances_grows advance
    have roomNext := room site
    rw [Function.update_self] at roomNext
    have roomHere : Roomy (m site) := by
      unfold Roomy at *
      omega
    have written : (mirror (m site)).write oid (b.getByOid ⟨oid⟩) = mirror b :=
      (mirror_write advance).symm
    have mirrored := (inv.mirrored site).write oid (b.getByOid ⟨oid⟩)
    have counted := owed_write (inv.mirrored site) oid (b.getByOid ⟨oid⟩)
    rw [written] at mirrored counted
    have theirs : Joined (m !site) (m site) := by
      have back := inv.joined (!site)
      rwa [Bool.not_not] at back
    have log : b.journal.map JournalEntry.key = (m site).journal.map JournalEntry.key ++ [oid] := by
      obtain ⟨operation, journal⟩ := advance.journal
      rw [journal, List.map_append]
      rfl
    refine ⟨mutual_update inv site (kept roomHere) (joined_write (inv.joined site) advance grown)
      (joined_appended theirs advance.registry log) mirrored, ?_⟩
    rw [unseen_update, unseen_sides m site, accepted, counted]
    rfl
  | pulled site b same copying =>
    have roomNext := room site
    rw [Function.update_self] at roomNext
    have pulled : (mirror (m site)).pull (mirror (m !site)) = mirror b :=
      (mirror_pull (inv.consistent _) (inv.joined site) copying).symm
    have mirrored := (inv.mirrored site).pull
    have counted := owed_pull (inv.mirrored site)
    rw [pulled] at mirrored counted
    have theirs : Joined (m !site) (m site) := by
      have back := inv.joined (!site)
      rwa [Bool.not_not] at back
    refine ⟨mutual_update inv site (copying.consistent roomNext)
      (copying_joined (inv.joined site) copying)
      (joined_appended theirs copying.registry copying.log) mirrored, ?_⟩
    rw [unseen_update, unseen_sides m site, counted, same]
    rfl

theorem mutual_grows {steps : List MutualStep} {final : Mutual}
    (ran : run mutualStep m steps = some final) (site : Bool) :
    (m site).journal.length ≤ (final site).journal.length :=
  invariant mutualStep (fun n => (m site).journal.length ≤ (n site).journal.length)
    (fun _ _ _ grown taken => Nat.le_trans grown (mutualStep_grows taken site)) steps m final
    (Nat.le_refl _) ran

theorem mutual_run {steps : List MutualStep} {final : Mutual} (inv : MutualInvariant m)
    (ran : run mutualStep m steps = some final) (room : ∀ site, Roomy (final site)) :
    MutualInvariant final ∧ final.unseen = m.unseen + localWrites m steps := by
  induction steps generalizing m with
  | nil =>
    obtain rfl := Option.some.inj ran
    exact ⟨inv, rfl⟩
  | cons step rest ih =>
    rw [run_cons, Option.bind_eq_some_iff] at ran
    obtain ⟨mid, taken, later⟩ := ran
    have roomMid : ∀ site, Roomy (mid site) := fun site =>
      roomy_of_grown (mutual_grows later site) (room site)
    obtain ⟨kept, counted⟩ := effect_kept inv (mutual_effect inv taken) roomMid
    obtain ⟨invFinal, total⟩ := ih kept later
    refine ⟨invFinal, ?_⟩
    simp only [localWrites, taken]
    rw [total, counted, Nat.add_assoc]

/-- However often the two sites pull, the entries they have still to take of each other are as
many as the writes that were ever accepted, so once there was one, some site has always more to
pull. -/
theorem mutual_never_settles {registry : ModelRegistry} {steps : List MutualStep}
    (reached : run mutualStep (.new registry) steps = some m) (room : ∀ site, Roomy (m site)) :
    ((m true).journal.length - (m false).lastAppliedSequence) +
        ((m false).journal.length - (m true).lastAppliedSequence) =
      localWrites (.new registry) steps ∧
    (0 < localWrites (.new registry) steps →
      ∃ site, ((m !site).syncSince (m site).lastAppliedSequence).entries ≠ []) := by
  obtain ⟨inv, counted⟩ := mutual_run (mutual_new registry) reached room
  have start : (Mutual.new registry).unseen = 0 := rfl
  have lengths : m.unseen = ((m true).journal.length - (m false).lastAppliedSequence) +
      ((m false).journal.length - (m true).lastAppliedSequence) := by
    unfold Mutual.unseen owed Replica.ahead mirror lastAppliedSequence
    simp only [List.length_drop, List.length_map]
  rw [lengths, start, Nat.zero_add] at counted
  refine ⟨counted, fun some => ?_⟩
  have entries : ∀ site, ((m !site).syncSince (m site).lastAppliedSequence).entries.length =
      (m !site).journal.length - (m site).lastAppliedSequence := by
    intro site
    rw [syncSince_entries (inv.consistent _), List.length_drop]
  by_contra none
  have empty : ∀ site, (m !site).journal.length - (m site).lastAppliedSequence = 0 := by
    intro site
    rw [← entries site, List.length_eq_zero_iff]
    by_contra more
    exact none ⟨site, more⟩
  have left := empty false
  have right := empty true
  simp only [Bool.not_false, Bool.not_true] at left right
  omega

theorem pull_taken (inv : MutualInvariant m) (site : Bool) :
    ∃ b, PullsOk m site (Function.update m site b) ∧
      mirror b = (mirror (m site)).pull (mirror (m !site)) ∧
      b.journal.length ≤ (m site).journal.length + (m !site).journal.length := by
  obtain ⟨report, b, ran, copying⟩ :=
    pull_copies (inv.consistent site) (inv.consistent _) (inv.joined site)
  refine ⟨b, ⟨report, b, ran, rfl⟩, mirror_pull (inv.consistent _) (inv.joined site) copying, ?_⟩
  rw [copying_journal_grows copying, List.length_drop]
  omega

theorem agreeing_pull (inv : MutualInvariant m) {site : Bool}
    (same : ∀ s, (mirror (m s)).shows = (mirror (m !s)).shows)
    (taken : mutualStep m (.pull site) = some next) (s : Bool) :
    (mirror (next s)).shows = (mirror (m s)).shows := by
  obtain ⟨b, pulled, shown, _⟩ := pull_taken inv site
  obtain rfl := Option.some.inj (pulled.step.symm.trans taken)
  by_cases here : s = site
  · rw [here, Function.update_self, shown]
    exact pull_agreeing (same site)
  · rw [Function.update_of_ne here]

theorem agreeing_pulls {pulls : List Bool} {later : Mutual} (inv : MutualInvariant m)
    (same : ∀ s, (mirror (m s)).shows = (mirror (m !s)).shows)
    (ran : run mutualStep m (pulls.map .pull) = some later) (room : ∀ s, Roomy (later s)) (s : Bool) :
    (mirror (later s)).shows = (mirror (m s)).shows := by
  induction pulls generalizing m with
  | nil =>
    obtain rfl := Option.some.inj ran
    rfl
  | cons site rest ih =>
    rw [List.map_cons, run_cons, Option.bind_eq_some_iff] at ran
    obtain ⟨mid, taken, ran⟩ := ran
    have roomMid : ∀ s, Roomy (mid s) := fun s => roomy_of_grown (mutual_grows ran s) (room s)
    have kept := agreeing_pull inv same taken
    have sameMid : ∀ s, (mirror (mid s)).shows = (mirror (mid !s)).shows := by
      intro s
      rw [kept, kept]
      exact same s
    rw [ih (effect_kept inv (mutual_effect inv taken) roomMid).1 sameMid ran, kept]

theorem pulls_settle (inv : MutualInvariant m) (site : Bool)
    (room : (m site).journal.length + (m !site).journal.length < u64Max) :
    ∃ mid settled, MutualInvariant mid ∧ PullsOk m site mid ∧ PullsOk mid (!site) settled ∧
      ∀ s, (mirror (settled s)).shows = (mirror (settled !s)).shows := by
  have other : (!site) ≠ site := by cases site <;> decide
  obtain ⟨b, first, shownB, size⟩ := pull_taken inv site
  have roomB : ∀ s, Roomy (Function.update m site b s) := by
    intro s
    unfold Roomy
    by_cases here : s = site
    · rw [here, Function.update_self]
      omega
    · rw [Function.update_of_ne here]
      have side : s = !site := by cases site <;> cases s <;> simp at here ⊢
      rw [side]
      omega
  have invB := (effect_kept inv (mutual_effect inv first.step) roomB).1
  obtain ⟨d, second, shownD, _⟩ := pull_taken invB (!site)
  rw [Bool.not_not, Function.update_self, Function.update_of_ne other] at shownD
  have agree : (mirror d).shows = (mirror b).shows := by
    rw [shownD, shownB]
    exact pulls_agree (inv.mirrored site)
  have atSite : Function.update (Function.update m site b) (!site) d site = b := by
    rw [Function.update_of_ne other.symm, Function.update_self]
  have atOther : Function.update (Function.update m site b) (!site) d (!site) = d :=
    Function.update_self _ _ _
  refine ⟨_, _, invB, first, second, fun s => ?_⟩
  have sides : s = site ∨ s = !site := by cases site <;> cases s <;> simp
  rcases sides with rfl | rfl
  · rw [atSite, atOther, agree]
  · rw [Bool.not_not, atSite, atOther, agree]

/-- After any writes and pulls on either side, one pull each way succeeds and leaves two brokers
that answer every lookup alike, and no pull after that changes an answer. -/
theorem mutual_agreement {registry : ModelRegistry} {steps : List MutualStep}
    (reached : run mutualStep (.new registry) steps = some m)
    (room : (m false).journal.length + (m true).journal.length < u64Max) (site : Bool) :
    ∃ mid settled, PullsOk m site mid ∧ PullsOk mid (!site) settled ∧
      run mutualStep m [.pull site, .pull (!site)] = some settled ∧
      (∀ oid, (settled site).getByOid ⟨oid⟩ = (settled !site).getByOid ⟨oid⟩) ∧
      ∀ (pulls : List Bool) (later : Mutual), run mutualStep settled (pulls.map .pull) = some later →
        (∀ s, Roomy (later s)) →
        ∀ s oid, (later s).getByOid ⟨oid⟩ = (settled s).getByOid ⟨oid⟩ := by
  have sum : (m site).journal.length + (m !site).journal.length < u64Max := by
    cases site with
    | false => exact room
    | true => exact Nat.add_comm _ _ ▸ room
  have roomy : ∀ s, Roomy (m s) := by
    intro s
    unfold Roomy
    cases s <;> omega
  obtain ⟨inv, _⟩ := mutual_run (mutual_new registry) reached roomy
  obtain ⟨mid, settled, invMid, first, last, same⟩ := pulls_settle inv site sum
  have ran : run mutualStep m [.pull site, .pull (!site)] = some settled := by
    rw [run_cons, first.step, Option.bind_some, run_cons, last.step]
    rfl
  refine ⟨mid, settled, first, last, ran, fun oid => congrFun (same site) oid,
    fun pulls later onward room s oid => ?_⟩
  have roomSettled : ∀ s, Roomy (settled s) := fun s =>
    roomy_of_grown (mutual_grows onward s) (room s)
  have invSettled := (effect_kept invMid (mutual_effect invMid last.step) roomSettled).1
  exact congrFun (agreeing_pulls invSettled same onward room s) oid

end System

def mutualFixture : List MutualStep := [
  .put false ⟨wireInstance "a" {}⟩, .put true ⟨wireInstance "a" { policy := .value "NATO" }⟩,
  .pull true, .put true ⟨wireInstance "b" {}⟩, .delete false ⟨⟨"a"⟩⟩]

theorem mutualFixture_reached : ∃ m, run mutualStep (.new wireRegistry) mutualFixture = some m ∧
    (m false).journal.length = 2 ∧ (m true).journal.length = 3 := by
  have reaches : (run mutualStep (.new wireRegistry) mutualFixture).map
      (fun m => ((m false).journal.length, (m true).journal.length)) = some (2, 3) := by
    decide +kernel
  obtain ⟨m, reached, counts⟩ := Option.map_eq_some_iff.mp reaches
  rw [Prod.mk.injEq] at counts
  exact ⟨m, reached, counts⟩

theorem mutual_never_settles_fixture : ∃ m, run mutualStep (.new wireRegistry) mutualFixture = some m ∧
    ∃ site, ((m !site).syncSince (m site).lastAppliedSequence).entries ≠ [] := by
  obtain ⟨m, reached, left, right⟩ := mutualFixture_reached
  have room : ∀ site, Roomy (m site) := by
    intro site
    unfold Roomy u64Max
    cases site <;> omega
  have counted : localWrites (.new wireRegistry) mutualFixture = 4 := by
    decide +kernel
  exact ⟨m, reached, (mutual_never_settles reached room).2 (counted ▸ by decide)⟩

theorem mutual_agreement_fixture : ∃ m mid settled,
    run mutualStep (.new wireRegistry) mutualFixture = some m ∧ PullsOk m false mid ∧
      PullsOk mid true settled ∧
      ∀ oid, (settled false).getByOid ⟨oid⟩ = (settled true).getByOid ⟨oid⟩ := by
  obtain ⟨m, reached, left, right⟩ := mutualFixture_reached
  obtain ⟨mid, settled, first, second, _, same, _⟩ :=
    mutual_agreement reached (by unfold u64Max; omega) false
  exact ⟨m, mid, settled, reached, first, second, same⟩

end MimTransport
