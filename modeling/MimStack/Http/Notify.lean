import MimStack.Transport.Secured

/-!
The exchange server's shared broker. A put or a delete is one critical section; a
notify handler reads the applied sequence in one, clones the broker in another,
pulls from the remote publisher without the lock and stores the pulled clone in a
third, so any other request may fall in between.
-/
namespace MimHttp
open RustText KeyedLog StepRuns MimCore MimModel MimRuntime MimRuntime.InstanceStore MimLabeling
open MimPolicy MimTransport ExchangeBroker SecuredExchangeBroker

/-- What the remote publisher answers to one `replicate_into`. -/
structure RemoteAnswers where
  sync : Nat → Except TransportError SyncResponse
  instances : List (Except TransportError MimInstance)

def httpFederationClient : FederationPublisher RemoteAnswers where
  fetchSync := fun since w => some (w.sync since, w)
  fetchInstance := fun _ w =>
    some (w.instances.headD (.error (.validation "object GET failed")),
      { w with instances := w.instances.tail })

inductive ServerEvent where
  | put (i : MimInstance)
  | delete (oid : ObjectIdentifier)
  | replicated (oid : ObjectIdentifier)

def ServerEvent.oid : ServerEvent → ObjectIdentifier
  | .put i => i.oid
  | .delete oid => oid
  | .replicated oid => oid

def ServerEvent.Acknowledged : ServerEvent → Prop
  | .put _ | .delete _ => True
  | .replicated _ => False

/-- Where a notify handler is. `seen` counts the events that preceded its clone. -/
inductive NotifyPhase where
  | idle
  | sinceRead (since : Nat)
  | cloned (since : Nat) (staging : ExchangeBroker) (seen : Nat)
  | pulled (clone staging : ExchangeBroker) (seen : Nat)

/-- `client` is the outcome of building the federation client from the configuration;
`history` records the successful operations in order. -/
structure Server where
  broker : SecuredExchangeBroker
  client : Except TransportError Unit
  handlers : Nat → NotifyPhase
  history : List ServerEvent

def Server.start (broker : SecuredExchangeBroker) (client : Except TransportError Unit) : Server :=
  ⟨broker, client, fun _ => .idle, []⟩

def Server.record (s : Server) (broker : SecuredExchangeBroker) (event : ServerEvent) : Server :=
  { s with broker, history := s.history ++ [event] }

def Server.setPhase (s : Server) (id : Nat) (phase : NotifyPhase) : Server :=
  { s with handlers := Function.update s.handlers id phase }

def replicatedOids (clone staging : ExchangeBroker) : List ObjectIdentifier :=
  (staging.journal.drop clone.journal.length).map JournalEntry.key

/-- A request's `admitted` part is what its checks before the lock have come to. -/
inductive ServerStep where
  | put (admitted : Except TransportError (SubjectAttributes × PutObjectRequest))
  | delete (admitted : Except TransportError (SubjectAttributes × DeleteObjectRequest))
  | notifyRead (id : Nat)
  | notifyClone (id : Nat)
  | notifyPull (id : Nat) (answers : RemoteAnswers)
  | notifyStore (id : Nat)

variable [UnicodeCase]

def handlePut (s : Server) (admitted : Except TransportError (SubjectAttributes × PutObjectRequest)) :
    Option Server :=
  match admitted with
  | .error _ => some s
  | .ok (subject, request) =>
    match s.broker.putObjectAs subject request with
    | none => none
    | some (.error _, broker) => some { s with broker }
    | some (.ok _, broker) => some (s.record broker (.put request.inst))

def deleteObject (s : Server)
    (admitted : Except TransportError (SubjectAttributes × DeleteObjectRequest)) : Server :=
  match admitted with
  | .error _ => s
  | .ok (subject, request) =>
    match s.broker.deleteObjectAs subject request with
    | (.error _, broker) => { s with broker }
    | (.ok _, broker) => s.record broker (.delete request.oid)

/-- The critical sections of `replication_notify` and the pull between them. -/
def serverStep (s : Server) : ServerStep → Option Server
  | .put admitted => handlePut s admitted
  | .delete admitted => some (deleteObject s admitted)
  | .notifyRead id =>
    match s.handlers id, s.client with
    | .idle, .error _ => some s
    | .idle, .ok () => some (s.setPhase id (.sinceRead s.broker.inner.lastAppliedSequence))
    | _, _ => none
  | .notifyClone id =>
    match s.handlers id with
    | .sinceRead since => some (s.setPhase id (.cloned since s.broker.inner s.history.length))
    | _ => none
  | .notifyPull id answers =>
    match s.handlers id with
    | .cloned since clone seen =>
      match pullAndApplyRemote httpFederationClient clone since answers with
      | none => none
      | some (.error _, _, _) => some (s.setPhase id .idle)
      | some (.ok _, staging, _) => some (s.setPhase id (.pulled clone staging seen))
    | _ => none
  | .notifyStore id =>
    match s.handlers id with
    | .pulled clone staging _ =>
      some { s.setPhase id .idle with
        broker := s.broker.withInner staging
        history := s.history ++ (replicatedOids clone staging).map .replicated }
    | _ => none

def Reflected (b : ExchangeBroker) : ServerEvent → Prop
  | .put i => b.store.get i.oid = some i ∧ i.oid ∉ b.inactive ∧
      ∃ e, lastOn JournalEntry.key i.oid b.journal = some e ∧ e.operation = .putObject
  | .delete oid => oid ∈ b.inactive ∧
      ∃ e, lastOn JournalEntry.key oid b.journal = some e ∧ e.operation = .deleteObject
  | .replicated _ => True

def ReflectsAll (b : ExchangeBroker) (history : List ServerEvent) : Prop :=
  ∀ oid e, lastOn ServerEvent.oid oid history = some e → Reflected b e

def NoLostUpdate (s : Server) : Prop := ReflectsAll s.broker.inner s.history

/-- No write is lost and the applied sequence does not go back. -/
def KeepsUpdates (s : Server) (_ : ServerStep) (next : Server) : Prop :=
  NoLostUpdate next ∧ s.broker.inner.appliedSequence ≤ next.broker.inner.appliedSequence

/-- A handler that stores its staging finds nothing written since its clone that the staging
neither rewrote nor shows already, and an applied sequence it does not fall behind. -/
def StoresCurrent (s : Server) : ServerStep → Prop
  | .notifyStore id => ∀ clone staging seen, s.handlers id = .pulled clone staging seen →
      (∀ oid e, lastOn ServerEvent.oid oid (s.history.drop seen) = some e → e.Acknowledged →
        oid ∈ replicatedOids clone staging ∨ Reflected clone e) ∧
      s.broker.inner.appliedSequence ≤ staging.appliedSequence
  | _ => True

section Rewriting
omit [UnicodeCase]

structure Rewrites (new : List JournalEntry) (before after : ExchangeBroker) : Prop where
  journal : after.journal = before.journal ++ new
  store : ∀ k, (∀ e ∈ new, e.key ≠ k) → after.store.get k = before.store.get k
  inactive : ∀ k, (∀ e ∈ new, e.key ≠ k) → (k ∈ after.inactive ↔ k ∈ before.inactive)

theorem rewrites_refl (b : ExchangeBroker) : Rewrites [] b b :=
  ⟨(List.append_nil _).symm, fun _ _ => rfl, fun _ _ => Iff.rfl⟩

theorem rewrites_trans {m n : List JournalEntry} {a b c : ExchangeBroker} (first : Rewrites m a b)
    (second : Rewrites n b c) : Rewrites (m ++ n) a c where
  journal := by rw [second.journal, first.journal, List.append_assoc]
  store := by
    intro k untouched
    rw [second.store k fun e mem => untouched e (List.mem_append_right _ mem)]
    exact first.store k fun e mem => untouched e (List.mem_append_left _ mem)
  inactive := by
    intro k untouched
    rw [second.inactive k fun e mem => untouched e (List.mem_append_right _ mem)]
    exact first.inactive k fun e mem => untouched e (List.mem_append_left _ mem)

theorem rewrites_advance {before after : ExchangeBroker} {oid : ObjectIdentifier}
    (advance : Advances before after oid) : ∃ e, e.key = oid ∧ Rewrites [e] before after := by
  obtain ⟨operation, journal⟩ := advance.journal
  refine ⟨_, rfl, journal, ?_, ?_⟩
  · intro k untouched
    exact advance.store k fun same => untouched _ (List.mem_singleton_self _) same.symm
  · intro k untouched
    exact advance.inactive k fun same => untouched _ (List.mem_singleton_self _) same.symm

theorem rewrites_applied {new : List JournalEntry} {before after : ExchangeBroker}
    (r : Rewrites new before after) (n : Nat) : Rewrites new before (after.setApplied n) :=
  ⟨r.journal, r.store, r.inactive⟩

theorem rewrites_remoteEntry (c after : ExchangeBroker) (entry : JournalEntry)
    (i : Option MimInstance) (ran : c.applyRemoteEntry entry i = some (.ok (), after)) :
    ∃ new, Rewrites new c after := by
  cases applyRemoteEntry_applied ran with
  | put j operation here accepted =>
    obtain ⟨e, _, r⟩ := rewrites_advance (advances_commitPut c j)
    exact ⟨_, rewrites_applied r _⟩
  | delete operation =>
    unfold afterDeleteEntry
    split
    · obtain ⟨e, _, r⟩ := rewrites_advance (advances_commitDelete c entry.oid)
      exact ⟨_, rewrites_applied r _⟩
    · exact ⟨_, rewrites_applied (rewrites_refl c) _⟩

theorem rewrites_fetched (entry : JournalEntry) (c after : ExchangeBroker) (w w' : RemoteAnswers)
    (ran : applyFetched httpFederationClient entry c w = some (.ok (), after, w')) :
    ∃ new, Rewrites new c after := by
  unfold applyFetched at ran
  split at ran
  · split at ran
    · cases ran
    · cases ran
    · obtain ⟨⟨r, b⟩, applied, same⟩ := Option.map_eq_some_iff.mp ran
      simp only [Prod.mk.injEq] at same
      obtain ⟨rfl, rfl, _⟩ := same
      exact rewrites_remoteEntry _ _ _ _ applied
  · obtain ⟨⟨r, b⟩, applied, same⟩ := Option.map_eq_some_iff.mp ran
    simp only [Prod.mk.injEq] at same
    obtain ⟨rfl, rfl, _⟩ := same
    exact rewrites_remoteEntry _ _ _ _ applied

theorem rewrites_replicate (clone staging : ExchangeBroker) (since : Nat) (w w' : RemoteAnswers)
    (report : ReplicationApplyReport)
    (ran : pullAndApplyRemote httpFederationClient clone since w = some (.ok report, staging, w')) :
    ∃ new, Rewrites new clone staging := by
  unfold pullAndApplyRemote at ran
  split at ran
  · cases ran
  · cases ran
  · rename_i sync v fetched
    obtain ⟨⟨counts, b, u⟩, replayed, same⟩ := Option.map_eq_some_iff.mp ran
    simp only [Prod.mk.injEq] at same
    obtain ⟨done, rfl, _⟩ := same
    have kept := replayEntries_invariant (applyFetched httpFederationClient)
      (fun _ c _ => ∃ new, Rewrites new clone c) (fun _ _ _ _ here _ => here) (fun _ _ => True)
      (by
        rintro entry rest c w c' w' ⟨new, r⟩ _ taken
        obtain ⟨more, r'⟩ := rewrites_fetched entry c c' w w' taken
        exact ⟨_, rewrites_trans r r'⟩)
      (fun _ _ _ _ _ _ _ _ _ _ => trivial) _ 0 0 clone v counts b u
      ⟨[], rewrites_refl clone⟩ replayed
    rcases kept with ⟨_, _, r⟩ | ⟨e, failed, _⟩
    · exact r
    · rw [failed] at done
      cases done

theorem reflected_rewrites {new : List JournalEntry} {before after : ExchangeBroker}
    (r : Rewrites new before after) (e : ServerEvent) (untouched : ∀ f ∈ new, f.key ≠ e.oid) :
    Reflected after e ↔ Reflected before e := by
  have last : ∀ k, (∀ f ∈ new, f.key ≠ k) →
      lastOn JournalEntry.key k after.journal = lastOn JournalEntry.key k before.journal := by
    intro k missed
    rw [r.journal, lastOn_append_untouched JournalEntry.key before.journal missed]
  cases e with
  | put i =>
    simp only [Reflected]
    rw [r.store i.oid untouched, r.inactive i.oid untouched, last i.oid untouched]
  | delete oid =>
    simp only [Reflected]
    rw [r.inactive oid untouched, last oid untouched]
  | replicated oid => exact Iff.rfl

theorem replicatedOids_rewrites {new : List JournalEntry} {clone staging : ExchangeBroker}
    (r : Rewrites new clone staging) : replicatedOids clone staging = new.map JournalEntry.key := by
  rw [replicatedOids, r.journal, List.drop_left]

theorem reflectsAll_write {before after : ExchangeBroker} {history : List ServerEvent}
    (all : ReflectsAll before history) (e : ServerEvent) (advance : Advances before after e.oid)
    (shows' : Reflected after e) : ReflectsAll after (history ++ [e]) := by
  intro oid f last
  rw [lastOn_snoc] at last
  split at last
  · exact Option.some.inj last ▸ shows'
  · rename_i other
    obtain ⟨entry, key, r⟩ := rewrites_advance advance
    have on := (lastOn_mem ServerEvent.oid last).2
    rw [reflected_rewrites r f]
    · exact all oid f last
    · intro g mem
      rw [List.mem_singleton.mp mem, key, on]
      exact other

end Rewriting

def PhaseSound (history : List ServerEvent) : NotifyPhase → Prop
  | .cloned _ clone seen => seen ≤ history.length ∧ ReflectsAll clone (history.take seen)
  | .pulled clone staging seen => seen ≤ history.length ∧ ReflectsAll clone (history.take seen) ∧
      ∃ new, Rewrites new clone staging
  | _ => True

def Sound (s : Server) : Prop := NoLostUpdate s ∧ ∀ id, PhaseSound s.history (s.handlers id)

section Store
omit [UnicodeCase]

theorem phaseSound_append {history : List ServerEvent} {phase : NotifyPhase}
    (sound : PhaseSound history phase) (more : List ServerEvent) :
    PhaseSound (history ++ more) phase := by
  cases phase with
  | idle => trivial
  | sinceRead since => trivial
  | cloned since clone seen =>
    obtain ⟨bound, all⟩ := sound
    refine ⟨by rw [List.length_append]; omega, ?_⟩
    rwa [List.take_append_of_le_length bound]
  | pulled clone staging seen =>
    obtain ⟨bound, all, r⟩ := sound
    refine ⟨by rw [List.length_append]; omega, ?_, r⟩
    rwa [List.take_append_of_le_length bound]

theorem phaseSound_setPhase {s : Server} (sound : ∀ id, PhaseSound s.history (s.handlers id))
    (id : Nat) (phase : NotifyPhase) (here : PhaseSound s.history phase) :
    ∀ k, PhaseSound s.history ((s.setPhase id phase).handlers k) := by
  intro k
  by_cases same : k = id
  · subst same
    simpa [Server.setPhase] using here
  · simpa [Server.setPhase, same] using sound k

theorem commitPut_reflected (b : ExchangeBroker) (i : MimInstance) :
    Reflected (b.commitPut i) (.put i) := by
  refine ⟨?_, ?_, ?_⟩
  · rw [commitPut_store, get_insert, if_pos rfl]
  · rw [commitPut_inactive]
    exact Finset.notMem_erase _ _
  · rw [commitPut_journal, lastOn_snoc, if_pos rfl]
    exact ⟨_, rfl, rfl⟩

theorem commitDelete_reflected (b : ExchangeBroker) (oid : ObjectIdentifier) :
    Reflected (b.commitDelete oid) (.delete oid) := by
  refine ⟨Finset.mem_insert_self _ _, ?_⟩
  rw [commitDelete_journal, lastOn_snoc, if_pos rfl]
  exact ⟨_, rfl, rfl⟩

theorem lastOn_replicated (oid : ObjectIdentifier) (oids : List ObjectIdentifier) :
    lastOn ServerEvent.oid oid (oids.map ServerEvent.replicated) =
      if oid ∈ oids then some (.replicated oid) else none := by
  induction oids using List.reverseRecOn with
  | nil => rfl
  | append_singleton oids k ih =>
    rw [List.map_append, List.map_singleton, lastOn_snoc, ih]
    by_cases same : k = oid
    · subst same
      simp [ServerEvent.oid]
    · have other : ¬ oid = k := fun h => same h.symm
      simp [ServerEvent.oid, same, other]

theorem stored_reflects_iff {history : List ServerEvent} {clone staging : ExchangeBroker}
    {seen : Nat} (sound : PhaseSound history (.pulled clone staging seen)) :
    ReflectsAll staging (history ++ (replicatedOids clone staging).map .replicated) ↔
      ∀ oid e, lastOn ServerEvent.oid oid (history.drop seen) = some e → e.Acknowledged →
        oid ∈ replicatedOids clone staging ∨ Reflected clone e := by
  obtain ⟨bound, all, new, r⟩ := sound
  have elsewhere : ∀ e : ServerEvent, e.oid ∉ replicatedOids clone staging →
      (Reflected staging e ↔ Reflected clone e) := by
    intro e missing
    refine reflected_rewrites r e fun f mem same => missing ?_
    rw [replicatedOids_rewrites r, ← same]
    exact List.mem_map_of_mem mem
  have split : ∀ oid, lastOn ServerEvent.oid oid history =
      (lastOn ServerEvent.oid oid (history.drop seen)).or
        (lastOn ServerEvent.oid oid (history.take seen)) := by
    intro oid
    rw [← lastOn_append, List.take_append_drop]
  constructor
  · intro shown oid e last _
    by_cases rewritten : oid ∈ replicatedOids clone staging
    · exact .inl rewritten
    · have on := (lastOn_mem ServerEvent.oid last).2
      refine .inr ((elsewhere e (on ▸ rewritten)).mp (shown oid e ?_))
      rw [lastOn_append, lastOn_replicated, if_neg rewritten, Option.none_or, split, last]
      rfl
  · intro current oid e last
    rw [lastOn_append, lastOn_replicated] at last
    split at last
    · obtain rfl := Option.some.inj last
      trivial
    · rename_i missing
      rw [Option.none_or] at last
      have on := (lastOn_mem ServerEvent.oid last).2
      rw [elsewhere e (on ▸ missing)]
      rw [split] at last
      cases recent : lastOn ServerEvent.oid oid (history.drop seen) with
      | none =>
        rw [recent, Option.none_or] at last
        exact all oid e last
      | some f =>
        rw [recent, Option.some_or, Option.some.injEq] at last
        subst last
        cases f with
        | replicated k => trivial
        | put i => exact (current oid _ recent trivial).resolve_left missing
        | delete k => exact (current oid _ recent trivial).resolve_left missing

end Store

section Step

variable {s next : Server} (sound : Sound s)
include sound

omit [UnicodeCase] in
theorem sound_write (b : ExchangeBroker) (e : ServerEvent) (advance : Advances s.broker.inner b e.oid)
    (shows' : Reflected b e) :
    Sound (s.record (s.broker.withInner b) e) ∧
      s.broker.inner.appliedSequence ≤
        (s.record (s.broker.withInner b) e).broker.inner.appliedSequence :=
  ⟨⟨reflectsAll_write sound.1 e advance shows', fun id => phaseSound_append (sound.2 id) _⟩,
    Nat.le_of_eq advance.applied.symm⟩

omit [UnicodeCase] in
theorem sound_setPhase (id : Nat) (phase : NotifyPhase) (here : PhaseSound s.history phase) :
    Sound (s.setPhase id phase) ∧
      s.broker.inner.appliedSequence ≤ (s.setPhase id phase).broker.inner.appliedSequence :=
  ⟨⟨sound.1, phaseSound_setPhase sound.2 id phase here⟩, Nat.le_refl _⟩

theorem handlePut_sound
    (admitted : Except TransportError (SubjectAttributes × PutObjectRequest))
    (taken : handlePut s admitted = some next) :
    Sound next ∧ s.broker.inner.appliedSequence ≤ next.broker.inner.appliedSequence := by
  unfold handlePut at taken
  split at taken
  · exact Option.some.inj taken ▸ ⟨sound, Nat.le_refl _⟩
  · rename_i subject request
    split at taken
    · cases taken
    · rename_i e broker ran
      obtain rfl := Option.some.inj taken
      rcases putObjectAs_cases s.broker subject request _ _ ran with
        ⟨_, rfl, _⟩ | ⟨_, _, ⟨_, impossible⟩, _⟩
      · exact ⟨sound, Nat.le_refl _⟩
      · cases impossible
    · rename_i response broker ran
      obtain rfl := Option.some.inj taken
      rcases putObjectAs_cases s.broker subject request _ _ ran with
        ⟨⟨_, impossible⟩, _⟩ | ⟨_, _, _, rfl⟩
      · cases impossible
      · exact sound_write sound _ (.put request.inst) (advances_commitPut _ _)
          (commitPut_reflected _ _)

theorem deleteObject_sound
    (admitted : Except TransportError (SubjectAttributes × DeleteObjectRequest)) :
    Sound (deleteObject s admitted) ∧
      s.broker.inner.appliedSequence ≤ (deleteObject s admitted).broker.inner.appliedSequence := by
  unfold deleteObject
  split
  · exact ⟨sound, Nat.le_refl _⟩
  · rename_i subject request
    rcases deleteObjectAs_cases s.broker subject request with ⟨e, ran⟩ | ⟨response, _, ran⟩
    · rw [ran]
      exact ⟨sound, Nat.le_refl _⟩
    · rw [ran]
      exact sound_write sound _ (.delete request.oid) (advances_commitDelete _ _)
        (commitDelete_reflected _ _)

theorem notifyRead_sound {id : Nat} (taken : serverStep s (.notifyRead id) = some next) :
    Sound next ∧ s.broker.inner.appliedSequence ≤ next.broker.inner.appliedSequence := by
  simp only [serverStep] at taken
  split at taken
  · exact Option.some.inj taken ▸ ⟨sound, Nat.le_refl _⟩
  · exact Option.some.inj taken ▸ sound_setPhase sound id _ trivial
  · cases taken

theorem notifyClone_sound {id : Nat} (taken : serverStep s (.notifyClone id) = some next) :
    Sound next ∧ s.broker.inner.appliedSequence ≤ next.broker.inner.appliedSequence := by
  simp only [serverStep] at taken
  split at taken
  · refine Option.some.inj taken ▸ sound_setPhase sound id _ ⟨Nat.le_refl _, ?_⟩
    rw [List.take_length]
    exact sound.1
  · cases taken

theorem notifyPull_sound {id : Nat} {answers : RemoteAnswers}
    (taken : serverStep s (.notifyPull id answers) = some next) :
    Sound next ∧ s.broker.inner.appliedSequence ≤ next.broker.inner.appliedSequence := by
  simp only [serverStep] at taken
  split at taken
  · rename_i since clone seen phase
    have here := sound.2 id
    rw [phase] at here
    split at taken
    · cases taken
    · exact Option.some.inj taken ▸ sound_setPhase sound id _ trivial
    · rename_i report staging w ran
      exact Option.some.inj taken ▸ sound_setPhase sound id _
        ⟨here.1, here.2, rewrites_replicate clone staging since answers w report ran⟩
  · cases taken

omit [UnicodeCase] sound in
theorem storesCurrent_iff {id seen : Nat} {clone staging : ExchangeBroker}
    (phase : s.handlers id = .pulled clone staging seen) : StoresCurrent s (.notifyStore id) ↔
      (∀ oid e, lastOn ServerEvent.oid oid (s.history.drop seen) = some e → e.Acknowledged →
        oid ∈ replicatedOids clone staging ∨ Reflected clone e) ∧
      s.broker.inner.appliedSequence ≤ staging.appliedSequence := by
  constructor
  · intro stores
    exact stores clone staging seen phase
  · intro holds c t n phase'
    rw [phase, NotifyPhase.pulled.injEq] at phase'
    obtain ⟨rfl, rfl, rfl⟩ := phase'
    exact holds

theorem notifyStore_keeps_iff {id : Nat} (taken : serverStep s (.notifyStore id) = some next) :
    (KeepsUpdates s (.notifyStore id) next ↔ StoresCurrent s (.notifyStore id)) ∧
      (KeepsUpdates s (.notifyStore id) next → Sound next) := by
  simp only [serverStep] at taken
  split at taken
  · rename_i clone staging seen phase
    have here := sound.2 id
    rw [phase] at here
    obtain rfl := Option.some.inj taken
    refine ⟨?_, fun kept => ⟨kept.1, ?_⟩⟩
    · rw [storesCurrent_iff phase]
      exact and_congr_left' (stored_reflects_iff here)
    · intro k
      exact phaseSound_append (phaseSound_setPhase sound.2 id .idle trivial k) _
  · cases taken

theorem serverStep_keeps_iff (l : ServerStep) (taken : serverStep s l = some next) :
    (KeepsUpdates s l next ↔ StoresCurrent s l) ∧ (KeepsUpdates s l next → Sound next) := by
  have quiet : Sound next ∧ s.broker.inner.appliedSequence ≤ next.broker.inner.appliedSequence →
      StoresCurrent s l →
      (KeepsUpdates s l next ↔ StoresCurrent s l) ∧ (KeepsUpdates s l next → Sound next) :=
    fun kept current => ⟨iff_of_true ⟨kept.1.1, kept.2⟩ current, fun _ => kept.1⟩
  cases l with
  | put admitted => exact quiet (handlePut_sound sound admitted taken) trivial
  | delete admitted =>
    exact quiet (Option.some.inj taken ▸ deleteObject_sound sound admitted) trivial
  | notifyRead id => exact quiet (notifyRead_sound sound taken) trivial
  | notifyClone id => exact quiet (notifyClone_sound sound taken) trivial
  | notifyPull id answers => exact quiet (notifyPull_sound sound taken) trivial
  | notifyStore id => exact notifyStore_keeps_iff sound taken

end Step

omit [UnicodeCase] in
theorem noLostUpdate_start (broker : SecuredExchangeBroker) (client : Except TransportError Unit) :
    NoLostUpdate (.start broker client) := by
  intro oid e last
  cases last

/-- Over whole runs: no acknowledged write is ever lost and the applied sequence never goes back
if and only if every handler that stores its staging finds it current. -/
theorem run_keeps_updates_iff (broker : SecuredExchangeBroker) (client : Except TransportError Unit)
    (labels : List ServerStep) :
    EveryStep serverStep KeepsUpdates (.start broker client) labels ↔
      EveryStep serverStep (fun s l _ => StoresCurrent s l) (.start broker client) labels := by
  have start : Sound (.start broker client) := ⟨noLostUpdate_start broker client, fun _ => trivial⟩
  exact everyStep_iff_within serverStep Sound (fun _ _ _ => True) KeepsUpdates
    (fun s l _ => StoresCurrent s l)
    (fun s l next sound taken _ => serverStep_keeps_iff sound l taken) labels _ start
    (everyStep_of_forall serverStep _ (fun _ _ _ _ => trivial) labels _)

def lostUpdateFixture : List ServerStep := [
  .notifyRead 0, .notifyClone 0, .put (.ok (secretSubject, ⟨classified "a" "SECRET"⟩)),
  .notifyPull 0 ⟨fun _ => .ok ⟨0, []⟩, []⟩, .notifyStore 0]

omit [UnicodeCase] in
/-- The handler's store discards the acknowledged put. -/
theorem acknowledged_put_lost :
    ¬ ∀ [UnicodeCase] (broker : SecuredExchangeBroker) (client : Except TransportError Unit)
        (labels : List ServerStep),
      EveryStep serverStep KeepsUpdates (.start broker client) labels := by
  intro claim
  let _ : UnicodeCase := asciiCase
  have reaches : (run serverStep (.start securedFixture (.ok ())) lostUpdateFixture).map (fun s =>
      ((lastOn ServerEvent.oid ⟨"a"⟩ s.history).map fun e =>
          match e with
          | .put _ => true
          | _ => false,
        decide (⟨"a"⟩ ∈ s.broker.inner.store.keys))) = some (some true, false) := by
    decide +kernel
  obtain ⟨s, reached, observed⟩ := Option.map_eq_some_iff.mp reaches
  rw [Prod.mk.injEq, decide_eq_false_iff_not] at observed
  obtain ⟨written, absent⟩ := observed
  obtain ⟨e, last, isPut⟩ := Option.map_eq_some_iff.mp written
  have shown := everyStep_reached serverStep KeepsUpdates NoLostUpdate (fun _ _ _ _ kept => kept.1)
    lostUpdateFixture _ s (noLostUpdate_start _ _) (claim securedFixture (.ok ()) lostUpdateFixture)
    reached ⟨"a"⟩ e last
  cases e with
  | put i =>
    have on : i.oid = ⟨"a"⟩ := (lastOn_mem ServerEvent.oid last).2
    refine absent ?_
    rw [mem_keys, ← on, shown.1]
    rfl
  | delete oid => cases isPut
  | replicated oid => cases isPut

end MimHttp
