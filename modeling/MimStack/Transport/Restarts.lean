import MimStack.Lib.Checkpoints
import MimStack.Transport.Audited
import MimStack.Transport.Federation
import MimStack.Transport.Mutual
import MimStack.Transport.Persistence

/-!
Brokers that are started again from their file. Clients cannot tell a restarted broker from one
that never stopped, but for the calls after its last save. Publishers can: a replica with writes of
its own comes back as if it had seen as many of theirs.
-/
namespace MimTransport
open RustText ByteText ObjectSystems Checkpoints Fallible StepRuns MimCore MimModel MimRuntime
open MimPolicy ExchangeBroker SecuredExchangeBroker FileExchangeStore

section Cursor

variable [UnicodeCase]

def SecuredExchangeBroker.withCursor (s : SecuredExchangeBroker) (sequence : Nat) :
    SecuredExchangeBroker :=
  s.withInner (s.inner.setApplied sequence)

variable (s : SecuredExchangeBroker) (sequence : Nat)

omit [UnicodeCase] in
theorem putObject_setApplied (b : ExchangeBroker) (request : PutObjectRequest) :
    (b.setApplied sequence).putObject request =
      (b.putObject request).map fun r => (r.1, r.2.setApplied sequence) := by
  unfold ExchangeBroker.putObject
  have registry : (b.setApplied sequence).registry = b.registry := rfl
  rw [registry]
  cases validatePut b.registry request.inst with
  | none => rfl
  | some checked => cases checked <;> rfl

theorem putObjectAs_withCursor (subject : SubjectAttributes) (request : PutObjectRequest) :
    (s.withCursor sequence).putObjectAs subject request =
      (s.putObjectAs subject request).map fun r => (r.1, r.2.withCursor sequence) := by
  unfold putObjectAs
  have permission : (s.withCursor sequence).authorize subject request.inst .write =
      s.authorize subject request.inst .write := rfl
  have inner : (s.withCursor sequence).inner = s.inner.setApplied sequence := rfl
  rw [permission, inner, putObject_setApplied]
  cases s.authorize subject request.inst .write with
  | error e => rfl
  | ok decision =>
    cases s.inner.putObject request with
    | none => rfl
    | some r => rfl

omit [UnicodeCase] in
theorem deleteObject_setApplied (b : ExchangeBroker) (request : DeleteObjectRequest) :
    (b.setApplied sequence).deleteObject request =
      ((b.deleteObject request).1, (b.deleteObject request).2.setApplied sequence) := by
  unfold ExchangeBroker.deleteObject
  have stored : (b.setApplied sequence).storeContains request.oid = b.storeContains request.oid := rfl
  rw [stored]
  split <;> rfl

theorem deleteObjectAs_withCursor (subject : SubjectAttributes) (request : DeleteObjectRequest) :
    (s.withCursor sequence).deleteObjectAs subject request =
      ((s.deleteObjectAs subject request).1,
        (s.deleteObjectAs subject request).2.withCursor sequence) := by
  unfold deleteObjectAs
  have found : (s.withCursor sequence).inner.getByOid ⟨request.oid⟩ =
      s.inner.getByOid ⟨request.oid⟩ := rfl
  have inner : (s.withCursor sequence).inner = s.inner.setApplied sequence := rfl
  rw [found, inner, deleteObject_setApplied]
  cases s.inner.getByOid ⟨request.oid⟩ with
  | error e => rfl
  | ok existing =>
    have permission : (s.withCursor sequence).authorize subject existing.inst .delete =
        s.authorize subject existing.inst .delete := rfl
    dsimp only
    rw [permission]
    cases s.authorize subject existing.inst .delete with
    | error e => rfl
    | ok decision => rfl

theorem permittedInstances_withCursor (subject : SubjectAttributes) (instances : List MimInstance) :
    (s.withCursor sequence).permittedInstances subject instances =
      s.permittedInstances subject instances := by
  induction instances with
  | nil => rfl
  | cons i rest ih =>
    rw [permittedInstances, permittedInstances, ih]
    rfl

theorem getByFilterAs_withCursor (subject : SubjectAttributes) (request : GetByFilterRequest) :
    (s.withCursor sequence).getByFilterAs subject request = s.getByFilterAs subject request := by
  unfold getByFilterAs
  have found : (s.withCursor sequence).inner.getByFilter request = s.inner.getByFilter request := rfl
  simp only [found, permittedInstances_withCursor]

theorem answerAccess_withCursor (call : AccessCall) :
    (s.withCursor sequence).answerAccess call =
      (s.answerAccess call).map fun r => (r.1, r.2.withCursor sequence) := by
  cases call with
  | object call =>
    obtain ⟨subject, request⟩ := call
    cases request with
    | put request =>
      simp only [answerAccess, answerCall, putObjectAs_withCursor, Option.map_map]
      rfl
    | get request => rfl
    | delete request =>
      simp only [answerAccess, answerCall, deleteObjectAs_withCursor]
      rfl
  | query subject request =>
    simp only [answerAccess, getByFilterAs_withCursor]
    rfl
  | sync subject since => rfl

def SameButCursor (s t : SecuredExchangeBroker) : Prop := ∃ sequence, s = t.withCursor sequence

theorem sameButCursor_alike : Alike answerAccess SameButCursor where
  refl s := ⟨s.inner.appliedSequence, rfl⟩
  trans := by
    intro s t u one two
    obtain ⟨first, rfl⟩ := one
    obtain ⟨second, rfl⟩ := two
    exact ⟨first, rfl⟩
  step := by
    intro s t call answer next like taken
    obtain ⟨sequence, rfl⟩ := like
    rw [answerAccess_withCursor] at taken
    obtain ⟨⟨a, other⟩, ran, made⟩ := Option.map_eq_some_iff.mp taken
    obtain ⟨rfl, rfl⟩ := Prod.mk.inj made
    exact ⟨other, ran, sequence, rfl⟩

end Cursor

section Nodes

variable [UnicodeCase] (S : SnapshotIo) (base : SecuredExchangeBroker)

/-- The file of a broker, and how one that is configured like `base` comes up from it. -/
def storeDisk : Disk SecuredExchangeBroker StoreFile where
  write s file := (save S s.inner {} file).2
  read file := (load S base.inner.registry file).toOption.map base.withInner

def ConfiguredAs (s : SecuredExchangeBroker) : Prop :=
  s = base.withInner s.inner ∧ s.inner.registry = base.inner.registry

variable {S base}

omit [UnicodeCase] in
theorem load_registry {registry : ModelRegistry} {file : StoreFile} {b : ExchangeBroker}
    (loaded : load S registry file = .ok b) : b.registry = registry := by
  cases file with
  | none =>
    obtain rfl := Except.ok.inj loaded
    rfl
  | some bytes =>
    obtain ⟨snapshot, _, made⟩ := bind_ok.mp loaded
    split at made
    · cases made
    · obtain rfl := pure_ok.mp made
      rfl

theorem answerAccess_configured {s next : SecuredExchangeBroker} {call : AccessCall}
    {answer : AccessAnswer} (configured : ConfiguredAs base s)
    (taken : s.answerAccess call = some (answer, next)) : ConfiguredAs base next := by
  obtain ⟨same, registry⟩ := configured
  refine ⟨?_, ?_⟩
  · rw [answerAccess_inner taken, same]
    rfl
  · cases call with
    | object call =>
      obtain ⟨⟨a, t⟩, ran, made⟩ := Option.map_eq_some_iff.mp taken
      obtain ⟨_, rfl⟩ := Prod.mk.inj made
      rcases answerCall_left ran with rfl | ⟨i, _, rfl⟩ | ⟨_, rfl⟩
      · exact registry
      · exact registry
      · exact registry
    | query subject request =>
      obtain ⟨_, rfl⟩ := Prod.mk.inj (Option.some.inj taken)
      exact registry
    | sync subject since =>
      obtain ⟨_, rfl⟩ := Prod.mk.inj (Option.some.inj taken)
      exact registry

theorem node_configured (n : Node SecuredExchangeBroker StoreFile) (event : Event AccessCall)
    (answer : Option AccessAnswer) (next : Node SecuredExchangeBroker StoreFile)
    (configured : ConfiguredAs base n.live)
    (taken : node answerAccess (storeDisk S base) n event = some (answer, next)) :
    ConfiguredAs base next.live := by
  cases event with
  | call call =>
    obtain ⟨r, ran, made⟩ := Option.map_eq_some_iff.mp taken
    obtain ⟨_, rfl⟩ := Prod.mk.inj made
    exact answerAccess_configured configured ran
  | save =>
    obtain ⟨_, rfl⟩ := Prod.mk.inj (Option.some.inj taken)
    exact configured
  | restart =>
    obtain ⟨s, read, made⟩ := Option.map_eq_some_iff.mp taken
    obtain ⟨_, rfl⟩ := Prod.mk.inj made
    obtain ⟨b, loaded, rfl⟩ := Option.map_eq_some_iff.mp read
    cases came : load S base.inner.registry n.file with
    | error e =>
      rw [came] at loaded
      cases loaded
    | ok other =>
      rw [came] at loaded
      obtain rfl := Option.some.inj loaded
      exact ⟨rfl, load_registry came⟩

omit [UnicodeCase] in
theorem storeDisk_readsBack {n : Node SecuredExchangeBroker StoreFile}
    (configured : ConfiguredAs base n.live) (keeps : S.Keeps n.live.inner) :
    ReadsBack (storeDisk S base) SameButCursor n := by
  obtain ⟨same, registry⟩ := configured
  have written : (storeDisk S base).write n.live n.file =
      some (snapshotOf S n.live.inner).toBytes := save_left n.live.inner {} n.file
  have loaded := load_saved keeps
  rw [registry] at loaded
  refine ⟨base.withInner (restored n.live.inner), ?_, (restored n.live.inner).appliedSequence, ?_⟩
  · rw [written]
    exact congrArg (fun r => r.toOption.map base.withInner) loaded
  · rw [same]
    rfl

/-- A node whose saved snapshots read back, saved and restarted at any moments, answers every next
call as a broker that was only ever given the calls that survive, and can be restarted again. -/
theorem survivors_decide {registry : ModelRegistry} (fresh : base.inner = .new registry)
    {events : List (Event AccessCall)} {answers : List (Option AccessAnswer)}
    {final : Node SecuredExchangeBroker StoreFile}
    (ran : serve (node answerAccess (storeDisk S base)) ⟨base, none⟩ events = some (answers, final))
    (keeps : ∀ m ∈ saved answerAccess (storeDisk S base) ⟨base, none⟩ events,
      S.Keeps m.live.inner) :
    (∃ plain s, serve answerAccess base (surviving events).live = some (plain, s) ∧
      ∀ call, (final.live.answerAccess call).map Prod.fst = (s.answerAccess call).map Prod.fst) ∧
    ∃ next, node answerAccess (storeDisk S base) final .restart = some (none, next) := by
  have itself : StandsFor answerAccess SameButCursor base base [] :=
    ⟨[], base, rfl, sameButCursor_alike.refl base⟩
  have begun : (storeDisk S base).read none = some base := by
    have emptied : base.withInner (.new base.inner.registry) = base := by
      rw [fresh]
      exact congrArg base.withInner fresh.symm
    exact congrArg some emptied
  have start : ConfiguredAs base base := ⟨rfl, rfl⟩
  have configured : ∀ m ∈ saved answerAccess (storeDisk S base) ⟨base, none⟩ events,
      ConfiguredAs base m.live := saved_keeps node_configured events start
  have fromBase : Tracks answerAccess (storeDisk S base) SameButCursor base {} ⟨base, none⟩ :=
    ⟨itself, base, begun, itself⟩
  have tracks := tracks_run sameButCursor_alike events fromBase
    (fun m mem => storeDisk_readsBack (configured m mem) (keeps m mem)) ran
  obtain ⟨⟨plain, s, served, sequence, same⟩, t, read, _⟩ := tracks
  refine ⟨⟨plain, s, served, ?_⟩, _, node_restart read⟩
  intro call
  rw [same, answerAccess_withCursor, Option.map_map]
  rfl

end Nodes

section Replicas

variable {consumer after : ExchangeBroker} {entry : JournalEntry} {oid : ObjectIdentifier}

theorem entry_spares {found : Option MimInstance} {result : Except TransportError Unit}
    (named : ∀ i, found = some i → i.oid = entry.oid)
    (applied : EntryApplied consumer entry found result after) (other : oid ≠ entry.oid) :
    after.getByOid ⟨oid⟩ = consumer.getByOid ⟨oid⟩ := by
  cases applied with
  | refused e => rfl
  | put i operation here accepted =>
    have own : oid ≠ i.oid := named i here ▸ other
    have spared := getByOid_advances (advances_commitPut consumer i) own
    exact spared
  | delete operation =>
    unfold afterDeleteEntry
    split
    · have spared := getByOid_advances (advances_commitDelete consumer entry.oid) other
      exact spared
    · rfl

/-- The replica has passed the first `n` entries, and answers for the objects that are quiet as it
did before. -/
structure Spared (n : Nat) (before : ExchangeBroker) (quiet : ObjectIdentifier → Prop)
    (consumer : ExchangeBroker) : Prop where
  cursor : n ≤ consumer.appliedSequence
  answer : ∀ oid, quiet oid → consumer.getByOid ⟨oid⟩ = before.getByOid ⟨oid⟩

variable {n : Nat} {before : ExchangeBroker} {quiet : ObjectIdentifier → Prop}

theorem applied_spares {found : Option MimInstance} {result : Except TransportError Unit}
    (spared : Spared n before quiet consumer) (ahead : consumer.appliedSequence < entry.sequence)
    (silent : quiet entry.oid → entry.sequence ≤ n) (named : ∀ i, found = some i → i.oid = entry.oid)
    (applied : EntryApplied consumer entry found result after) : Spared n before quiet after := by
  have passed := spared.cursor
  refine ⟨?_, fun oid still => ?_⟩
  · rcases entry_cursor applied with kept | moved
    · omega
    · omega
  · have other : oid ≠ entry.oid := by
      rintro rfl
      have low := silent still
      omega
    exact (entry_spares named applied other).trans (spared.answer oid still)

variable [UnicodeCase] {subject : SubjectAttributes} {w w' : RacingPublisher}

theorem writes_extend {s next : SecuredExchangeBroker} {writes : List SecuredStep}
    (ran : run securedStep s writes = some next) : s.inner.journal <+: next.inner.journal := by
  refine invariant securedStep (fun t => s.inner.journal <+: t.inner.journal) ?_ writes s next
    List.prefix_rfl ran
  intro t step u grown taken
  rcases securedStep_cases t u step taken with rfl | ⟨b, _, rfl, advance, _⟩
  · exact grown
  · obtain ⟨operation, journal⟩ := advance.journal
    rw [withInner_inner, journal]
    exact grown.trans (List.prefix_append _ _)

theorem fetched_named {s : SecuredExchangeBroker} {failure : Option TransportError}
    {i : MimInstance} (fetched : answerFetch s subject oid failure = .ok i) : i.oid = oid := by
  unfold answerFetch at fetched
  split at fetched
  · cases fetched
  · split at fetched
    · cases fetched
    · rename_i response got
      obtain rfl := Except.ok.inj fetched
      obtain ⟨_, stored, _⟩ := (getByOidAs_ok_iff s subject oid response).mp got
      exact s.inner.store.keyed oid _ stored

theorem fetched_spares {result : Except TransportError Unit}
    (spared : Spared n before quiet consumer) (ahead : consumer.appliedSequence < entry.sequence)
    (silent : quiet entry.oid → entry.sequence ≤ n)
    (ran : applyFetched (subjectView subject) entry consumer w = some (result, after, w')) :
    Spared n before quiet after := by
  obtain ⟨_, failed | fetched | other⟩ := fetched_entry subject entry consumer after w w' result ran
  · obtain ⟨_, _, rfl⟩ := failed
    exact spared
  · obtain ⟨i, failure, _, got, applied⟩ := fetched
    refine applied_spares spared ahead silent ?_ (applyRemoteEntry_applied applied)
    intro j same
    obtain rfl := Option.some.inj same
    exact fetched_named got
  · refine applied_spares spared ahead silent ?_ (applyRemoteEntry_applied other.2)
    intro j same
    cases same

def SilentSince (n : Nat) (s : SecuredExchangeBroker) (oid : ObjectIdentifier) : Prop :=
  ∀ e ∈ s.inner.journal, e.oid = oid → e.sequence ≤ n

omit [UnicodeCase] in
theorem spared_longer {s t : SecuredExchangeBroker} (grown : s.inner.journal <+: t.inner.journal)
    (spared : Spared n before (SilentSince n s) consumer) :
    Spared n before (SilentSince n t) consumer :=
  ⟨spared.cursor, fun oid silent =>
    spared.answer oid fun e member => silent e (grown.subset member)⟩

theorem pull_spares {result : Except TransportError ReplicationApplyReport}
    (spared : Spared n before (SilentSince n w.broker) consumer)
    (ran : pullAndApplyRemote (subjectView subject) consumer consumer.lastAppliedSequence w =
      some (result, after, w')) :
    w.broker.inner.journal <+: w'.broker.inner.journal ∧
      Spared n before (SilentSince n w.broker) after := by
  obtain ⟨⟨counts, c, v⟩, replayed, final⟩ := Option.map_eq_some_iff.mp ran
  obtain ⟨_, rest⟩ := Prod.mk.inj final
  obtain ⟨rfl, rfl⟩ := Prod.mk.inj rest
  have entries : ∀ e ∈ (w.broker.syncSinceAs subject consumer.lastAppliedSequence).entries,
      e ∈ w.broker.inner.journal := fun e mem =>
    (List.filter_sublist.trans List.filter_sublist).subset mem
  have turn : ∀ {entry c v result mid v'}, w.broker.inner.journal <+: v.broker.inner.journal →
      entry ∈ w.broker.inner.journal → Spared n before (SilentSince n w.broker) c →
      c.appliedSequence < entry.sequence →
      applyFetched (subjectView subject) entry c v = some (result, mid, v') →
      w.broker.inner.journal <+: v'.broker.inner.journal ∧
        Spared n before (SilentSince n w.broker) mid := by
    intro entry c v result mid v' grown listed held ahead taken
    obtain ⟨⟨writes, written⟩, _⟩ := fetched_entry subject entry c mid v v' _ taken
    exact ⟨grown.trans (writes_extend written),
      fetched_spares held ahead (fun silent => silent entry listed rfl) taken⟩
  have kept := replayEntries_invariant (applyFetched (subjectView subject))
    (fun rest c v => w.broker.inner.journal <+: v.broker.inner.journal ∧
      (∀ e ∈ rest, e ∈ w.broker.inner.journal) ∧ Spared n before (SilentSince n w.broker) c)
    (fun entry rest c v inv passed =>
      ⟨inv.1, fun e mem => inv.2.1 e (List.mem_cons_of_mem _ mem), inv.2.2⟩)
    (fun c v => w.broker.inner.journal <+: v.broker.inner.journal ∧
      Spared n before (SilentSince n w.broker) c)
    (by
      intro entry rest c v after v' inv ahead taken
      obtain ⟨grown, listed, held⟩ := inv
      obtain ⟨longer, spares⟩ := turn grown (listed entry List.mem_cons_self) held ahead taken
      exact ⟨longer, fun e mem => listed e (List.mem_cons_of_mem _ mem), spares⟩)
    (by
      intro entry rest c v e after v' inv ahead taken
      obtain ⟨grown, listed, held⟩ := inv
      exact turn grown (listed entry List.mem_cons_self) held ahead taken)
    _ 0 0 consumer w _ _ _ ⟨List.prefix_rfl, entries, spared⟩ replayed
  rcases kept with ⟨_, _, grown, _, held⟩ | ⟨_, _, grown, held⟩
  · exact ⟨grown, held⟩
  · exact ⟨grown, held⟩

theorem federationStep_spares (f : Federation) (step : FederationStep) (next : Federation)
    (spared : Spared n before (SilentSince n f.publisher) f.consumer)
    (taken : federationStep subject f step = some next) :
    Spared n before (SilentSince n next.publisher) next.consumer := by
  cases step with
  | write step =>
    obtain ⟨p, written, rfl⟩ := Option.map_eq_some_iff.mp taken
    have ran : run securedStep f.publisher [step] = some p := by
      rw [StepRuns.run_cons, written]
      rfl
    exact spared_longer (writes_extend ran) spared
  | pull events =>
    obtain ⟨⟨result, c, w⟩, ran, rfl⟩ := Option.map_eq_some_iff.mp taken
    obtain ⟨grown, held⟩ := pull_spares (w := ⟨f.publisher, events⟩) spared ran
    exact spared_longer grown held

theorem listed_ahead {s : SecuredExchangeBroker} {since : Nat} {e : JournalEntry}
    (listed : e ∈ (s.syncSinceAs subject since).entries) : since < e.sequence := by
  have entries := (List.mem_filter.mp listed).1
  exact of_decide_eq_true (List.mem_filter.mp entries).2

/-- A replica that wrote but never pulled is restarted: its cursor is then its own sequence, no pull
lists an entry up to it, and the replica never hears of an object that its publisher changed
in those entries only. -/
theorem restarted_replica_skips {S : SnapshotIo} {b : ExchangeBroker} (keeps : S.Keeps b)
    (unsynced : b.appliedSequence = 0) {file left : StoreFile}
    (saved : (save S b {}).Yields file () left) :
    ∃ loaded, load S b.registry left = .ok loaded ∧ loaded.lastAppliedSequence = b.sequence ∧
      ∀ (subject : SubjectAttributes) (publisher : SecuredExchangeBroker)
        (steps : List FederationStep) (f : Federation),
        run (federationStep subject) ⟨publisher, loaded⟩ steps = some f →
        (∀ e ∈ (f.publisher.syncSinceAs subject f.consumer.lastAppliedSequence).entries,
          b.sequence < e.sequence) ∧
        ∀ oid, (∀ e ∈ f.publisher.inner.journal, e.oid = oid → e.sequence ≤ b.sequence) →
          f.consumer.getByOid ⟨oid⟩ = b.getByOid ⟨oid⟩ := by
  obtain rfl := save_yields.mp saved
  have cursor : (restored b).lastAppliedSequence = b.sequence := by
    rw [lastAppliedSequence, restored, if_pos unsynced]
    rfl
  refine ⟨restored b, load_saved keeps, cursor, ?_⟩
  intro subject publisher steps f reached
  have begun : Spared b.sequence b (SilentSince b.sequence publisher) (restored b) :=
    ⟨cursor.ge, fun oid _ => rfl⟩
  have spared := invariant (federationStep subject)
    (fun f => Spared b.sequence b (SilentSince b.sequence f.publisher) f.consumer)
    federationStep_spares steps ⟨publisher, restored b⟩ f begun reached
  exact ⟨fun e listed => Nat.lt_of_le_of_lt spared.cursor (listed_ahead listed), spared.answer⟩

end Replicas

section Fixtures

def restartFixture : List (Event AccessCall) :=
  [.call (.object putRestricted), .save, .call (.object putSecret), .restart]

theorem answerAccess_put [UnicodeCase] {s : SecuredExchangeBroker} {subject : SubjectAttributes}
    {i : MimInstance} (permitted : (s.authorize subject i .write).isOk = true)
    (valid : validatePut s.inner.registry i = some (.ok ())) :
    s.answerAccess (.object ⟨subject, .put ⟨i⟩⟩) =
      some (.object (.put (.ok ⟨i.oid, !s.inner.storeContains i.oid⟩)),
        s.withInner (s.inner.commitPut i)) := by
  rw [answerAccess, answerCall_put permitted valid, Option.map_some]

theorem survivors_decide_fixture : ∃ (_ : UnicodeCase) (answers : List (Option AccessAnswer))
    (final : Node SecuredExchangeBroker StoreFile),
    serve (node answerAccess (storeDisk (onlyFile (fileOf oneObject.inner)) securedFixture))
      ⟨securedFixture, none⟩ restartFixture = some (answers, final) ∧
    (final.live.answerAccess (.object ⟨secretSubject, .get ⟨⟨"x"⟩⟩⟩)).map Prod.fst =
      some (.object (.get (.error (.notFound "x")))) := by
  let case : UnicodeCase := asciiCase
  let S := onlyFile (fileOf oneObject.inner)
  have keeps : S.Keeps oneObject.inner := onlyFile_keeps rfl
  have first : securedFixture.answerAccess (.object putRestricted) =
      some (.object (.put (.ok ⟨⟨"r"⟩, true⟩)), oneObject) :=
    answerAccess_put (by decide +kernel) (wireInstance_accepted "r" _ (by decide))
  have second : oneObject.answerAccess (.object putSecret) =
      some (.object (.put (.ok ⟨⟨"x"⟩, true⟩)), oneMoreSecret) :=
    answerAccess_put (by decide +kernel) (wireInstance_accepted "x" _ (by decide))
  let file : StoreFile := some (snapshotOf S oneObject.inner).toBytes
  let restarted := securedFixture.withInner (restored oneObject.inner)
  have call : node answerAccess (storeDisk S securedFixture) ⟨securedFixture, none⟩
      (.call (.object putRestricted)) = some (_, ⟨oneObject, none⟩) :=
    node_call first
  have save : node answerAccess (storeDisk S securedFixture) ⟨oneObject, none⟩ .save =
      some (none, ⟨oneObject, file⟩) :=
    congrArg (fun file => some (none, Node.mk oneObject file)) (save_left oneObject.inner {} none)
  have later : node answerAccess (storeDisk S securedFixture) ⟨oneObject, file⟩
      (.call (.object putSecret)) = some (_, ⟨oneMoreSecret, file⟩) :=
    node_call second
  have restart : node answerAccess (storeDisk S securedFixture) ⟨oneMoreSecret, file⟩ .restart =
      some (none, ⟨restarted, file⟩) :=
    node_restart (congrArg (fun r => r.toOption.map securedFixture.withInner) (load_saved keeps))
  have ran : serve (node answerAccess (storeDisk S securedFixture)) ⟨securedFixture, none⟩
      restartFixture = some (_, ⟨restarted, file⟩) :=
    serve_cons.mpr ⟨_, _, _, call, serve_cons.mpr ⟨_, _, _, save, serve_cons.mpr ⟨_, _, _, later,
      serve_cons.mpr ⟨_, _, _, restart, rfl, rfl⟩, rfl⟩, rfl⟩, rfl⟩
  have savedOnce : saved answerAccess (storeDisk S securedFixture) ⟨securedFixture, none⟩
      restartFixture = [⟨oneObject, none⟩] := by
    rw [restartFixture, saved_cons_call call, saved_cons_call save, saved_cons_call later,
      saved_cons_call restart]
    rfl
  obtain ⟨⟨plain, s, served, same⟩, _⟩ := survivors_decide rfl ran (by
    intro m mem
    rw [savedOnce] at mem
    rw [List.mem_singleton.mp mem]
    exact keeps)
  refine ⟨case, _, _, ran, ?_⟩
  obtain ⟨a, mid, more, put, none, _⟩ := serve_cons.mp served
  obtain rfl := (Prod.mk.inj (Option.some.inj (first.symm.trans put))).2
  obtain rfl := (Prod.mk.inj (Option.some.inj none)).2
  rw [same]
  rfl

theorem restarted_replica_skips_fixture : ∃ (_ : UnicodeCase) (loaded : ExchangeBroker)
    (f : Federation), load (onlyFile (fileOf publisherBroker)) wireRegistry
        (some (snapshotOf (onlyFile (fileOf publisherBroker)) publisherBroker).toBytes) = .ok loaded ∧
    run (federationStep restrictedSubject) ⟨securedFixture, loaded⟩
      [.write (.put secretSubject ⟨classified "x" "RESTRICTED"⟩), .pull []] = some f ∧
    (f.publisher.getByOidAs restrictedSubject ⟨⟨"x"⟩⟩).isOk = true ∧
    (∀ e ∈ (f.publisher.syncSinceAs restrictedSubject f.consumer.lastAppliedSequence).entries,
      1 < e.sequence) ∧ f.consumer.getByOid ⟨⟨"x"⟩⟩ = publisherBroker.getByOid ⟨⟨"x"⟩⟩ := by
  let case : UnicodeCase := asciiCase
  have keeps : (onlyFile (fileOf publisherBroker)).Keeps publisherBroker := onlyFile_keeps rfl
  have saved : (save (onlyFile (fileOf publisherBroker)) publisherBroker {}).Yields none () _ :=
    save_yields.mpr rfl
  obtain ⟨loaded, came, _, skips⟩ := restarted_replica_skips keeps rfl saved
  obtain rfl := Except.ok.inj ((load_saved keeps).symm.trans came)
  have reaches : (run (federationStep restrictedSubject)
      ⟨securedFixture, restored publisherBroker⟩
      [.write (.put secretSubject ⟨classified "x" "RESTRICTED"⟩), .pull []]).map (fun f =>
        ((f.publisher.getByOidAs restrictedSubject ⟨⟨"x"⟩⟩).isOk,
          f.publisher.inner.journal.all fun e => decide (e.sequence ≤ 1))) = some (true, true) := by
    decide +kernel
  obtain ⟨f, reached, observed⟩ := Option.map_eq_some_iff.mp reaches
  obtain ⟨readable, early⟩ := Prod.mk.inj observed
  obtain ⟨ahead, quiet⟩ := skips restrictedSubject securedFixture _ f reached
  refine ⟨case, _, f, came, reached, readable, ahead, quiet ⟨"x"⟩ ?_⟩
  intro e mem _
  exact of_decide_eq_true (List.all_eq_true.mp early e mem)

end Fixtures

end MimTransport
