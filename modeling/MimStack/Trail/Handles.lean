import MimStack.Lib.Runs
import MimStack.Trail.Log

/-!
One audit path over a process's life and its restarts: logs are opened on it, any
open log records, and a restart forgets the logs but not the files.
-/
namespace MimAudit.Trail
open ByteText Fallible StepRuns MimCrypto

variable (B : AuditBackend)

def AuditSinkType.logOn (io : IoAnswers) : AuditSinkType → Effect AuditError Disk AuditLog
  | .file => AuditLog.file io
  | .worm => AuditLog.worm B io

def openLog (kind : AuditSinkType) (key : Option SigningKey) (io : IoAnswers) :
    Effect AuditError Disk AuditLog := do
  let log ← kind.logOn B io
  return key.elim log (log.withSigningKey B)

inductive Step where
  | openOn (kind : AuditSinkType) (key : Option SigningKey)
  | recordAt (handle : Nat) (record : StampedRecord)
  | restart

/-- The files, the logs opened since the last restart, and what every record call returned. -/
structure History where
  disk : Disk := {}
  logs : List AuditLog := []
  calls : List (StampedRecord × Except AuditError Unit) := []

def step (h : History) : Step → Option History
  | .openOn kind key =>
    match openLog B kind key {} h.disk with
    | (.ok log, disk) => some { h with disk, logs := h.logs ++ [log] }
    | (.error _, disk) => some { h with disk }
  | .recordAt handle record =>
    h.logs[handle]?.map fun log =>
      let (outcome, disk, after) := log.record B {} record h.disk
      { disk, logs := h.logs.set handle after, calls := h.calls ++ [(record, outcome)] }
  | .restart => some { h with logs := [] }

/-- Every call returned `Ok`, and the reloaded chain verifies and has every record in order. -/
def Survives (h : History) : Prop :=
  (∀ call ∈ h.calls, call.2 = .ok ()) ∧
    ∃ log disk, (AuditLog.loadFromFile B {}).Yields h.disk log disk ∧
      log.verifyChain B = .ok () ∧
      (h.calls.map Prod.fst).Sublist (log.envelopes.map (·.record))

/-- The envelope of the record can be made, and its line read back. -/
def NoIoFailure (h : History) : Step → Prop
  | .recordAt handle record => ∀ log, h.logs[handle]? = some log →
      ∃ e, log.envelopeFor B record = .ok e ∧ B.Reads e
  | _ => True

/-- The log called has itself made every record so far. -/
def SoleWriter (h : History) : Step → Prop
  | .recordAt handle _ => ∀ log, h.logs[handle]? = some log →
      log.envelopes.map (·.record) = h.calls.map Prod.fst
  | _ => True

def Sink.Ready (disk : Disk) : Sink → Prop
  | .file _ => True
  | .worm state => disk.file ≠ none ∧ disk.size = state.byteLength

theorem Sink.Ready.same {sink : Sink} {d after : Disk} (ready : sink.Ready d)
    (content : after.content = d.content) (present : after.file ≠ none) : sink.Ready after := by
  cases sink with
  | file count => trivial
  | worm state => exact ⟨present, by rw [Disk.size, content]; exact ready.2⟩

theorem verifyFileLength_ok (d : Disk) (expected : Nat) :
    verifyFileLength {} d expected = .ok () ↔ d.size = expected := by
  unfold verifyFileLength
  cases there : d.file with
  | none =>
    have empty : d.size = 0 := by simp [Disk.size, Disk.content, there]
    simp [empty, eq_comm]
  | some content =>
    by_cases same : d.size = expected
    · simp only [same, ne_eq, not_true_eq_false, if_false, iff_true]
      rfl
    · simp only [ne_eq, same, not_false_eq_true, if_true, iff_false]
      intro accepted
      cases accepted

theorem verifyFileLength_ok_file {io : IoAnswers} {d : Disk} {expected : Nat}
    (verified : verifyFileLength io d expected = .ok ()) : d.size = expected := by
  unfold verifyFileLength at verified
  split at verified
  · rename_i missing
    split at verified
    · rename_i zero
      rw [Disk.size, Disk.content, missing, zero]
      rfl
    · cases verified
  · obtain ⟨_, verified⟩ := check_ok.mp verified
    by_contra other
    rw [if_pos other] at verified
    cases verified

def AuditLog.recorder (io : IoAnswers) (stamp : AuditRecord → StampedRecord) :
    MimAudit.AuditLog (Disk × AuditLog) where
  record r s := s.2.record B io (stamp r) s.1

section Calls

variable {B}

theorem record_ready {log : AuditLog} {r : StampedRecord} {e : AuditEnvelope} {d : Disk}
    (made : log.envelopeFor B r = .ok e) (ready : log.sink.Ready d) :
    ∃ after sink, log.record B {} r d =
        (.ok (), after,
          { log with sink, previousHash := e.recordHash, envelopes := log.envelopes ++ [e] }) ∧
      after.content = d.content ++ e.endedLine ∧ after.file ≠ none ∧
        sink.Ready after := by
  obtain ⟨sink, previousHash, envelopes, signingKey, verifyingKey⟩ := log
  cases sink with
  | file count =>
    refine ⟨d.appended e.endedLine, .file (count + 1), ?_, rfl, nofun, trivial⟩
    unfold AuditLog.record
    rw [made]
    rfl
  | worm state =>
    obtain ⟨present, sized⟩ := ready
    obtain ⟨content, there⟩ := Option.ne_none_iff_exists'.mp present
    have accepted := (verifyFileLength_ok d state.byteLength).mpr sized
    let after := d.appended e.endedLine
    let next : WormManifest := ⟨after.size, state.envelopeCount + 1, e.recordHash⟩
    have grown : d.size < after.size := d.size_appended e
    have appended : WormAuditSink.appendEnvelope {} state e d =
        (.ok (), { after with manifest := some next }, next) := by
      have written : appendLine {} e d = (.ok (), after) := rfl
      have notShort : ¬ after.size ≤ state.byteLength := by omega
      unfold WormAuditSink.appendEnvelope
      simp only [accepted, there, written, if_neg notShort]
      rfl
    refine ⟨{ after with manifest := some next }, .worm next, ?_, rfl, nofun, nofun, rfl⟩
    unfold AuditLog.record
    rw [made]
    simp only [Sink.appendEnvelope, appended]

theorem record_refused {log : AuditLog} {r : StampedRecord} {e : AuditEnvelope} {d : Disk}
    (made : log.envelopeFor B r = .ok e) (unready : ¬ log.sink.Ready d) :
    (log.record B {} r d).1 ≠ .ok () := by
  obtain ⟨sink, previousHash, envelopes, signingKey, verifyingKey⟩ := log
  cases sink with
  | file count => exact absurd trivial unready
  | worm state =>
    have refused : (WormAuditSink.appendEnvelope {} state e d).1 ≠ .ok () := by
      unfold WormAuditSink.appendEnvelope
      cases checked : verifyFileLength {} d state.byteLength with
      | error failed => simp
      | ok _ =>
        have sized := (verifyFileLength_ok d state.byteLength).mp checked
        have absent : d.file = none := by
          by_contra present
          exact unready ⟨present, sized⟩
        simp [absent]
    unfold AuditLog.record
    rw [made]
    simp only [Sink.appendEnvelope]
    cases outcome : (WormAuditSink.appendEnvelope {} state e d).1 with
    | ok _ => exact absurd outcome refused
    | error failed => simp

structure Opened (d after : Disk) (log : AuditLog) : Prop where
  fresh : log.envelopes = []
  start : log.previousHash = genesis
  content : after.content = d.content
  present : after.file ≠ none
  ready : log.sink.Ready after
  manifest : after.manifest = d.manifest ∨ ∃ m, after.manifest = some m ∧ m.byteLength = d.size

theorem openAt_accepted {d found : Disk} {state : WormManifest}
    (known : WormAuditSink.stateAt B {} d = (.ok state, found))
    (sized : found.size = state.byteLength) :
    WormAuditSink.openAt B {} d = (.ok state, { found with manifest := some state }) := by
  have checked : verifyFileLength {} found state.byteLength = .ok () :=
    (verifyFileLength_ok found state.byteLength).mpr sized
  have looked : (Effect.observe fun disk => verifyFileLength {} disk state.byteLength) found =
      (.ok (), found) := Prod.ext checked rfl
  refine (Effect.bind_of_ok (t := d) rfl).trans ((Effect.bind_of_ok known).trans ?_)
  exact (Effect.bind_of_ok looked).trans rfl

theorem openAt_refused {d found : Disk} {state : WormManifest}
    (known : WormAuditSink.stateAt B {} d = (.ok state, found))
    (other : found.size ≠ state.byteLength) :
    ∃ failed, WormAuditSink.openAt B {} d = (.error failed, found) := by
  have checked := (verifyFileLength_ok found state.byteLength).not.mpr other
  cases outcome : verifyFileLength {} found state.byteLength with
  | ok _ => exact absurd outcome checked
  | error failed =>
    have looked : (Effect.observe fun disk => verifyFileLength {} disk state.byteLength) found =
        (.error failed, found) := Prod.ext outcome rfl
    refine ⟨failed, (Effect.bind_of_ok (t := d) rfl).trans ((Effect.bind_of_ok known).trans ?_)⟩
    exact Effect.bind_of_error looked

theorem wormSink_opened {d found : Disk} {state : WormManifest}
    (known : WormAuditSink.stateAt B {} d = (.ok state, found))
    (sized : found.size = state.byteLength) :
    AuditLog.worm B {} d =
      (.ok (AuditLog.new (.worm state)), { found with manifest := some state }) :=
  (Effect.bind_of_ok (openAt_accepted known sized)).trans rfl

theorem wormSink_refused {d found : Disk} {state : WormManifest}
    (known : WormAuditSink.stateAt B {} d = (.ok state, found))
    (other : found.size ≠ state.byteLength) :
    ∃ failed, AuditLog.worm B {} d = (.error failed, found) := by
  obtain ⟨failed, refused⟩ := openAt_refused known other
  exact ⟨failed, Effect.bind_of_error refused⟩

theorem worm_opened {d : Disk} {entries : List AuditEnvelope} (holds : d.Holds entries)
    (reads : ∀ e ∈ entries, B.Reads e) (kept : d.file = none → d.manifest = none) :
    (∃ failed, AuditLog.worm B {} d = (.error failed, d)) ∨
      ∃ log after, AuditLog.worm B {} d = (.ok log, after) ∧ Opened d after log := by
  have fresh : ∀ state : WormManifest, state.byteLength = d.size →
      WormAuditSink.stateAt B {} d = (.ok state, d.created) →
      ∃ log after, AuditLog.worm B {} d = (.ok log, after) ∧ Opened d after log := by
    intro state sized known
    refine ⟨_, _, wormSink_opened known sized.symm, rfl, rfl, rfl, nofun, ⟨nofun, sized.symm⟩, ?_⟩
    exact .inr ⟨state, rfl, sized⟩
  cases there : d.file with
  | none =>
    have empty : d.size = 0 := by simp [Disk.size, Disk.content, there]
    refine .inr (fresh ⟨0, 0, genesis⟩ empty.symm ?_)
    simp only [WormAuditSink.stateAt, there, kept there]
    rfl
  | some content =>
    have text : d.content = content := by simp [Disk.content, there]
    have same : d.created = d := by rw [Disk.created, text, ← there]
    cases recorded : d.manifest with
    | some state =>
      have known : WormAuditSink.stateAt B {} d = (.ok state, d.created) := by
        simp only [WormAuditSink.stateAt, recorded, same]
        rfl
      by_cases sized : d.size = state.byteLength
      · exact .inr (fresh state sized.symm known)
      · rw [same] at known
        exact .inl (wormSink_refused known sized)
    | none =>
      have read := readEnvelopes_held holds reads
      rw [text] at read
      refine .inr (fresh ⟨d.size, entries.length, tipOf entries⟩ rfl ?_)
      simp only [WormAuditSink.stateAt, scanEnvelopes, recorded, there, same, read]
      rfl

theorem openLog_opened {d : Disk} {entries : List AuditEnvelope} (kind : AuditSinkType)
    (key : Option SigningKey) (holds : d.Holds entries) (reads : ∀ e ∈ entries, B.Reads e)
    (kept : d.file = none → d.manifest = none) :
    (∃ failed, openLog B kind key {} d = (.error failed, d)) ∨
      ∃ log after, openLog B kind key {} d = (.ok log, after) ∧ Opened d after log := by
  have keyed : ∀ log after, Opened d after log →
      Opened d after (key.elim log (log.withSigningKey B)) := by
    intro log after opened
    cases key with
    | none => exact opened
    | some k => exact { opened with }
  cases kind with
  | file =>
    have plain : Opened d d.created (AuditLog.new (.file 0)) :=
      ⟨rfl, rfl, rfl, nofun, trivial, .inl rfl⟩
    exact .inr ⟨_, _, rfl, keyed _ _ plain⟩
  | worm =>
    rcases worm_opened holds reads kept with ⟨failed, refused⟩ | ⟨log, after, done, opened⟩
    · exact .inl ⟨failed, Effect.bind_of_error refused⟩
    · exact .inr ⟨_, after, (Effect.bind_of_ok done).trans rfl, keyed log after opened⟩

end Calls

section Chain

variable {B}

/-- What an open log knows: it made all the entries or none. -/
structure LogSound (entries : List AuditEnvelope) (d : Disk) (log : AuditLog) : Prop where
  tip : log.previousHash = tipOf log.envelopes
  own : log.envelopes = [] ∨ log.envelopes = entries
  ready : log.envelopes = entries → log.sink.Ready d

/-- The file holds one chain of all the records called for, made through one log. -/
structure Sound (B : AuditBackend) (h : History) (entries : List AuditEnvelope) : Prop where
  holds : h.disk.Holds entries
  reads : ∀ e ∈ entries, B.Reads e
  linked : Linked B.crypto genesis entries
  records : entries.map (·.record) = h.calls.map Prod.fst
  taken : ∀ call ∈ h.calls, call.2 = .ok ()
  logs : ∀ log ∈ h.logs, LogSound entries h.disk log
  writer : ∃ w : Nat, ∀ (i : Nat) (log : AuditLog),
    h.logs[i]? = some log → log.envelopes ≠ [] → i = w
  unused : entries = [] → ∀ m, h.disk.manifest = some m → m.byteLength = 0
  kept : h.disk.file = none → h.disk.manifest = none ∧ h.logs = []

theorem sound_start : Sound B {} [] where
  holds := rfl
  reads := fun _ member => absurd member List.not_mem_nil
  linked := trivial
  records := rfl
  taken := fun _ member => absurd member List.not_mem_nil
  logs := fun _ member => absurd member List.not_mem_nil
  writer := ⟨0, fun _ _ found => absurd found (by simp)⟩
  unused := fun _ _ found => absurd found (by simp)
  kept := fun _ => ⟨rfl, rfl⟩

theorem Sound.survives {h : History} {entries : List AuditEnvelope} (sound : Sound B h entries) :
    Survives B h := by
  refine ⟨sound.taken, _, _, loadFromFile_held sound.holds sound.reads, ?_, ?_⟩
  · exact (verifyEnvelopes_linked genesis entries).mpr sound.linked
  · rw [← sound.records]

theorem Sound.restart {h : History} {entries : List AuditEnvelope} (sound : Sound B h entries) :
    Sound B { h with logs := [] } entries :=
  { sound with
    logs := fun _ member => absurd member List.not_mem_nil
    writer := ⟨0, fun _ _ found => absurd found (by simp)⟩
    kept := fun absent => ⟨(sound.kept absent).1, rfl⟩ }

theorem Sound.opened {h : History} {entries : List AuditEnvelope} (sound : Sound B h entries)
    {after : Disk} {log : AuditLog} (opened : Opened h.disk after log) :
    Sound B { h with disk := after, logs := h.logs ++ [log] } entries where
  holds := by rw [Disk.Holds, opened.content]; exact sound.holds
  reads := sound.reads
  linked := sound.linked
  records := sound.records
  taken := sound.taken
  logs := by
    intro other member
    rcases List.mem_append.mp member with old | new
    · have before := sound.logs other old
      exact { before with
        ready := fun all => (before.ready all).same opened.content opened.present }
    · obtain rfl := List.mem_singleton.mp new
      exact ⟨by rw [opened.start, opened.fresh]; rfl, .inl opened.fresh, fun _ => opened.ready⟩
  writer := by
    obtain ⟨w, only⟩ := sound.writer
    refine ⟨w, fun i other found wrote => ?_⟩
    rcases Nat.lt_or_ge i h.logs.length with old | new
    · rw [List.getElem?_append_left old] at found
      exact only i other found wrote
    · rw [List.getElem?_append_right new, List.getElem?_singleton] at found
      split at found
      · obtain rfl := Option.some.inj found
        exact absurd opened.fresh wrote
      · cases found
  unused := by
    intro empty m there
    have zero : h.disk.size = 0 := by
      have holds := sound.holds
      rw [empty] at holds
      exact holds.size_nil
    rcases opened.manifest with same | ⟨made, found, sized⟩
    · exact sound.unused empty m (same ▸ there)
    · obtain rfl := Option.some.inj (there.symm.trans found)
      rw [sized, zero]
  kept := fun absent => absurd absent opened.present

theorem Sound.others {h : History} {entries : List AuditEnvelope} (sound : Sound B h entries)
    {k i : Nat} {log other : AuditLog} (called : h.logs[k]? = some log)
    (all : log.envelopes = entries) (found : h.logs[i]? = some other) (apart : i ≠ k) :
    other.envelopes = [] := by
  by_contra wrote
  obtain ⟨w, only⟩ := sound.writer
  have own := (sound.logs other (List.mem_of_getElem? found)).own
  have same := own.resolve_left wrote
  have mine : log.envelopes ≠ [] := by rw [all, ← same]; exact wrote
  exact apart ((only i other found wrote).trans (only k log called mine).symm)

theorem Sound.recorded {h : History} {entries : List AuditEnvelope} (sound : Sound B h entries)
    {k : Nat} {log : AuditLog} {r : StampedRecord} {e : AuditEnvelope}
    (called : h.logs[k]? = some log) (all : log.envelopes = entries)
    (made : log.envelopeFor B r = .ok e) (reads : B.Reads e) {after : Disk} {sink : Sink}
    (content : after.content = h.disk.content ++ e.endedLine)
    (present : after.file ≠ none) (ready : sink.Ready after) :
    Sound B
      { disk := after
        logs := h.logs.set k
          { log with sink, previousHash := e.recordHash, envelopes := log.envelopes ++ [e] }
        calls := h.calls ++ [(r, .ok ())] }
      (entries ++ [e]) := by
  obtain ⟨record, link, intact⟩ := envelopeFor_ok made
  have before := sound.logs log (List.mem_of_getElem? called)
  have grown : entries ++ [e] ≠ [] := List.concat_ne_nil e entries
  refine ⟨?_, ?_, ?_, ?_, ?_, ?_, ?_, ?_, ?_⟩
  · exact sound.holds.followed content
  · exact AuditBackend.reads_snoc sound.reads reads
  · refine (HashChain.chained_snoc _ _ _ _ _ _).mpr ⟨sound.linked, ?_, intact⟩
    rw [link, before.tip, all]
    rfl
  · rw [List.map_append, List.map_append, sound.records]
    simp [record]
  · intro call member
    rcases List.mem_append.mp member with old | new
    · exact sound.taken call old
    · obtain rfl := List.mem_singleton.mp new
      rfl
  · intro other member
    obtain ⟨i, found⟩ := List.mem_iff_getElem?.mp member
    rw [List.getElem?_set] at found
    split at found
    · split at found
      · obtain rfl := Option.some.inj found
        refine ⟨?_, .inr (by rw [all]), fun _ => ready⟩
        exact (HashChain.tip_snoc AuditEnvelope.recordHash genesis log.envelopes e).symm
      · cases found
    · rename_i apart
      have empty := sound.others called all found (Ne.symm apart)
      have old := sound.logs other (List.mem_of_getElem? found)
      exact ⟨old.tip, .inl empty, fun whole => absurd (whole.symm.trans empty) grown⟩
  · refine ⟨k, fun i other found wrote => ?_⟩
    by_contra apart
    rw [List.getElem?_set_ne (Ne.symm apart)] at found
    exact wrote (sound.others called all found apart)
  · exact fun empty => absurd empty grown
  · exact fun absent => absurd absent present

theorem tip_ne_genesis (sized : ∀ data, (B.crypto.sha256Base64 data).length = 44)
    {entries : List AuditEnvelope} (linked : Linked B.crypto genesis entries)
    (some' : entries ≠ []) : tipOf entries ≠ genesis := by
  have last := List.getLast?_eq_some_getLast some'
  have intact := HashChain.chained_intact _ _ _ linked _ (List.getLast_mem some')
  have tip : tipOf entries = (entries.getLast some').recordHash := by
    rw [tipOf, HashChain.tip_eq_last, last]
    rfl
  intro same
  have digest := sized _ ▸ congrArg String.length (intact.trans (tip.symm.trans same))
  cases digest

theorem Sound.broken (sized : ∀ data, (B.crypto.sha256Base64 data).length = 44) {h : History}
    {entries : List AuditEnvelope} (sound : Sound B h entries) {k : Nat} {log : AuditLog}
    {r : StampedRecord} {e : AuditEnvelope} (called : h.logs[k]? = some log)
    (made : log.envelopeFor B r = .ok e) (reads : B.Reads e)
    (other : log.envelopes.map (·.record) ≠ h.calls.map Prod.fst) {next : History}
    (taken : step B h (.recordAt k r) = some next) : ¬ Survives B next := by
  have before := sound.logs log (List.mem_of_getElem? called)
  have fresh : log.envelopes = [] := by
    refine before.own.resolve_right fun all => other ?_
    rw [all, sound.records]
  have wrote : entries ≠ [] := by
    intro empty
    rw [← sound.records, fresh, empty] at other
    exact other rfl
  simp only [step, called, Option.map_some, Option.some.injEq] at taken
  rintro ⟨allTaken, survives⟩
  have accepted : (log.record B {} r h.disk).1 = .ok () := by
    refine allTaken (r, (log.record B {} r h.disk).1) ?_
    rw [← taken]
    exact List.mem_concat_self
  have ready : log.sink.Ready h.disk := by
    by_contra unready
    exact record_refused made unready accepted
  obtain ⟨after, sink, done, content, _, _⟩ := record_ready made ready
  rw [done] at taken
  have holds : next.disk.Holds (entries ++ [e]) := by
    rw [← taken]
    exact sound.holds.followed content
  have reads' := AuditBackend.reads_snoc sound.reads reads
  obtain ⟨loaded, disk, load, verified, _⟩ := survives
  have found := Prod.mk.inj ((loadFromFile_held holds reads').symm.trans load)
  rw [← Except.ok.inj found.1] at verified
  have linked := (verifyEnvelopes_linked genesis _).mp verified
  obtain ⟨_, link, _⟩ := (HashChain.chained_snoc _ _ _ _ _ _).mp linked
  obtain ⟨_, start, _⟩ := envelopeFor_ok made
  refine tip_ne_genesis sized sound.linked wrote ?_
  rw [tipOf, ← link, start, before.tip, fresh]
  rfl

theorem step_survives_iff (sized : ∀ data, (B.crypto.sha256Base64 data).length = 44)
    {h next : History} {entries : List AuditEnvelope} (sound : Sound B h entries) {l : Step}
    (taken : step B h l = some next) (working : NoIoFailure B h l) :
    (Survives B next ↔ SoleWriter h l) ∧ (SoleWriter h l → ∃ later, Sound B next later) := by
  have always : ∀ {later}, Sound B next later → SoleWriter h l →
      (Survives B next ↔ SoleWriter h l) ∧ (SoleWriter h l → ∃ later, Sound B next later) :=
    fun after sole => ⟨iff_of_true after.survives sole, fun _ => ⟨_, after⟩⟩
  cases l with
  | restart =>
    obtain rfl := Option.some.inj taken
    exact always sound.restart trivial
  | openOn kind key =>
    rcases openLog_opened kind key sound.holds sound.reads fun absent => (sound.kept absent).1 with
      ⟨failed, refused⟩ | ⟨log, after, done, opened⟩
    · simp only [step, refused, Option.some.injEq] at taken
      obtain rfl := taken
      exact always sound trivial
    · simp only [step, done, Option.some.injEq] at taken
      obtain rfl := taken
      exact always (sound.opened opened) trivial
  | recordAt k r =>
    cases called : h.logs[k]? with
    | none =>
      simp only [step, called, Option.map_none] at taken
      cases taken
    | some log =>
      obtain ⟨e, made, reads⟩ := working log called
      by_cases sole : log.envelopes.map (·.record) = h.calls.map Prod.fst
      · have before := sound.logs log (List.mem_of_getElem? called)
        have all : log.envelopes = entries := by
          refine before.own.elim (fun fresh => ?_) id
          rw [fresh, ← sound.records] at sole
          rw [fresh, List.map_eq_nil_iff.mp sole.symm]
        obtain ⟨after, sink, done, content, present, ready⟩ := record_ready made (before.ready all)
        simp only [step, called, Option.map_some, done, Option.some.injEq] at taken
        obtain rfl := taken
        refine always (sound.recorded called all made reads content present ready) ?_
        intro other found
        obtain rfl := Option.some.inj (called.symm.trans found)
        exact sole
      · have unsole : ¬ SoleWriter h (.recordAt k r) := fun all => sole (all log called)
        have broken := sound.broken sized called made reads sole taken
        exact ⟨iff_of_false broken unsole, fun all => absurd all unsole⟩

/-- A run is survived in every state it reaches exactly when all its records go through one log. -/
theorem chain_survives_iff (sized : ∀ data, (B.crypto.sha256Base64 data).length = 44)
    (labels : List Step)
    (working : EveryStep (step B) (fun h l _ => NoIoFailure B h l) {} labels) :
    EveryStep (step B) (fun _ _ next => Survives B next) {} labels ↔
      EveryStep (step B) (fun h l _ => SoleWriter h l) {} labels := by
  refine everyStep_iff_within (step B) (fun h => ∃ entries, Sound B h entries) _ _ _ ?_ labels {}
    ⟨[], sound_start⟩ working
  rintro h l next ⟨entries, sound⟩ taken working
  obtain ⟨same, later⟩ := step_survives_iff sized sound taken working
  exact ⟨same, fun survives => later (same.mp survives)⟩

def restartedRun (first second : StampedRecord) : List Step :=
  [.openOn .file none, .recordAt 0 first, .restart, .openOn .file none, .recordAt 0 second]

theorem restarted_rejected (sized : ∀ data, (B.crypto.sha256Base64 data).length = 44)
    {first second : StampedRecord} (readsFirst : B.Reads (.sealed B.crypto first genesis))
    (readsSecond : B.Reads (.sealed B.crypto second genesis)) :
    EveryStep (step B) (fun h l _ => NoIoFailure B h l) {} (restartedRun first second) ∧
      ∃ final, run (step B) {} (restartedRun first second) = some final ∧ ¬ Survives B final := by
  have plain : ∀ d : Disk, Opened d d.created (AuditLog.new (.file 0)) :=
    fun _ => ⟨rfl, rfl, rfl, Option.some_ne_none _, trivial, .inl rfl⟩
  have made : ∀ r, (AuditLog.new (.file 0)).envelopeFor B r =
      .ok (.sealed B.crypto r genesis) := fun _ => rfl
  have works : ∀ (h : History) (r : StampedRecord), h.logs[0]? = some (.new (.file 0)) →
      B.Reads (.sealed B.crypto r genesis) → NoIoFailure B h (.recordAt 0 r) := by
    intro h r called reads log found
    obtain rfl := Option.some.inj (called.symm.trans found)
    exact ⟨_, made r, reads⟩
  let line := (AuditEnvelope.sealed B.crypto first genesis).endedLine
  let opened : History := { disk := ({} : Disk).created, logs := [.new (.file 0)] }
  let wrote : History :=
    { disk := opened.disk.appended line
      logs := [⟨.file 1, (AuditEnvelope.sealed B.crypto first genesis).recordHash,
        [.sealed B.crypto first genesis], none, none⟩]
      calls := [(first, .ok ())] }
  let reopened : History := { wrote with logs := [.new (.file 0)] }
  have called : opened.logs[0]? = some (.new (.file 0)) := rfl
  have calledAgain : reopened.logs[0]? = some (.new (.file 0)) := rfl
  have stepOpen : step B {} (.openOn .file none) = some opened := rfl
  have stepFirst : step B opened (.recordAt 0 first) = some wrote := rfl
  have stepRestart : step B wrote .restart = some { wrote with logs := [] } := rfl
  have stepAgain : step B { wrote with logs := [] } (.openOn .file none) = some reopened := rfl
  obtain ⟨final, stepSecond⟩ : ∃ final, step B reopened (.recordAt 0 second) = some final :=
    ⟨_, rfl⟩
  have soundWrote : Sound B wrote [.sealed B.crypto first genesis] :=
    ((@sound_start B).opened (plain {})).recorded called (show (AuditLog.new _).envelopes = [] from rfl)
      (made first) readsFirst (Disk.appended_content _ _) (Option.some_ne_none _)
      (show (Sink.file 1).Ready _ from trivial)
  have soundReopened : Sound B reopened [.sealed B.crypto first genesis] :=
    soundWrote.restart.opened (plain _)
  have unlike : (AuditLog.new (.file 0)).envelopes.map (·.record) ≠
      reopened.calls.map Prod.fst := by
    simp [reopened, wrote, AuditLog.new]
  refine ⟨?_, final, ?_, ?_⟩
  · refine (everyStep_cons stepOpen).mpr ⟨trivial, ?_⟩
    refine (everyStep_cons stepFirst).mpr ⟨works opened first called readsFirst, ?_⟩
    refine (everyStep_cons stepRestart).mpr ⟨trivial, ?_⟩
    refine (everyStep_cons stepAgain).mpr ⟨trivial, ?_⟩
    exact (everyStep_cons stepSecond).mpr ⟨works reopened second calledAgain readsSecond, trivial⟩
  · simp only [restartedRun, run_cons, run_nil, stepOpen, stepFirst, stepRestart, stepAgain,
      stepSecond, Option.bind_some]
  · exact soundReopened.broken sized calledAgain (made second) readsSecond unlike stepSecond

def pairedRun (first second : StampedRecord) : List Step :=
  [.openOn .file none, .openOn .file none, .recordAt 1 first, .recordAt 1 second, .restart]

theorem paired_sole {first second : StampedRecord} (readsFirst : B.Reads (.sealed B.crypto first genesis))
    (readsSecond : B.Reads
      (.sealed B.crypto second (AuditEnvelope.sealed B.crypto first genesis).recordHash)) :
    EveryStep (step B) (fun h l _ => NoIoFailure B h l) {} (pairedRun first second) ∧
      EveryStep (step B) (fun h l _ => SoleWriter h l) {} (pairedRun first second) := by
  let sealedFirst := AuditEnvelope.sealed B.crypto first genesis
  let once : History := { disk := ({} : Disk).created, logs := [.new (.file 0)] }
  let opened : History := { once with logs := [.new (.file 0), .new (.file 0)] }
  let grown : AuditLog := ⟨.file 1, sealedFirst.recordHash, [sealedFirst], none, none⟩
  let wrote : History :=
    { disk := opened.disk.appended sealedFirst.endedLine
      logs := [.new (.file 0), grown]
      calls := [(first, .ok ())] }
  have stepOpen : step B {} (.openOn .file none) = some once := rfl
  have stepAgain : step B once (.openOn .file none) = some opened := rfl
  have stepFirst : step B opened (.recordAt 1 first) = some wrote := rfl
  have fresh : ∀ log, opened.logs[1]? = some log → log = .new (.file 0) :=
    fun log found => (Option.some.inj found).symm
  have later : ∀ log, wrote.logs[1]? = some log → log = grown :=
    fun log found => (Option.some.inj found).symm
  constructor
  · refine (everyStep_cons stepOpen).mpr ⟨trivial, (everyStep_cons stepAgain).mpr ⟨trivial, ?_⟩⟩
    refine (everyStep_cons stepFirst).mpr ⟨?_, ?_⟩
    · intro log found
      rw [fresh log found]
      exact ⟨_, rfl, readsFirst⟩
    · refine fun _ _ => ⟨?_, fun _ _ => ⟨trivial, trivial⟩⟩
      intro log found
      rw [later log found]
      exact ⟨_, rfl, readsSecond⟩
  · refine (everyStep_cons stepOpen).mpr ⟨trivial, (everyStep_cons stepAgain).mpr ⟨trivial, ?_⟩⟩
    refine (everyStep_cons stepFirst).mpr ⟨?_, ?_⟩
    · intro log found
      rw [fresh log found]
      rfl
    · refine fun _ _ => ⟨?_, fun _ _ => ⟨trivial, trivial⟩⟩
      intro log found
      rw [later log found]
      rfl

end Chain

def transferRecord (id time : String) : StampedRecord where
  eventKind := .crossDomainTransfer
  subjectId := "guard"
  originalLabel := .new .nato .secret
  policyRuleId := "rule"
  decision := "allow"
  reason := "released"
  id := id
  timestamp := ⟨time⟩

def earlyRecord : StampedRecord :=
  transferRecord "5f0c4a3e-6d1b-4c55-9a0e-2f7b8c1d9e01" "2024-05-01T08:00:00+00:00"

def lateRecord : StampedRecord :=
  transferRecord "a91d2b70-3c4f-4e8a-b6d5-0e1f2a3b4c02" "2024-05-01T09:00:00+00:00"

/-- SHA-256 of the two records' texts, each as the first of a chain, and of the later one's after
the earlier one. -/
def digestOfRecords (data : Bytes) : Bytes :=
  if data = utf8 ("GENESIS|" ++ (recordValue earlyRecord).toText) then
    [74, 19, 121, 209, 186, 221, 1, 80, 169, 129, 125, 142, 8, 145, 250, 29, 127, 141, 165, 70, 202,
      245, 82, 162, 110, 55, 242, 184, 94, 113, 60, 180]
  else if data = utf8 ("GENESIS|" ++ (recordValue lateRecord).toText) then
    [21, 151, 156, 7, 157, 113, 3, 12, 169, 37, 208, 233, 206, 118, 39, 29, 103, 100, 225, 75, 193,
      157, 183, 11, 206, 236, 229, 199, 242, 172, 71, 175]
  else if data = utf8 ("ShN50brdAVCpgX2OCJH6HX+NpUbK9VKibjfyuF5xPLQ=|" ++
      (recordValue lateRecord).toText) then
    [115, 58, 84, 207, 218, 120, 48, 119, 254, 189, 167, 211, 21, 38, 93, 65, 107, 51, 4, 140, 246,
      248, 79, 197, 170, 75, 235, 19, 239, 30, 15, 75]
  else List.replicate 32 0

def recordsCrypto : CryptoProvider :=
  { echoProvider with
    hashSha256 := digestOfRecords
    base64Encode := fun bytes => .ofList (base64 bytes) }

def knownLines (known : List AuditEnvelope) (line : String) : Except String AuditEnvelope :=
  ((known.find? fun e => e.toJsonLine == line).map .ok).getD
    (.error "expected value at line 1 column 1")

def earlyEnvelope : AuditEnvelope := .sealed recordsCrypto earlyRecord genesis

def lateEnvelope : AuditEnvelope := .sealed recordsCrypto lateRecord genesis

def nextEnvelope : AuditEnvelope := .sealed recordsCrypto lateRecord earlyEnvelope.recordHash

def recordsBackend : AuditBackend where
  crypto := recordsCrypto
  fromJsonLine := knownLines [earlyEnvelope, nextEnvelope, lateEnvelope]
  publicKey _ := none

theorem recordsCrypto_digest (data : Bytes) :
    recordsCrypto.sha256Base64 data = .ofList (base64 (digestOfRecords data)) := rfl

theorem recordsBackend_sized (data : Bytes) :
    (recordsBackend.crypto.sha256Base64 data).length = 44 := by
  have size : (digestOfRecords data).length = 32 := by
    unfold digestOfRecords
    split_ifs <;> rfl
  show (recordsCrypto.sha256Base64 data).length = 44
  rw [recordsCrypto_digest, String.length_ofList, base64_length, size]

theorem early_hash : earlyEnvelope.recordHash = "ShN50brdAVCpgX2OCJH6HX+NpUbK9VKibjfyuF5xPLQ=" := by
  have known : digestOfRecords (utf8 (genesis ++ "|" ++ (recordValue earlyRecord).toText)) = _ :=
    if_pos rfl
  rw [earlyEnvelope, AuditEnvelope.sealed, AuditEnvelope.hashRecord, recordsCrypto_digest, known]
  decide

theorem next_hash : nextEnvelope.recordHash = "czpUz9p4MHf+vafTFSZdQWszBIz2+E/FqkvrE+8eD0s=" := by
  let text := "ShN50brdAVCpgX2OCJH6HX+NpUbK9VKibjfyuF5xPLQ=|" ++ (recordValue lateRecord).toText
  have separated : text = "ShN50brdAVCpgX2OCJH6HX+NpUbK9VKibjfyuF5xPLQ=" ++ "|" ++
      (recordValue lateRecord).toText := rfl
  have other : ∀ s, utf8 text ≠ utf8 ("GENESIS|" ++ s) := by
    intro s same
    have first := congrArg (fun s => s.toList.head?) (utf8_injective same)
    simp [text] at first
  have known : digestOfRecords (utf8 text) = _ :=
    (if_neg (other _)).trans ((if_neg (other _)).trans (if_pos rfl))
  rw [nextEnvelope, AuditEnvelope.sealed, AuditEnvelope.hashRecord, recordsCrypto_digest, early_hash,
    ← separated, known]
  decide

theorem known_first (e : AuditEnvelope) (rest : List AuditEnvelope) :
    knownLines (e :: rest) e.toJsonLine = .ok e := by
  simp [knownLines]

theorem known_later {first e : AuditEnvelope} (rest : List AuditEnvelope)
    (apart : first.toJsonLine ≠ e.toJsonLine) :
    knownLines (first :: e :: rest) e.toJsonLine = .ok e := by
  simp [knownLines, apart]

theorem line_chars (e : AuditEnvelope) :
    e.toJsonLine.toList = JsonText.compact (.object e.fields) :=
  String.toList_ofList

theorem early_apart : ∀ e ∈ [nextEnvelope, lateEnvelope], earlyEnvelope.toJsonLine ≠ e.toJsonLine := by
  have early : earlyEnvelope.toJsonLine.toList[17]? = some '5' := by
    rw [line_chars]
    decide +kernel
  have late : ∀ e ∈ [nextEnvelope, lateEnvelope], e.toJsonLine.toList[17]? = some 'a' := by
    simp only [line_chars]
    decide +kernel
  intro e listed same
  rw [same, late e listed] at early
  cases early

theorem next_apart : nextEnvelope.toJsonLine ≠ lateEnvelope.toJsonLine := by
  have evaluated : nextEnvelope = ⟨lateRecord, "ShN50brdAVCpgX2OCJH6HX+NpUbK9VKibjfyuF5xPLQ=",
      "czpUz9p4MHf+vafTFSZdQWszBIz2+E/FqkvrE+8eD0s=", none⟩ := by
    rw [← early_hash, ← next_hash]
    rfl
  -- the first letter of the previous hash
  have next : nextEnvelope.toJsonLine.toList[664]? = some 'S' := by
    rw [evaluated, line_chars]
    decide +kernel
  have late : lateEnvelope.toJsonLine.toList[664]? = some 'G' := by
    rw [line_chars]
    decide +kernel
  intro same
  rw [same, late] at next
  cases next

theorem reads_early : recordsBackend.Reads earlyEnvelope := by
  simp only [AuditBackend.Reads, recordsBackend]
  exact known_first earlyEnvelope [nextEnvelope, lateEnvelope]

theorem reads_next : recordsBackend.Reads nextEnvelope := by
  simp only [AuditBackend.Reads, recordsBackend]
  exact known_later [lateEnvelope] (early_apart nextEnvelope (by simp))

theorem reads_late : recordsBackend.Reads lateEnvelope := by
  simp only [AuditBackend.Reads, recordsBackend]
  rw [knownLines, List.find?_cons_of_neg (by simpa using early_apart lateEnvelope (by simp))]
  exact known_later [] next_apart

/-- A plain file, a record, a restart and another record. -/
theorem restarted_chain_rejected :
    EveryStep (step recordsBackend) (fun h l _ => NoIoFailure recordsBackend h l) {}
        (restartedRun earlyRecord lateRecord) ∧
      ∃ final, run (step recordsBackend) {} (restartedRun earlyRecord lateRecord) = some final ∧
        ¬ Survives recordsBackend final :=
  restarted_rejected recordsBackend_sized reads_early reads_late

theorem chain_survives_fixture :
    EveryStep (step recordsBackend) (fun _ _ next => Survives recordsBackend next) {}
      (pairedRun earlyRecord lateRecord) := by
  obtain ⟨working, sole⟩ := paired_sole (B := recordsBackend) reads_early reads_next
  exact (chain_survives_iff recordsBackend_sized _ working).mpr sole

end MimAudit.Trail
