import MimStack.Trail.Appends

/-!
One log called again and again while its I/O may fail: what a failed call leaves
in the file and in the chain kept in memory.
-/
namespace MimAudit.Trail
open ByteText RustText Fallible TextLines StepRuns MimCrypto

section Calls

variable (B : AuditBackend)

/-- The files and the log that writes to them. -/
abbrev Logged := Disk × AuditLog

/-- What the environment answers to a call, and what it is to record. -/
abbrev Call := IoAnswers × StampedRecord

def outcome (s : Logged) (c : Call) : Except AuditError Unit := (s.2.record B c.1 c.2 s.1).1

def call (s : Logged) (c : Call) : Option Logged := some (s.2.record B c.1 c.2 s.1).2

def persisted (d : Disk) : Except AuditError (List AuditEnvelope) :=
  readEnvelopes B (lines 10 13 d.content)

def FileMatches (s : Logged) : Prop :=
  ∃ loaded disk, (AuditLog.loadFromFile B {}).Yields s.1 loaded disk ∧
    loaded.verifyChain B = .ok () ∧ loaded.envelopes = s.2.envelopes ∧
    loaded.previousHash = s.2.previousHash

def Kept (log after : AuditLog) : Prop :=
  after.envelopes = log.envelopes ∧ after.previousHash = log.previousHash

/-- A call that fails leaves the file's envelopes and the chain as they were, and after any call
the file is the chain. -/
structure Atomic (s : Logged) (c : Call) (next : Logged) : Prop where
  failed : outcome B s c ≠ .ok () → persisted B next.1 = persisted B s.1 ∧ Kept s.2 next.2
  sound : FileMatches B next

/-- Where an envelope is made of the record, the sink takes it whole or not at all. -/
def Whole (s : Logged) (c : Call) : Prop :=
  ∀ e, s.2.envelopeFor B c.2 = .ok e → s.2.sink.Whole c.1 s.1

/-- The parser reads back the envelope made of the record. -/
def EnvelopeReads (s : Logged) (c : Call) : Prop :=
  ∀ e, s.2.envelopeFor B c.2 = .ok e → B.Reads e

end Calls

section Chain

variable {B : AuditBackend}

/-- What a call does: nothing but fail, put its envelope in the file and the chain, or fail with
some of the envelope's line in the file. -/
inductive RecordCases (B : AuditBackend) (s : Logged) (c : Call) :
    Except AuditError Unit × Logged → Prop where
  | refused {failed next} (whole : Whole B s c) (content : next.1.content = s.1.content)
      (kept : Kept s.2 next.2) : RecordCases B s c (.error failed, next)
  | taken {next} (e : AuditEnvelope) (whole : Whole B s c)
      (made : s.2.envelopeFor B c.2 = .ok e) (content : next.1.content = s.1.content ++ e.endedLine)
      (envelopes : next.2.envelopes = s.2.envelopes ++ [e])
      (previousHash : next.2.previousHash = e.recordHash) : RecordCases B s c (.ok (), next)
  | torn {failed next} (e : AuditEnvelope) (n : Nat) (part : ¬ Whole B s c)
      (made : s.2.envelopeFor B c.2 = .ok e)
      (content : next.1.content = s.1.content ++ e.endedLine.take (n + 1))
      (kept : Kept s.2 next.2) : RecordCases B s c (.error failed, next)

theorem record_cases (s : Logged) (c : Call) :
    RecordCases B s c (s.2.record B c.1 c.2 s.1) := by
  unfold AuditLog.record
  cases made : s.2.envelopeFor B c.2 with
  | error message =>
    refine .refused (fun e other => ?_) rfl ⟨rfl, rfl⟩
    cases made.symm.trans other
  | ok e =>
    have only : ∀ {p : Prop}, p → ∀ other, s.2.envelopeFor B c.2 = .ok other → p :=
      fun holds _ _ => holds
    simp only
    generalize appended : s.2.sink.appendEnvelope c.1 e s.1 = result
    have cases' : AppendCases c.1 e s.1 s.2.sink (s.2.sink.appendEnvelope c.1 e s.1) :=
      append_cases s.2.sink
    rw [appended] at cases'
    cases cases' with
    | refused whole content _ => exact .refused (only whole) content ⟨rfl, rfl⟩
    | taken whole content _ => exact .taken e (only whole) made content rfl rfl
    | torn n part content _ =>
      exact .torn e n (fun whole => part (whole e made)) made content ⟨rfl, rfl⟩

/-- The file is the lines of the chain in memory. -/
structure Matched (B : AuditBackend) (s : Logged) : Prop where
  holds : s.1.Holds s.2.envelopes
  reads : ∀ e ∈ s.2.envelopes, B.Reads e
  linked : Linked B.crypto genesis s.2.envelopes
  tip : s.2.previousHash = tipOf s.2.envelopes

theorem Matched.reading {s : Logged} (matched : Matched B s) :
    persisted B s.1 = .ok s.2.envelopes := readEnvelopes_held matched.holds matched.reads

theorem Matched.fileMatches {s : Logged} (matched : Matched B s) : FileMatches B s :=
  ⟨_, _, loadFromFile_held matched.holds matched.reads,
    (verifyEnvelopes_linked genesis _).mpr matched.linked, rfl, matched.tip.symm⟩

theorem Matched.same {s next : Logged} (matched : Matched B s)
    (content : next.1.content = s.1.content) (kept : Kept s.2 next.2) : Matched B next := by
  obtain ⟨envelopes, previousHash⟩ := kept
  refine ⟨?_, ?_, ?_, ?_⟩
  · rw [Disk.Holds, content, envelopes]
    exact matched.holds
  · rw [envelopes]
    exact matched.reads
  · rw [envelopes]
    exact matched.linked
  · rw [envelopes, previousHash]
    exact matched.tip

theorem Matched.recorded {s next : Logged} (matched : Matched B s) {r : StampedRecord}
    {e : AuditEnvelope} (made : s.2.envelopeFor B r = .ok e) (reads : B.Reads e)
    (content : next.1.content = s.1.content ++ e.endedLine)
    (envelopes : next.2.envelopes = s.2.envelopes ++ [e])
    (previousHash : next.2.previousHash = e.recordHash) : Matched B next := by
  obtain ⟨_, link, intact⟩ := envelopeFor_ok made
  refine ⟨?_, ?_, ?_, ?_⟩
  · rw [envelopes]
    exact matched.holds.followed content
  · rw [envelopes]
    exact AuditBackend.reads_snoc matched.reads reads
  · rw [envelopes]
    refine (HashChain.chained_snoc _ _ _ _ _ _).mpr ⟨matched.linked, ?_, intact⟩
    rw [link, matched.tip]
    rfl
  · rw [previousHash, envelopes]
    exact (HashChain.tip_snoc AuditEnvelope.recordHash genesis s.2.envelopes e).symm

theorem readEnvelopes_append (before after : List Bytes) :
    readEnvelopes B (before ++ after) =
      (readEnvelopes B before >>= fun first => (readEnvelopes B after).map (first ++ ·)) := by
  induction before with
  | nil => cases rest : readEnvelopes B after <;> simp [readEnvelopes, rest, Except.map, bind, Except.bind]
  | cons bytes before ih =>
    simp only [List.cons_append, readEnvelopes, ih]
    cases decoded : fromUtf8 bytes with
    | error failed => rfl
    | ok line =>
      simp only [Except.mapError, bind, Except.bind]
      split
      · rfl
      · cases parsed : B.fromJsonLine line with
        | error failed => rfl
        | ok e =>
          cases first : readEnvelopes B before with
          | error failed => rfl
          | ok entries => cases rest : readEnvelopes B after <;> rfl

theorem readEnvelopes_braced {line : Bytes} {later : List Bytes} {found : List AuditEnvelope}
    (read : readEnvelopes B ((123 :: line) :: later) = .ok found) : found ≠ [] := by
  rw [readEnvelopes] at read
  obtain ⟨text, decoded, read⟩ := bind_ok.mp read
  have bytes := utf8_of_fromUtf8 ((mapError_ok _ _ _).mp decoded)
  obtain ⟨c, chars, begun, number⟩ := utf8_begins bytes (by decide)
  have brace : c = '\x7b' := Char.toNat_inj.mp number
  have visible : isEmpty (trim text) = false := trim_begun begun (by rw [brace]; decide)
  rw [visible, if_neg Bool.false_ne_true] at read
  obtain ⟨e, _, read⟩ := bind_ok.mp read
  obtain ⟨others, _, read⟩ := bind_ok.mp read
  obtain rfl := pure_ok.mp read
  exact List.cons_ne_nil e others

theorem Matched.torn {s next : Logged} (matched : Matched B s) (e : AuditEnvelope) (n : Nat)
    (content : next.1.content = s.1.content ++ e.endedLine.take (n + 1)) :
    persisted B next.1 ≠ .ok s.2.envelopes := by
  have begins : e.endedLine.take (n + 1) = 123 :: (utf8 (.ofList (JsonText.compactFields e.fields)) ++
      [125, 10]).take n := by
    rw [e.endedLine_eq, e.lineOf_braced, List.cons_append, List.append_assoc, List.take_succ_cons]
    rfl
  have plain : ∀ line ∈ s.2.envelopes.map AuditEnvelope.lineOf, Plain 10 13 line := by
    intro line mem
    obtain ⟨x, _, rfl⟩ := List.mem_map.mp mem
    exact x.lineOf_plain
  have holds : s.1.content = written 10 (s.2.envelopes.map AuditEnvelope.lineOf) := matched.holds
  have other : (123 : UInt8) ≠ 10 := by decide
  have kept : (123 : UInt8) ≠ 13 := by decide
  obtain ⟨line, later, last⟩ := lines_begun
    ((utf8 (.ofList (JsonText.compactFields e.fields)) ++ [125, 10]).take n) other kept
  intro read
  rw [persisted, content, holds, begins, lines_written_append _ plain, last,
    readEnvelopes_append] at read
  obtain ⟨first, before, read⟩ := bind_ok.mp read
  obtain rfl := Except.ok.inj ((readEnvelopes_lines _ matched.reads).symm.trans before)
  cases rest : readEnvelopes B ((123 :: line) :: later) with
  | error failed =>
    rw [rest] at read
    cases read
  | ok found =>
    rw [rest] at read
    exact readEnvelopes_braced rest (List.append_right_eq_self.mp (Except.ok.inj read))

theorem record_atomic_iff {s next : Logged} {c : Call} (matched : Matched B s)
    (taken : call B s c = some next) (reads : EnvelopeReads B s c) :
    (Atomic B s c next ↔ Whole B s c) ∧ (Atomic B s c next → Matched B next) := by
  have always : Matched B next → Whole B s c → (outcome B s c ≠ .ok () → Kept s.2 next.2) →
      (Atomic B s c next ↔ Whole B s c) ∧ (Atomic B s c next → Matched B next) := by
    intro after whole kept
    refine ⟨iff_of_true ⟨fun failed => ?_, after.fileMatches⟩ whole, fun _ => after⟩
    refine ⟨?_, kept failed⟩
    rw [after.reading, matched.reading, (kept failed).1]
  have done := record_cases (B := B) s c
  obtain rfl := Option.some.inj taken
  have named : outcome B s c = (s.2.record B c.1 c.2 s.1).1 := rfl
  generalize s.2.record B c.1 c.2 s.1 = result at done named always
  cases done with
  | refused whole content kept => exact always (matched.same content kept) whole fun _ => kept
  | taken e whole made content envelopes previousHash =>
    have after := matched.recorded made (reads e made) content envelopes previousHash
    exact always after whole fun failed => absurd named failed
  | torn e n part made content kept =>
    rename_i failed next
    have broken : ¬ Atomic B s c next := by
      intro atomic
      have failed : outcome B s c ≠ .ok () := by
        rw [named]
        intro accepted
        cases accepted
      exact matched.torn e n content ((atomic.failed failed).1.trans matched.reading)
    exact ⟨iff_of_false broken part, fun atomic => absurd atomic broken⟩

/-- Every call of a run is atomic exactly when each writes its line whole or not at all. -/
theorem calls_atomic_iff (s : Logged) (matched : Matched B s) (calls : List Call)
    (reads : EveryStep (call B) (fun s c _ => EnvelopeReads B s c) s calls) :
    EveryStep (call B) (Atomic B) s calls ↔ EveryStep (call B) (fun s c _ => Whole B s c) s calls :=
  everyStep_iff_within (call B) (Matched B) _ _ _
    (fun _ _ _ here taken reads => record_atomic_iff here taken reads) calls s matched reads

/-- A call is refused and leaves its envelope in the file; the call after it is taken, and then the
file is not the chain. -/
structure UnnotedRun (B : AuditBackend) (s : Logged) (refused taken : Call) (e : AuditEnvelope) :
    Prop where
  outcome : outcome B s refused ≠ .ok ()
  left : ∃ next, call B s refused = some next ∧ next.2.envelopes = s.2.envelopes ∧
    persisted B next.1 = .ok (s.2.envelopes ++ [e]) ∧ Trail.outcome B next taken = .ok () ∧
    ∃ last, call B next taken = some last ∧ ¬ FileMatches B last

theorem UnnotedRun.not_atomic {s : Logged} {refused taken : Call} {e : AuditEnvelope}
    (run : UnnotedRun B s refused taken e) (matched : Matched B s) :
    ¬ EveryStep (call B) (Atomic B) s [refused, taken] := by
  intro all
  obtain ⟨next, reached, _, kept, _⟩ := run.left
  have failed := (all next reached).1.failed run.outcome
  have same := Except.ok.inj (kept.symm.trans (failed.1.trans matched.reading))
  exact absurd (List.append_right_eq_self.mp same) (List.cons_ne_nil e [])

theorem unnoted_run {s : Logged} (matched : Matched B s) {state : WormManifest}
    (worm : s.2.sink = .worm state) {io : IoAnswers} {r later : StampedRecord} {e f : AuditEnvelope}
    (made : s.2.envelopeFor B r = .ok e) (madeLater : s.2.envelopeFor B later = .ok f)
    (reads : B.Reads e) (readsLater : B.Reads f) (reaches : s.2.sink.Reaches io s.1)
    (wrote : io.writeLine = none) (measured : io.lengthAfter = .ok ()) {message : String}
    (unwritten : io.writeManifest = .error message) : UnnotedRun B s (io, r) ({}, later) e := by
  rw [worm] at reaches
  have appended := worm_append_reaching (e := e) reaches wrote measured rfl rfl
  rw [writeManifest_failed unwritten] at appended
  let disk := s.1.appended e.endedLine
  let next : Logged :=
    (disk, { s.2 with sink := .worm ⟨disk.size, state.envelopeCount + 1, e.recordHash⟩ })
  have done : s.2.record B io r s.1 = (.error (.io message), next) := by
    unfold AuditLog.record
    rw [made]
    simp only [worm, Sink.appendEnvelope, appended]
    rfl
  have holds : disk.Holds (s.2.envelopes ++ [e]) := matched.holds.appended e
  have readsAll := AuditBackend.reads_snoc matched.reads reads
  have madeNext : next.2.envelopeFor B later = .ok f := madeLater
  have ready : next.2.sink.Ready next.1 := ⟨Option.some_ne_none _, rfl⟩
  obtain ⟨after, sink, doneLater, content, _, _⟩ := record_ready madeNext ready
  have wroteBoth : after.Holds (s.2.envelopes ++ [e] ++ [f]) := holds.followed content
  have readsBoth := AuditBackend.reads_snoc readsAll readsLater
  refine ⟨?_, next, ?_, rfl, readEnvelopes_held holds readsAll, congrArg Prod.fst doneLater,
    (next.2.record B {} later next.1).2, rfl, ?_⟩
  · rw [outcome, done]
    intro accepted
    cases accepted
  · rw [call, done]
  · rw [doneLater]
    intro held
    obtain ⟨loaded, last, load, _, same, _⟩ := held
    have found := Prod.mk.inj ((loadFromFile_held wroteBoth readsBoth).symm.trans load)
    rw [← Except.ok.inj found.1] at same
    have short : s.2.envelopes ++ [e] = s.2.envelopes := List.append_cancel_right same
    exact absurd (List.append_right_eq_self.mp short) (List.cons_ne_nil e [])

theorem Opened.matched {d after : Disk} {log : AuditLog} (opened : Opened d after log)
    (holds : d.Holds []) : Matched B (after, log) := by
  refine ⟨?_, ?_, ?_, ?_⟩
  · rw [Disk.Holds, opened.content, opened.fresh]
    exact holds
  · rw [opened.fresh]
    exact fun _ member => absurd member List.not_mem_nil
  · rw [opened.fresh]
    trivial
  · rw [opened.start, opened.fresh]
    rfl

theorem loaded_matched {d after : Disk} {entries : List AuditEnvelope} {log : AuditLog}
    (holds : d.Holds entries) (reads : ∀ e ∈ entries, B.Reads e)
    (linked : Linked B.crypto genesis entries)
    (load : (AuditLog.loadFromFile B {}).Yields d log after) : Matched B (after, log) := by
  have found := (loadFromFile_held holds reads).symm.trans load
  obtain ⟨loaded, rfl⟩ := Prod.mk.inj found
  obtain rfl := Except.ok.inj loaded
  exact ⟨holds, reads, linked, rfl⟩

end Chain

section Fixtures

def noSpace : Except String Unit := .error "No space left on device (os error 28)"

def freshWorm : Logged := (⟨some [], some ⟨0, 0, genesis⟩⟩, .new (.worm ⟨0, 0, genesis⟩))

theorem freshWorm_matched : Matched recordsBackend freshWorm :=
  ⟨rfl, fun _ member => absurd member List.not_mem_nil, trivial, rfl⟩

theorem freshWorm_reaches (io : IoAnswers) (opened : io.openFile = .ok ())
    (measured : io.lengthBefore = .ok ()) : freshWorm.2.sink.Reaches io freshWorm.1 := by
  refine ⟨?_, Option.some_ne_none _, opened⟩
  simp only [verifyFileLength, freshWorm, measured]
  rfl

/-- A record is refused for want of a manifest and stays in the file, and the next one is taken. -/
theorem manifest_failure_breaks_chain :
    let full : Call := ({ writeManifest := noSpace }, earlyRecord)
    let next : Call := ({}, lateRecord)
    (openLog recordsBackend .worm none {}).Yields {} freshWorm.2 freshWorm.1 ∧
      UnnotedRun recordsBackend freshWorm full next earlyEnvelope ∧
      ¬ EveryStep (call recordsBackend) (Atomic recordsBackend) freshWorm [full, next] := by
  intro full next
  have reaches := freshWorm_reaches { writeManifest := noSpace } rfl rfl
  have run : UnnotedRun recordsBackend freshWorm full next earlyEnvelope :=
    unnoted_run freshWorm_matched rfl rfl rfl reads_early reads_late reaches rfl rfl rfl
  exact ⟨rfl, run, run.not_atomic freshWorm_matched⟩

theorem calls_atomic_fixture :
    EveryStep (call recordsBackend) (Atomic recordsBackend) freshWorm
      [({ openFile := noSpace }, earlyRecord), ({}, earlyRecord)] := by
  have made : freshWorm.2.envelopeFor recordsBackend earlyRecord = .ok earlyEnvelope := rfl
  have reads : ∀ io, EnvelopeReads recordsBackend freshWorm (io, earlyRecord) := by
    intro io e other
    obtain rfl := Except.ok.inj (made.symm.trans other)
    exact reads_early
  have refused : call recordsBackend freshWorm ({ openFile := noSpace }, earlyRecord) =
      some freshWorm := rfl
  refine (calls_atomic_iff freshWorm freshWorm_matched _ ?_).mpr ?_
  · refine (everyStep_cons refused).mpr ⟨reads _, fun _ _ => ⟨reads _, trivial⟩⟩
  · refine (everyStep_cons refused).mpr ⟨fun e _ reaches => ?_, fun _ _ => ⟨?_, trivial⟩⟩
    · cases reaches.2.2
    · exact fun e _ _ => .inr ⟨rfl, rfl, rfl⟩

end Fixtures

end MimAudit.Trail
