import MimStack.Trail.Appends

/-!
The write-once sink over its openings and appends, and what it sees of a file that
was altered behind its back.
-/
namespace MimAudit.Trail
open ByteText Fallible StepRuns MimCrypto

section Runs

variable (B : AuditBackend)

inductive WormStep where
  | reopen (io : IoAnswers)
  | append (io : IoAnswers) (e : AuditEnvelope)

/-- The files, the sink where one is open, and the envelopes it said it took. -/
structure WormRun where
  disk : Disk := {}
  sink : Option WormManifest := none
  appended : List AuditEnvelope := []

def wormStep (s : WormRun) : WormStep → Option WormRun
  | .reopen io =>
    match WormAuditSink.openAt B io s.disk with
    | (.ok state, disk) => some { s with disk, sink := some state }
    | (.error _, disk) => some { s with disk, sink := none }
  | .append io e =>
    s.sink.map fun state =>
      match WormAuditSink.appendEnvelope io state e s.disk with
      | (.ok _, disk, next) => { disk, sink := some next, appended := s.appended ++ [e] }
      | (.error _, disk, next) => { s with disk, sink := some next }

/-- The sink in use and the next one opened both refuse this content of the file. -/
def Detects (state : WormManifest) (d : Disk) (altered : Option Bytes) : Prop :=
  WormAuditSink.verifyImmutable {} state { d with file := altered } ≠ .ok () ∧
    (WormAuditSink.openAt B {} { d with file := altered }).1.isOk = false

/-- An append that writes its line whole or not at all. -/
def WholeAppend (s : WormRun) : WormStep → Prop
  | .reopen _ => True
  | .append io _ => ∀ state, s.sink = some state → (Sink.worm state).Whole io s.disk

end Runs

section Detection

variable {B : AuditBackend}

theorem stateAt_kept (io : IoAnswers) (d : Disk) :
    (WormAuditSink.stateAt B io d).2.content = d.content ∧
      (WormAuditSink.stateAt B io d).2.manifest = d.manifest := by
  unfold WormAuditSink.stateAt
  split
  · exact ⟨rfl, rfl⟩
  · exact ⟨rfl, rfl⟩
  · dsimp only
    split <;> exact ⟨rfl, rfl⟩

inductive OpenCases (d : Disk) : Except AuditError WormManifest × Disk → Prop where
  | accepted {state after} (content : after.content = d.content)
      (noted : after.manifest = some state) (sized : state.byteLength = after.size) :
      OpenCases d (.ok state, after)
  | refused {failed after} (content : after.content = d.content)
      (manifest : after.manifest = d.manifest) : OpenCases d (.error failed, after)

theorem openAt_cases (io : IoAnswers) (d : Disk) : OpenCases d (WormAuditSink.openAt B io d) := by
  have checks : ∀ (answer : Except String Unit) (x : Disk),
      (ioCheck answer : Effect AuditError Disk Unit) x = (answer.mapError .io, x) := fun _ _ => rfl
  unfold WormAuditSink.openAt
  cases made : io.createDir with
  | error message =>
    rw [Effect.bind_of_error (checks _ _)]
    exact .refused rfl rfl
  | ok _ =>
  rw [Effect.bind_of_ok (checks _ _)]
  obtain ⟨content, manifest⟩ := stateAt_kept (B := B) io d
  cases known : WormAuditSink.stateAt B io d with
  | mk outcome found =>
  rw [known] at content manifest
  cases outcome with
  | error failed =>
    rw [Effect.bind_of_error known]
    exact .refused content manifest
  | ok state =>
  rw [Effect.bind_of_ok known]
  have looked : (Effect.observe fun disk => verifyFileLength io disk state.byteLength) found =
      (verifyFileLength io found state.byteLength, found) := rfl
  cases checked : verifyFileLength io found state.byteLength with
  | error failed =>
    rw [checked] at looked
    rw [Effect.bind_of_error looked]
    exact .refused content manifest
  | ok _ =>
  rw [checked] at looked
  rw [Effect.bind_of_ok looked]
  cases kept : io.writeManifest with
  | error message =>
    rw [Effect.bind_of_error (writeManifest_failed kept state)]
    exact .refused content manifest
  | ok _ =>
    rw [Effect.bind_of_ok (writeManifest_done kept state)]
    exact .accepted content rfl (verifyFileLength_ok_file checked).symm

theorem openAt_isOk_iff {d : Disk} {state : WormManifest} (noted : d.manifest = some state) :
    (WormAuditSink.openAt B {} d).1.isOk = true ↔ d.size = state.byteLength := by
  have known : WormAuditSink.stateAt B {} d = (.ok state, d) := by
    simp only [WormAuditSink.stateAt, noted]
    rfl
  by_cases sized : d.size = state.byteLength
  · rw [openAt_accepted known sized]
    exact iff_of_true rfl sized
  · obtain ⟨failed, refused⟩ := openAt_refused known sized
    rw [refused]
    exact iff_of_false Bool.false_ne_true sized

theorem detects_iff {d : Disk} {state kept : WormManifest} (noted : d.manifest = some kept)
    (altered : Option Bytes) :
    Detects B state d altered ↔
      (altered.getD []).length ≠ state.byteLength ∧ (altered.getD []).length ≠ kept.byteLength := by
  have sized : ({ d with file := altered } : Disk).size = (altered.getD []).length := rfl
  have verified := verifyFileLength_ok { d with file := altered } state.byteLength
  have opened := openAt_isOk_iff (B := B) (d := { d with file := altered }) noted
  rw [sized] at verified opened
  rw [Detects, WormAuditSink.verifyImmutable, ne_eq, verified, ← Bool.not_eq_true, opened]

end Detection

section Invariants

variable {B : AuditBackend}

/-- An open sink has a manifest. -/
def Noted (s : WormRun) : Prop := s.sink ≠ none → s.disk.manifest ≠ none

structure WormSound (s : WormRun) : Prop where
  content : s.disk.content = s.appended.flatMap AuditEnvelope.endedLine
  sized : ∀ m, s.disk.manifest = some m → m.byteLength = s.disk.size
  sink : ∀ m, s.sink = some m → s.disk.manifest = some m

theorem reopen_step {s next : WormRun} {io : IoAnswers}
    (taken : wormStep B s (.reopen io) = some next) :
    ∃ outcome after, OpenCases s.disk (outcome, after) ∧
      next = ⟨after, outcome.toOption, s.appended⟩ := by
  have opening := openAt_cases (B := B) io s.disk
  simp only [wormStep] at taken
  cases result : WormAuditSink.openAt B io s.disk with
  | mk outcome after =>
  rw [result] at opening taken
  refine ⟨outcome, after, opening, ?_⟩
  cases outcome with
  | error failed => exact (Option.some.inj taken).symm
  | ok state => exact (Option.some.inj taken).symm

theorem append_step {s next : WormRun} {io : IoAnswers} {e : AuditEnvelope}
    (taken : wormStep B s (.append io e) = some next) :
    ∃ state outcome after memory, s.sink = some state ∧
      AppendCases io e s.disk (.worm state) (outcome, after, .worm memory) ∧
      next = ⟨after, some memory, if outcome.isOk then s.appended ++ [e] else s.appended⟩ := by
  unfold wormStep at taken
  obtain ⟨state, opened, reached⟩ := Option.map_eq_some_iff.mp taken
  have appending : AppendCases io e s.disk (.worm state)
      ((Sink.worm state).appendEnvelope io e s.disk) := append_cases (.worm state)
  cases result : WormAuditSink.appendEnvelope io state e s.disk with
  | mk outcome rest =>
  have mapped : (Sink.worm state).appendEnvelope io e s.disk = (outcome, rest.1, .worm rest.2) := by
    rw [Sink.appendEnvelope, result]
  rw [mapped] at appending
  rw [result] at reached
  refine ⟨state, outcome, rest.1, rest.2, opened, appending, ?_⟩
  cases outcome with
  | error failed => exact reached.symm
  | ok _ => exact reached.symm

theorem noted_step {s next : WormRun} {l : WormStep} (noted : Noted s)
    (taken : wormStep B s l = some next) : Noted next := by
  cases l with
  | reopen io =>
    obtain ⟨outcome, after, opening, rfl⟩ := reopen_step taken
    cases opening with
    | accepted content there sized =>
      intro _
      rw [there]
      exact Option.some_ne_none _
    | refused content manifest => exact fun open' => absurd rfl open'
  | append io e =>
    obtain ⟨state, outcome, after, memory, opened, appending, rfl⟩ := append_step taken
    have there : s.disk.manifest ≠ none := noted (by rw [opened]; exact Option.some_ne_none state)
    intro _
    cases appending with
    | refused whole content manifest => exact manifest ▸ there
    | taken whole content noted =>
      rw [(noted memory rfl).1]
      exact Option.some_ne_none memory
    | torn n part content manifest => exact manifest ▸ there

theorem sound_step {s next : WormRun} {l : WormStep} (sound : WormSound s)
    (taken : wormStep B s l = some next) (whole : WholeAppend s l) : WormSound next := by
  have sized_of : ∀ {d after : Disk}, after.content = d.content → after.size = d.size :=
    fun content => congrArg List.length content
  cases l with
  | reopen io =>
    obtain ⟨outcome, after, opening, rfl⟩ := reopen_step taken
    cases opening with
    | accepted content there sized =>
      refine ⟨content.trans sound.content, fun m noted => ?_, fun m opened => ?_⟩
      · obtain rfl := Option.some.inj (there.symm.trans noted)
        exact sized
      · obtain rfl := Option.some.inj opened
        exact there
    | refused content manifest =>
      refine ⟨content.trans sound.content, fun m noted => ?_, fun m opened => by cases opened⟩
      exact (sound.sized m (manifest.symm.trans noted)).trans (sized_of content).symm
  | append io e =>
    obtain ⟨state, outcome, after, memory, opened, appending, rfl⟩ := append_step taken
    cases appending with
    | refused whole' content manifest =>
      refine ⟨content.trans sound.content, fun m noted => ?_, fun m same => ?_⟩
      · exact (sound.sized m (manifest.symm.trans noted)).trans (sized_of content).symm
      · obtain rfl := Option.some.inj same
        exact manifest.trans (sound.sink _ opened)
    | taken whole' content noted =>
      obtain ⟨there, sized⟩ := noted memory rfl
      refine ⟨?_, fun m again => ?_, fun m same => ?_⟩
      · simp only [Except.isOk, Except.toBool, if_true, List.flatMap_append, List.flatMap_singleton]
        rw [content, sound.content]
      · obtain rfl := Option.some.inj (there.symm.trans again)
        exact sized
      · obtain rfl := Option.some.inj same
        exact there
    | torn n part content manifest => exact absurd (whole state opened) part

theorem run_noted (steps : List WormStep) {final : WormRun}
    (reached : run (wormStep B) {} steps = some final) : Noted final :=
  StepRuns.invariant (wormStep B) Noted (fun _ _ _ here taken => noted_step here taken) steps {}
    final (fun open' => absurd rfl open') reached

theorem run_sound (steps : List WormStep) {final : WormRun}
    (reached : run (wormStep B) {} steps = some final)
    (whole : EveryStep (wormStep B) (fun s l _ => WholeAppend s l) {} steps) : WormSound final := by
  have start : WormSound {} := by
    refine ⟨rfl, fun m absent => ?_, fun m absent => ?_⟩
    · cases absent
    · cases absent
  exact everyStep_kept (wormStep B) _ WormSound
    (fun _ _ _ here taken whole => sound_step here taken whole) steps {} final start whole reached

end Invariants

section Alterations

variable {B : AuditBackend}

/-- Altered content is seen exactly when it has neither the length the sink remembers nor the one
the manifest keeps; where every line was written whole or not at all, both are the length of what
was appended. -/
theorem alteration_detected_iff (steps : List WormStep) {final : WormRun} {state : WormManifest}
    (reached : run (wormStep B) {} steps = some final) (opened : final.sink = some state) :
    ∃ kept, final.disk.manifest = some kept ∧
      (∀ altered, Detects B state final.disk altered ↔
        (altered.getD []).length ≠ state.byteLength ∧
          (altered.getD []).length ≠ kept.byteLength) ∧
      (EveryStep (wormStep B) (fun s l _ => WholeAppend s l) {} steps →
        final.disk.content = final.appended.flatMap AuditEnvelope.endedLine ∧
          ∀ altered, Detects B state final.disk altered ↔
            (altered.getD []).length ≠ final.disk.content.length) := by
  have noted := run_noted steps reached
  obtain ⟨kept, there⟩ := Option.ne_none_iff_exists'.mp
    (noted (by rw [opened]; exact Option.some_ne_none state))
  refine ⟨kept, there, detects_iff there, fun whole => ?_⟩
  have sound := run_sound steps reached whole
  obtain rfl := Option.some.inj (there.symm.trans (sound.sink state opened))
  refine ⟨sound.content, fun altered => ?_⟩
  rw [detects_iff there, sound.sized _ there, and_self, Disk.size]

def oneAppend (e : AuditEnvelope) : List WormStep := [.reopen {}, .append {} e]

theorem append_taken {s : WormRun} {state : WormManifest} (opened : s.sink = some state)
    (reaches : (Sink.worm state).Reaches {} s.disk) (e : AuditEnvelope) :
    ∃ next, wormStep B s (.append {} e) = some next ∧ next.appended = s.appended ++ [e] ∧
      next.disk.content = s.disk.content ++ e.endedLine ∧
      ∃ m, next.sink = some m ∧ next.disk.manifest = some m ∧ m.byteLength = next.disk.size := by
  have appended := worm_append_reaching (e := e) reaches rfl rfl rfl rfl
  rw [writeManifest_done rfl] at appended
  let m : WormManifest := ⟨(s.disk.appended e.endedLine).size, state.envelopeCount + 1, e.recordHash⟩
  have taken : wormStep B s (.append {} e) = some
      ⟨{ s.disk.appended e.endedLine with manifest := some m }, some m, s.appended ++ [e]⟩ := by
    simp only [wormStep, opened, Option.map_some, appended]
    rfl
  exact ⟨_, taken, rfl, rfl, _, rfl, rfl, rfl⟩

def openedRun : WormRun := ⟨⟨some [], some ⟨0, 0, genesis⟩⟩, some ⟨0, 0, genesis⟩, []⟩

theorem openedRun_reached : wormStep B {} (.reopen {}) = some openedRun := by
  have known : WormAuditSink.stateAt B {} {} = (.ok ⟨0, 0, genesis⟩, ({} : Disk).created) := rfl
  simp only [wormStep, openAt_accepted known rfl]
  rfl

theorem oneAppend_ran (e : AuditEnvelope) :
    ∃ final m, run (wormStep B) {} (oneAppend e) = some final ∧ final.sink = some m ∧
      final.disk.content = e.endedLine ∧ final.disk.manifest = some m ∧
      m.byteLength = final.disk.size := by
  have opened : openedRun.sink = some ⟨0, 0, genesis⟩ := rfl
  have accepted : verifyFileLength {} openedRun.disk 0 = .ok () := (verifyFileLength_ok _ _).mpr rfl
  have reaches : (Sink.worm ⟨0, 0, genesis⟩).Reaches {} openedRun.disk :=
    ⟨accepted, Option.some_ne_none _, rfl⟩
  obtain ⟨next, taken, _, content, m, sink, noted, sized⟩ := append_taken (B := B) opened reaches e
  have empty : openedRun.disk.content = [] := rfl
  rw [empty, List.nil_append] at content
  refine ⟨next, m, ?_, sink, content, noted, sized⟩
  rw [oneAppend, run_cons, openedRun_reached, Option.bind_some, run_cons, taken, Option.bind_some,
    run_nil]

theorem edit_accepted (e : AuditEnvelope) :
    ∃ final state, run (wormStep B) {} (oneAppend e) = some final ∧ final.sink = some state ∧
      final.disk.content = e.endedLine ∧ e.endedLine.set 0 0 ≠ e.endedLine ∧
      ¬ Detects B state final.disk (some (e.endedLine.set 0 0)) := by
  obtain ⟨final, m, reached, opened, content, noted, sized⟩ := oneAppend_ran (B := B) e
  refine ⟨final, m, reached, opened, content, ?_, ?_⟩
  · rw [e.endedLine_eq, e.lineOf_braced]
    intro same
    exact absurd (List.cons.inj same).1 (by decide)
  · rw [detects_iff noted]
    intro detected
    apply detected.1
    rw [Option.getD_some, List.length_set, ← content, sized, Disk.size]

end Alterations

/-- The first byte of the line is overwritten: the sink in use and the next one opened accept it. -/
theorem overwritten_line_accepted :
    ∃ final state, run (wormStep recordsBackend) {} (oneAppend earlyEnvelope) = some final ∧
      final.sink = some state ∧ final.disk.content = earlyEnvelope.endedLine ∧
      earlyEnvelope.endedLine.set 0 0 ≠ earlyEnvelope.endedLine ∧
      ¬ Detects recordsBackend state final.disk (some (earlyEnvelope.endedLine.set 0 0)) :=
  edit_accepted earlyEnvelope

theorem alteration_detected_fixture :
    ∃ final state, run (wormStep recordsBackend) {} (oneAppend earlyEnvelope) = some final ∧
      final.sink = some state ∧ Detects recordsBackend state final.disk (some []) := by
  obtain ⟨final, m, reached, opened, content, noted, sized⟩ :=
    oneAppend_ran (B := recordsBackend) earlyEnvelope
  obtain ⟨kept, there, detects, _⟩ :=
    alteration_detected_iff (oneAppend earlyEnvelope) reached opened
  obtain rfl := Option.some.inj (noted.symm.trans there)
  have filled : 0 < final.disk.size := by
    rw [Disk.size, content, earlyEnvelope.endedLine_eq, List.length_append]
    exact Nat.add_pos_right _ Nat.one_pos
  refine ⟨final, m, reached, opened, (detects (some [])).mpr ?_⟩
  rw [sized, and_self]
  exact Nat.ne_of_lt filled

end MimAudit.Trail
