import MimStack.Trail.Handles

/-!
What one append does through either sink, whatever the environment answers.
-/
namespace MimAudit.Trail
open ByteText Fallible

def Sink.Reaches (io : IoAnswers) (d : Disk) : Sink → Prop
  | .file _ => io.openFile = .ok ()
  | .worm state =>
    verifyFileLength io d state.byteLength = .ok () ∧ d.file ≠ none ∧ io.openFile = .ok ()

/-- The steps that come after the line succeed. -/
def Sink.Follows (io : IoAnswers) : Sink → Prop
  | .file _ => True
  | .worm _ => io.lengthAfter = .ok () ∧ io.writeManifest = .ok ()

/-- No byte of the line is written, or all of it and what follows it. -/
def Sink.Whole (io : IoAnswers) (d : Disk) (sink : Sink) : Prop :=
  sink.Reaches io d →
    (∃ message, io.writeLine = some (message, 0)) ∨ io.writeLine = none ∧ sink.Follows io

section Sinks

variable {io : IoAnswers} {e : AuditEnvelope} {d : Disk}

inductive AppendCases (io : IoAnswers) (e : AuditEnvelope) (d : Disk) (sink : Sink) :
    Except AuditError Unit × Disk × Sink → Prop where
  | refused {failed after} (whole : sink.Whole io d) (content : after.content = d.content)
      (manifest : after.manifest = d.manifest) : AppendCases io e d sink (.error failed, after, sink)
  | taken {after next} (whole : sink.Whole io d) (content : after.content = d.content ++ e.endedLine)
      (noted : ∀ m, next = .worm m → after.manifest = some m ∧ m.byteLength = after.size) :
      AppendCases io e d sink (.ok (), after, next)
  | torn {failed after next} (n : Nat) (part : ¬ sink.Whole io d)
      (content : after.content = d.content ++ e.endedLine.take (n + 1))
      (manifest : after.manifest = d.manifest) : AppendCases io e d sink (.error failed, after, next)

theorem endedLine_take (e : AuditEnvelope) : e.endedLine.take (e.lineOf.length + 1) = e.endedLine := by
  rw [e.endedLine_eq]
  exact List.take_of_length_le (by simp)

theorem write_cases {sink : Sink} (reaches : sink.Reaches io d) {message : String} {reached : Nat}
    (wrote : io.writeLine = some (message, reached)) {after : Disk}
    (content : after.content = d.content ++ e.endedLine.take reached)
    (manifest : after.manifest = d.manifest) :
    AppendCases io e d sink (.error (.io message), after, sink) := by
  cases reached with
  | zero => exact .refused (fun _ => .inl ⟨message, wrote⟩) (by rw [content]; simp) manifest
  | succ n =>
    refine .torn n (fun whole => ?_) content manifest
    rcases whole reaches with ⟨other, none'⟩ | ⟨none', _⟩
    · cases wrote.symm.trans none'
    · cases wrote.symm.trans none'

theorem file_append_cases (count : Nat) :
    AppendCases io e d (.file count) (Sink.appendEnvelope io e (.file count) d) := by
  cases opened : io.openFile with
  | error message =>
    have done : Sink.appendEnvelope io e (.file count) d = (.error (.io message), d, .file count) := by
      simp [Sink.appendEnvelope, FileAuditSink.appendEnvelope, ioCheck, opened, Effect.ofExcept,
        Except.mapError, bind]
    rw [done]
    refine .refused (fun reaches => ?_) rfl rfl
    cases opened.symm.trans reaches
  | ok _ =>
    have run : FileAuditSink.appendEnvelope io count e d =
        (appendLine io e >>= fun _ => pure (count + 1)) d.created := by
      simp [FileAuditSink.appendEnvelope, ioCheck, opened, Effect.ofExcept, Except.mapError, bind,
        Effect.modify]
    have reaches : (Sink.file count).Reaches io d := opened
    simp only [Sink.appendEnvelope, run, Effect.bind_run, appendLine]
    cases wrote : io.writeLine with
    | none => exact .taken (fun _ => .inr ⟨wrote, trivial⟩) rfl (fun m other => by cases other)
    | some failure => exact write_cases reaches wrote rfl rfl

theorem worm_append_reaching {state : WormManifest} (reaches : (Sink.worm state).Reaches io d)
    (wrote : io.writeLine = none) (measured : io.lengthAfter = .ok ()) {after : Disk}
    {next : WormManifest} (appended : after = d.appended e.endedLine)
    (noted : next = ⟨after.size, state.envelopeCount + 1, e.recordHash⟩) :
    WormAuditSink.appendEnvelope io state e d =
      ((writeManifest io next after).1, (writeManifest io next after).2, next) := by
  obtain ⟨checked, present, opened⟩ := reaches
  obtain ⟨content, there⟩ := Option.ne_none_iff_exists'.mp present
  have grown : ¬ (d.appended e.endedLine).size ≤ state.byteLength := by
    rw [← verifyFileLength_ok_file checked]
    exact Nat.not_le.mpr (d.size_appended e)
  rw [noted, appended]
  simp only [WormAuditSink.appendEnvelope, checked, there, opened, appendLine,
    wrote, measured, if_neg grown]

theorem writeManifest_failed {message : String} (kept : io.writeManifest = .error message)
    (m : WormManifest) : writeManifest io m d = (.error (.io message), d) := by
  simp [writeManifest, ioCheck, kept, Effect.ofExcept, Except.mapError, bind]

theorem writeManifest_done (kept : io.writeManifest = .ok ()) (m : WormManifest) :
    writeManifest io m d = (.ok (), { d with manifest := some m }) := by
  simp [writeManifest, ioCheck, kept, Effect.ofExcept, Except.mapError, bind, Effect.modify]

theorem worm_append_cases (state : WormManifest) :
    AppendCases io e d (.worm state) (Sink.appendEnvelope io e (.worm state) d) := by
  cases checked : verifyFileLength io d state.byteLength with
  | error failed =>
    simp only [Sink.appendEnvelope, WormAuditSink.appendEnvelope, checked]
    refine .refused (fun reaches => ?_) rfl rfl
    cases checked.symm.trans (And.left reaches)
  | ok _ =>
  cases there : d.file with
  | none =>
    simp only [Sink.appendEnvelope, WormAuditSink.appendEnvelope, checked, there]
    exact .refused (fun reaches => absurd there (And.left (And.right reaches))) rfl rfl
  | some content =>
  cases opened : io.openFile with
  | error message =>
    simp only [Sink.appendEnvelope, WormAuditSink.appendEnvelope, checked, there, opened]
    refine .refused (fun reaches => ?_) rfl rfl
    cases opened.symm.trans (And.right (And.right reaches))
  | ok _ =>
  have reaches : (Sink.worm state).Reaches io d :=
    ⟨checked, by rw [there]; exact Option.some_ne_none content, opened⟩
  cases wrote : io.writeLine with
  | some failure =>
    simp only [Sink.appendEnvelope, WormAuditSink.appendEnvelope, checked, there, opened,
      appendLine, wrote]
    exact write_cases reaches wrote rfl rfl
  | none =>
  have unfinished : ¬ (Sink.worm state).Follows io → ¬ (Sink.worm state).Whole io d := by
    intro stops whole
    rcases whole reaches with ⟨other, some'⟩ | ⟨_, follows⟩
    · cases wrote.symm.trans some'
    · exact stops follows
  have all : ∀ after : Disk, after.content = d.content ++ e.endedLine →
      after.content = d.content ++ e.endedLine.take (e.lineOf.length + 1) := by
    intro after content
    rw [content, endedLine_take]
  cases measured : io.lengthAfter with
  | error message =>
    simp only [Sink.appendEnvelope, WormAuditSink.appendEnvelope, checked, there, opened,
      appendLine, wrote, measured]
    refine .torn _ (unfinished fun follows => ?_) (all _ rfl) rfl
    cases measured.symm.trans (And.left follows)
  | ok _ =>
  have reached := worm_append_reaching (e := e) reaches wrote measured rfl rfl
  cases kept : io.writeManifest with
  | error message =>
    rw [Sink.appendEnvelope, reached, writeManifest_failed kept]
    refine .torn _ (unfinished fun follows => ?_) (all _ rfl) rfl
    cases kept.symm.trans (And.right follows)
  | ok _ =>
    rw [Sink.appendEnvelope, reached, writeManifest_done kept]
    refine .taken (fun _ => .inr ⟨wrote, measured, kept⟩) rfl fun m same => ?_
    obtain rfl := Sink.worm.inj same
    exact ⟨rfl, rfl⟩

theorem append_cases (sink : Sink) :
    AppendCases io e d sink (sink.appendEnvelope io e d) := by
  cases sink with
  | file count => exact file_append_cases count
  | worm state => exact worm_append_cases state

end Sinks

end MimAudit.Trail
