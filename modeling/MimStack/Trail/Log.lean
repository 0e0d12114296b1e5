import MimStack.Trail.Envelope

/-!
The audit log over its two sinks: a plain file of envelope lines, and a
write-once file whose length and last digest a sidecar manifest keeps. A call
carries what the environment answers to its I/O; by default all of it succeeds.
-/
namespace MimAudit.Trail
open ByteText RustText Fallible TextLines MimCore MimCrypto MimLabeling

inductive AuditSinkType where
  | file
  | worm
  deriving DecidableEq

structure WormManifest where
  byteLength : Nat
  envelopeCount : Nat
  lastRecordHash : String

/-- The log file and its manifest, where they exist. -/
structure Disk where
  file : Option Bytes := none
  manifest : Option WormManifest := none

namespace Disk

def content (d : Disk) : Bytes := d.file.getD []

def size (d : Disk) : Nat := d.content.length

/-- Opened for appending, and created if it is not there. -/
def created (d : Disk) : Disk := { d with file := some d.content }

def appended (d : Disk) (bytes : Bytes) : Disk := { d with file := some (d.content ++ bytes) }

@[simp] theorem appended_content (d : Disk) (bytes : Bytes) :
    (d.appended bytes).content = d.content ++ bytes := rfl

end Disk

/-- What the environment answers to the I/O of one call. A failing write may have put some of
its bytes into the file. -/
structure IoAnswers where
  createDir : Except String Unit := .ok ()
  openFile : Except String Unit := .ok ()
  readFile : Except String Unit := .ok ()
  lengthBefore : Except String Unit := .ok ()
  lengthAfter : Except String Unit := .ok ()
  writeLine : Option (String × Nat) := none
  writeManifest : Except String Unit := .ok ()

def ioCheck {σ : Type} (answer : Except String Unit) : Effect AuditError σ Unit :=
  .ofExcept (answer.mapError .io)

/-- The cryptographic backend, the serializer's envelope parser and the key pairs' other half. -/
structure AuditBackend where
  crypto : CryptoProvider
  fromJsonLine : String → Except String AuditEnvelope
  publicKey : SigningKey → Option VerifyingKey

section Sinks

variable (B : AuditBackend) (io : IoAnswers)

def readEnvelopes : List Bytes → Except AuditError (List AuditEnvelope)
  | [] => .ok []
  | bytes :: rest => do
    let line ← (fromUtf8 bytes).mapError fun _ => .io "stream did not contain valid UTF-8"
    if isEmpty (trim line) then readEnvelopes rest
    else
      let envelope ← (B.fromJsonLine line).mapError .io
      let later ← readEnvelopes rest
      return envelope :: later

def scanEnvelopes (lines : List Bytes) : Except AuditError (Nat × String) := do
  let envelopes ← readEnvelopes B lines
  return (envelopes.length, tipOf envelopes)

def verifyFileLength (disk : Disk) (expected : Nat) : Except AuditError Unit :=
  match disk.file with
  | none =>
    if expected = 0 then .ok ()
    else .error (.tampered ("WORM audit file missing; expected " ++ Nat.repr expected ++ " bytes"))
  | some _ => do
    io.lengthBefore.mapError .io
    if disk.size ≠ expected then
      throw (.tampered ("WORM audit file length mismatch: expected " ++ Nat.repr expected ++
        ", got " ++ Nat.repr disk.size))

/-- Replaces the manifest at one stroke, by a rename. -/
def writeManifest (manifest : WormManifest) : Effect AuditError Disk Unit := do
  ioCheck io.writeManifest
  .modify fun d => { d with manifest := some manifest }

def appendLine (e : AuditEnvelope) : Effect AuditError Disk Unit := fun disk =>
  match io.writeLine with
  | none => (.ok (), disk.appended e.endedLine)
  | some (message, reached) =>
    (.error (.io message), disk.appended (e.endedLine.take reached))

namespace FileAuditSink

def openAt : Effect AuditError Disk Nat := do
  ioCheck io.createDir
  ioCheck io.openFile
  Effect.modify Disk.created
  return 0

def appendEnvelope (count : Nat) (e : AuditEnvelope) : Effect AuditError Disk Nat := do
  ioCheck io.openFile
  Effect.modify Disk.created
  appendLine io e
  return count + 1

end FileAuditSink

namespace WormAuditSink

def stateAt : Effect AuditError Disk WormManifest := fun disk =>
  match disk.manifest, disk.file with
  | some manifest, _ => ((io.readFile.mapError .io).map fun _ => manifest, disk)
  | none, some content =>
    (do
      io.lengthBefore.mapError .io
      io.readFile.mapError .io
      let (envelopeCount, lastRecordHash) ← scanEnvelopes B (lines 10 13 content)
      return ⟨disk.size, envelopeCount, lastRecordHash⟩, disk)
  | none, none =>
    ((io.openFile.mapError .io).map fun _ => ⟨0, 0, genesis⟩,
      if io.openFile.isOk then disk.created else disk)

def openAt : Effect AuditError Disk WormManifest := do
  ioCheck io.createDir
  let state ← stateAt B io
  Effect.observe fun disk => verifyFileLength io disk state.byteLength
  writeManifest io state
  return state

def verifyImmutable (state : WormManifest) (disk : Disk) : Except AuditError Unit :=
  verifyFileLength io disk state.byteLength

/-- The memory of the sink moves on before the manifest does. -/
def appendEnvelope (state : WormManifest) (e : AuditEnvelope) :
    Disk → Except AuditError Unit × Disk × WormManifest := fun disk =>
  match verifyFileLength io disk state.byteLength, disk.file, io.openFile with
  | .error refused, _, _ => (.error refused, disk, state)
  | .ok (), none, _ => (.error (.io "No such file or directory (os error 2)"), disk, state)
  | .ok (), some _, .error message => (.error (.io message), disk, state)
  | .ok (), some _, .ok () =>
    match appendLine io e disk, io.lengthAfter with
    | (.error failed, after), _ => (.error failed, after, state)
    | (.ok (), after), .error message => (.error (.io message), after, state)
    | (.ok (), after), .ok () =>
      if after.size ≤ state.byteLength then
        (.error (.tampered "WORM audit file did not grow after append"), after, state)
      else
        let next : WormManifest := ⟨after.size, state.envelopeCount + 1, e.recordHash⟩
        let (outcome, last) := writeManifest io next after
        (outcome, last, next)

end WormAuditSink

end Sinks

inductive Sink where
  | file (count : Nat)
  | worm (state : WormManifest)

def Sink.appendEnvelope (io : IoAnswers) (e : AuditEnvelope) :
    Sink → Disk → Except AuditError Unit × Disk × Sink
  | .file count, disk =>
    match FileAuditSink.appendEnvelope io count e disk with
    | (.ok next, after) => (.ok (), after, .file next)
    | (.error failed, after) => (.error failed, after, .file count)
  | .worm state, disk =>
    let (outcome, after, next) := WormAuditSink.appendEnvelope io state e disk
    (outcome, after, .worm next)

structure AuditLog where
  sink : Sink
  previousHash : String
  envelopes : List AuditEnvelope
  signingKey : Option SigningKey
  verifyingKey : Option VerifyingKey

namespace AuditLog

variable (B : AuditBackend) (io : IoAnswers)

def new (sink : Sink) : AuditLog := ⟨sink, genesis, [], none, none⟩

def file : Effect AuditError Disk AuditLog := do
  let count ← FileAuditSink.openAt io
  return new (.file count)

def worm : Effect AuditError Disk AuditLog := do
  let state ← WormAuditSink.openAt B io
  return new (.worm state)

def loadFromFile : Effect AuditError Disk AuditLog := do
  let count ← FileAuditSink.openAt io
  ioCheck io.readFile
  let envelopes ← Effect.observe fun disk => readEnvelopes B (lines 10 13 disk.content)
  return { new (.file count) with previousHash := tipOf envelopes, envelopes }

def withSigningKey (log : AuditLog) (key : SigningKey) : AuditLog :=
  { log with
    signingKey := some key
    verifyingKey := (B.publicKey key).or log.verifyingKey }

def envelopeFor (log : AuditLog) (record : StampedRecord) : Except String AuditEnvelope :=
  let envelope := AuditEnvelope.sealed B.crypto record log.previousHash
  match log.signingKey with
  | none => .ok envelope
  | some key => envelope.sign B.crypto key

def record (log : AuditLog) (r : StampedRecord) (disk : Disk) :
    Except AuditError Unit × Disk × AuditLog :=
  match log.envelopeFor B r with
  | .error message => (.error (.io message), disk, log)
  | .ok envelope =>
    match log.sink.appendEnvelope io envelope disk with
    | (.error failed, after, sink) => (.error failed, after, { log with sink })
    | (.ok (), after, sink) =>
      (.ok (), after,
        { log with
          sink
          previousHash := envelope.recordHash
          envelopes := log.envelopes ++ [envelope] })

def verifyEnvelopes (verifying : Option VerifyingKey) (previous : String) :
    List AuditEnvelope → Except String Unit
  | [] => .ok ()
  | e :: rest => do
    e.verifyChain B.crypto previous
    match verifying with
    | some key => e.verifySignature B.crypto key
    | none => pure ()
    verifyEnvelopes verifying e.recordHash rest

def verifyChain (log : AuditLog) : Except String Unit :=
  verifyEnvelopes B log.verifyingKey genesis log.envelopes

end AuditLog

section Specifications

variable (B : AuditBackend)

/-- The file's content is the lines of these envelopes. -/
def Disk.Holds (d : Disk) (entries : List AuditEnvelope) : Prop :=
  d.content = written 10 (entries.map AuditEnvelope.lineOf)

def AuditBackend.Reads (e : AuditEnvelope) : Prop := B.fromJsonLine e.toJsonLine = .ok e

theorem Disk.Holds.appended {d : Disk} {entries : List AuditEnvelope} (holds : d.Holds entries)
    (e : AuditEnvelope) : (d.appended e.endedLine).Holds (entries ++ [e]) := by
  have line : written 10 [e.lineOf] = e.endedLine := by simp [written, e.endedLine_eq]
  rw [Holds, Disk.appended_content, holds, List.map_append, written_append, List.map_singleton, line]

theorem Disk.Holds.followed {d after : Disk} {entries : List AuditEnvelope} {e : AuditEnvelope}
    (holds : d.Holds entries) (content : after.content = d.content ++ e.endedLine) :
    after.Holds (entries ++ [e]) := by
  have next := holds.appended e
  rw [Disk.Holds, Disk.appended_content] at next
  rw [Disk.Holds, content, next]

theorem AuditBackend.reads_snoc {B : AuditBackend} {entries : List AuditEnvelope} {e : AuditEnvelope}
    (held : ∀ x ∈ entries, B.Reads x) (reads : B.Reads e) : ∀ x ∈ entries ++ [e], B.Reads x := by
  intro x member
  rcases List.mem_append.mp member with old | new
  · exact held x old
  · rw [List.mem_singleton.mp new]
    exact reads

theorem Disk.Holds.size_nil {d : Disk} (holds : d.Holds []) : d.size = 0 := by
  have empty : d.content = [] := holds
  rw [Disk.size, empty]
  rfl

theorem Disk.size_appended (d : Disk) (e : AuditEnvelope) :
    d.size < (d.appended e.endedLine).size := by
  have ended : e.endedLine.length = e.lineOf.length + 1 := by simp [e.endedLine_eq]
  simp only [Disk.size, Disk.appended_content, List.length_append, ended]
  omega

variable {B}

theorem readEnvelopes_cons {bytes : Bytes} {line : String} {e : AuditEnvelope}
    (decoded : fromUtf8 bytes = .ok line) (visible : isEmpty (trim line) = false)
    (parsed : B.fromJsonLine line = .ok e) (rest : List Bytes) :
    readEnvelopes B (bytes :: rest) = (readEnvelopes B rest).map (e :: ·) := by
  simp only [readEnvelopes, decoded, parsed, visible, Except.mapError, bind, Except.bind]
  cases readEnvelopes B rest <;> rfl

theorem readEnvelopes_lines (entries : List AuditEnvelope) (reads : ∀ e ∈ entries, B.Reads e) :
    readEnvelopes B (entries.map AuditEnvelope.lineOf) = .ok entries := by
  induction entries with
  | nil => rfl
  | cons e entries ih =>
    have decoded : fromUtf8 e.lineOf = .ok e.toJsonLine := fromUtf8_utf8 _
    have first : B.fromJsonLine e.toJsonLine = .ok e := reads e List.mem_cons_self
    have later := ih fun other mem => reads other (List.mem_cons_of_mem _ mem)
    rw [List.map_cons, readEnvelopes_cons decoded e.toJsonLine_visible first, later]
    rfl

theorem readEnvelopes_held {d : Disk} {entries : List AuditEnvelope} (holds : d.Holds entries)
    (reads : ∀ e ∈ entries, B.Reads e) :
    readEnvelopes B (lines 10 13 d.content) = .ok entries := by
  have plain : ∀ line ∈ entries.map AuditEnvelope.lineOf, Plain 10 13 line := by
    intro line mem
    obtain ⟨e, _, rfl⟩ := List.mem_map.mp mem
    exact e.lineOf_plain
  rw [holds, lines_written _ plain]
  exact readEnvelopes_lines entries reads

theorem loadFromFile_held {d : Disk} {entries : List AuditEnvelope} (holds : d.Holds entries)
    (reads : ∀ e ∈ entries, B.Reads e) :
    (AuditLog.loadFromFile B {}).Yields d
      { AuditLog.new (.file 0) with previousHash := tipOf entries, envelopes := entries }
      d.created := by
  have read : readEnvelopes B (lines 10 13 d.created.content) = .ok entries :=
    readEnvelopes_held holds reads
  refine Effect.yields_bind.mpr ⟨0, d.created, rfl, ?_⟩
  refine Effect.yields_then.mpr ⟨d.created, rfl, ?_⟩
  refine Effect.yields_bind.mpr ⟨entries, d.created, ?_, rfl⟩
  exact Prod.ext read rfl

theorem verifyEnvelopes_linked (previous : String) (entries : List AuditEnvelope) :
    AuditLog.verifyEnvelopes B none previous entries = .ok () ↔ Linked B.crypto previous entries := by
  induction entries generalizing previous with
  | nil => exact ⟨fun _ => trivial, fun _ => rfl⟩
  | cons e rest ih =>
    have unfolded : AuditLog.verifyEnvelopes B none previous (e :: rest) =
        (e.verifyChain B.crypto previous >>= fun _ =>
          AuditLog.verifyEnvelopes B none e.recordHash rest) := rfl
    rw [unfolded, check_ok, AuditEnvelope.verifyChain_ok, ih, and_assoc]
    rfl

theorem envelopeFor_ok {log : AuditLog} {r : StampedRecord} {e : AuditEnvelope}
    (made : log.envelopeFor B r = .ok e) :
    e.record = r ∧ e.previousHash = log.previousHash ∧ e.Intact B.crypto := by
  unfold AuditLog.envelopeFor at made
  cases keyed : log.signingKey with
  | none =>
    rw [keyed] at made
    obtain rfl := Except.ok.inj made
    exact ⟨rfl, rfl, rfl⟩
  | some key =>
    rw [keyed] at made
    obtain ⟨record, link, digest⟩ := AuditEnvelope.sign_ok B.crypto made
    refine ⟨record, link, ?_⟩
    rw [AuditEnvelope.Intact, record, link, digest]
    rfl

end Specifications

end MimAudit.Trail
