import MimStack.Lib.Bytes
import MimStack.Lib.Outcome
import MimStack.Transport.Representation

/-!
The file a broker is kept in. A save overwrites it in place; a load takes a cursor
of zero for one that an older file does not have.
-/
namespace MimTransport
open ByteText JsonText Fallible StepRuns MimCore MimModel MimRuntime ExchangeBroker

structure ExchangeSnapshot where
  modelVersion : String
  instances : List MimInstance
  inactive : List ObjectIdentifier
  journal : List JournalEntry
  sequence : Nat
  appliedSequence : Nat

section Written

def oidValue (oid : ObjectIdentifier) : Value := .string oid.text

def operationValue : IesOperation → Value
  | .putObject => .string "putObject"
  | .getByOid => .string "getByOid"
  | .getByFilter => .string "getByFilter"
  | .deleteObject => .string "deleteObject"
  | .sync => .string "sync"

def entryValue (e : JournalEntry) : Value :=
  .object [("sequence", .number (Nat.repr e.sequence)), ("operation", operationValue e.operation),
    ("oid", oidValue e.oid)]

def ExchangeSnapshot.toValue (s : ExchangeSnapshot) : Value :=
  .object [("modelVersion", .string s.modelVersion),
    ("instances", .array (s.instances.map instanceValue)),
    ("inactive", .array (s.inactive.map oidValue)),
    ("journal", .array (s.journal.map entryValue)),
    ("sequence", .number (Nat.repr s.sequence)),
    ("appliedSequence", .number (Nat.repr s.appliedSequence))]

@[irreducible] def ExchangeSnapshot.toBytes (s : ExchangeSnapshot) : Bytes := utf8 s.toValue.toPrettyText

theorem toBytes_nonempty (s : ExchangeSnapshot) : s.toBytes ≠ [] := by
  intro empty
  rw [ExchangeSnapshot.toBytes] at empty
  have none : utf8 "" = [] := by decide
  have blank := congrArg String.toList (utf8_injective (empty.trans none.symm))
  rw [Value.toPrettyText, String.toList_ofList] at blank
  cases blank

end Written

/-- The order in which a hash set is iterated, and the serializer's reader. -/
structure SnapshotIo where
  iterate : Finset ObjectIdentifier → List ObjectIdentifier
  fromReader : Bytes → Except String ExchangeSnapshot

/-- What the environment answers to the I/O of a save. A failing write has put some bytes into the
file. A process that stops at some point leaves the file as a failure there does. -/
structure SaveAnswers where
  createDir : Except String Unit := .ok ()
  createFile : Except String Unit := .ok ()
  writeAll : Option (String × Nat) := none

/-- The file as it is, if it is there. -/
abbrev StoreFile := Option Bytes

namespace ExchangeBroker

def fromSnapshot (registry : ModelRegistry) (instances : List MimInstance)
    (inactive : List ObjectIdentifier) (journal : List JournalEntry)
    (sequence appliedSequence : Nat) : ExchangeBroker where
  registry := registry
  store := instances.foldl InstanceStore.insert .empty
  inactive := inactive.toFinset
  journal := journal
  sequence := sequence
  appliedSequence := appliedSequence

end ExchangeBroker

namespace FileExchangeStore

variable (S : SnapshotIo)

def snapshotOf (b : ExchangeBroker) : ExchangeSnapshot where
  modelVersion := b.registry.version
  instances := b.store.values
  inactive := S.iterate b.inactive
  journal := b.journal
  sequence := b.sequence
  appliedSequence := b.lastAppliedSequence

def load (registry : ModelRegistry) (file : StoreFile) : Except TransportError ExchangeBroker :=
  match file with
  | none => .ok (.new registry)
  | some bytes => do
    let snapshot ← (S.fromReader bytes).mapError .serialization
    if snapshot.modelVersion ≠ registry.version then
      throw (.validation ("snapshot model version " ++ snapshot.modelVersion ++
        " does not match registry " ++ registry.version))
    else
      return .fromSnapshot registry snapshot.instances snapshot.inactive snapshot.journal
        snapshot.sequence
        (if snapshot.appliedSequence = 0 then snapshot.sequence else snapshot.appliedSequence)

def saveCheck (answer : Except String Unit) : Effect TransportError StoreFile Unit :=
  .ofExcept (answer.mapError .serialization)

def writeAll (io : SaveAnswers) (bytes : Bytes) : Effect TransportError StoreFile Unit := fun file =>
  match io.writeAll with
  | none => (.ok (), some (file.getD [] ++ bytes))
  | some (message, reached) =>
    (.error (.serialization message), some (file.getD [] ++ bytes.take reached))

/-- Creating the file truncates the one that is there. -/
def save (b : ExchangeBroker) (io : SaveAnswers) : Effect TransportError StoreFile Unit := do
  saveCheck io.createDir
  let bytes := (snapshotOf S b).toBytes
  saveCheck io.createFile
  .modify fun _ => some []
  writeAll io bytes

end FileExchangeStore

open FileExchangeStore

variable {S : SnapshotIo}

/-- What is relied on for one broker: its text is read back, and its inactive objects are all
iterated. -/
structure SnapshotIo.Keeps (S : SnapshotIo) (b : ExchangeBroker) : Prop where
  reads : S.fromReader (snapshotOf S b).toBytes = .ok (snapshotOf S b)
  iterates : (S.iterate b.inactive).toFinset = b.inactive

/-- A text that breaks off is not read. -/
def SnapshotIo.RejectsPrefixes (S : SnapshotIo) (b : ExchangeBroker) : Prop :=
  ∀ n < (snapshotOf S b).toBytes.length,
    ∃ e, S.fromReader ((snapshotOf S b).toBytes.take n) = .error e

/-- The cursor is told from one that the file does not have. -/
def CursorKept (b : ExchangeBroker) : Prop := b.appliedSequence ≠ 0 ∨ b.sequence = 0

instance (b : ExchangeBroker) : Decidable (CursorKept b) := inferInstanceAs (Decidable (_ ∨ _))

/-- The broker a load gives for a saved one. -/
def restored (b : ExchangeBroker) : ExchangeBroker :=
  b.setApplied (if b.appliedSequence = 0 then b.sequence else b.appliedSequence)

theorem restored_eq_iff (b : ExchangeBroker) : restored b = b ↔ CursorKept b := by
  have same : restored b = b ↔
      (if b.appliedSequence = 0 then b.sequence else b.appliedSequence) = b.appliedSequence := by
    constructor
    · exact congrArg appliedSequence
    · intro cursor
      rw [restored, cursor]
      rfl
  rw [same, CursorKept]
  split <;> omega

theorem restored_of_lost {b : ExchangeBroker} (lost : ¬ CursorKept b) :
    restored b = b.setApplied b.sequence := by
  have zero : b.appliedSequence = 0 := by
    by_contra applied
    exact lost (.inl applied)
  rw [restored, if_pos zero]

theorem restored_among (old new : ExchangeBroker) : restored old = old ∨ restored old = new ↔
    CursorKept old ∨ new = old.setApplied old.sequence := by
  rw [restored_eq_iff]
  by_cases kept : CursorKept old
  · exact ⟨fun _ => .inl kept, fun _ => .inl kept⟩
  · rw [restored_of_lost kept]
    exact or_congr_right eq_comm

theorem load_saved {b : ExchangeBroker} (keeps : S.Keeps b) :
    load S b.registry (some (snapshotOf S b).toBytes) = .ok (restored b) := by
  have read : (S.fromReader (snapshotOf S b).toBytes).mapError TransportError.serialization =
      .ok (snapshotOf S b) := (mapError_ok _ _ _).mpr keeps.reads
  refine bind_ok.mpr ⟨_, read, ?_⟩
  have version : (snapshotOf S b).modelVersion = b.registry.version := rfl
  rw [if_neg (not_not.mpr version)]
  have store : b.store.values.foldl InstanceStore.insert .empty = b.store := b.store.insert_values
  exact congrArg₂ (fun store inactive => Except.ok { restored b with store, inactive }) store
    keeps.iterates

/-- Whether the old file is overwritten. -/
def SaveAnswers.overwrites (io : SaveAnswers) : Bool := io.createDir.isOk && io.createFile.isOk

def SaveAnswers.written (io : SaveAnswers) (bytes : Bytes) : Bytes :=
  match io.writeAll with
  | none => bytes
  | some (_, reached) => bytes.take reached

theorem writeAll_created (io : SaveAnswers) (bytes : Bytes) :
    (writeAll io bytes (some [])).2 = some (io.written bytes) := by
  unfold writeAll SaveAnswers.written
  cases io.writeAll with
  | none => rfl
  | some failed => rfl

theorem save_left (b : ExchangeBroker) (io : SaveAnswers) (file : StoreFile) :
    (save S b io file).2 =
      if io.overwrites then some (io.written (snapshotOf S b).toBytes) else file := by
  obtain ⟨createDir, createFile, answer⟩ := io
  cases createDir with
  | error e => rfl
  | ok _ =>
    cases createFile with
    | error e => rfl
    | ok _ => exact writeAll_created ⟨.ok (), .ok (), answer⟩ (snapshotOf S b).toBytes

theorem save_yields {b : ExchangeBroker} {file after : StoreFile} :
    (save S b {}).Yields file () after ↔ after = some (snapshotOf S b).toBytes := by
  have done : (save S b {} file).1 = .ok () := rfl
  have left : (save S b {} file).2 = some (snapshotOf S b).toBytes := save_left b {} file
  rw [Effect.Yields, Prod.ext_iff, done, left, and_iff_right rfl, eq_comm]

/-- A broker comes back as it was saved when its cursor is not zero or its counter is. -/
theorem saved_broker_restored_iff {registry : ModelRegistry} {calls : List BrokerCall}
    {b : ExchangeBroker} (reached : run BrokerCall.step (.new registry) calls = some b)
    (keeps : S.Keeps b) {file after : StoreFile} (saved : (save S b {}).Yields file () after) :
    load S registry after = .ok b ↔ b.appliedSequence ≠ 0 ∨ b.sequence = 0 := by
  obtain rfl := save_yields.mp saved
  rw [← run_registry registry calls reached, load_saved keeps, Except.ok.injEq]
  exact restored_eq_iff b

theorem load_written_error {b : ExchangeBroker} (prefixes : S.RejectsPrefixes b) (io : SaveAnswers)
    (broken : io.written (snapshotOf S b).toBytes ≠ (snapshotOf S b).toBytes)
    (registry : ModelRegistry) :
    ∃ e, load S registry (some (io.written (snapshotOf S b).toBytes)) = .error e := by
  unfold SaveAnswers.written at broken ⊢
  split at broken
  · exact absurd rfl broken
  · rename_i message reached _
    have short : reached < (snapshotOf S b).toBytes.length := by
      by_contra long
      exact broken (List.take_of_length_le (Nat.le_of_not_lt long))
    obtain ⟨e, failed⟩ := prefixes reached short
    refine ⟨.serialization e, ?_⟩
    unfold load
    simp only [failed]
    rfl

/-- A save that stops leaves the old broker or the new one if it stopped before it created the file
or after it wrote all of it. -/
theorem save_atomic_iff {old new : ExchangeBroker} (same : old.registry = new.registry)
    (keepsOld : S.Keeps old) (keepsNew : S.Keeps new) (prefixes : S.RejectsPrefixes new)
    (io : SaveAnswers) {file before : StoreFile} (saved : (save S old {}).Yields file () before) :
    (load S new.registry (save S new io before).2 = .ok old ∨
        load S new.registry (save S new io before).2 = .ok new) ↔
      (io.overwrites = false ∧ (CursorKept old ∨ new = old.setApplied old.sequence)) ∨
        (io.overwrites = true ∧ io.written (snapshotOf S new).toBytes = (snapshotOf S new).toBytes ∧
          (CursorKept new ∨ old = new.setApplied new.sequence)) := by
  obtain rfl := save_yields.mp saved
  rw [save_left]
  cases overwrites : io.overwrites with
  | false =>
    rw [if_neg (by decide), ← same, load_saved keepsOld, Except.ok.injEq, Except.ok.injEq,
      restored_among]
    simp
  | true =>
    rw [if_pos rfl]
    by_cases whole : io.written (snapshotOf S new).toBytes = (snapshotOf S new).toBytes
    · rw [whole, load_saved keepsNew, Except.ok.injEq, Except.ok.injEq, or_comm, restored_among]
      simp
    · obtain ⟨e, failed⟩ := load_written_error prefixes io whole new.registry
      rw [failed]
      simp [whole]

def fileOf (b : ExchangeBroker) : ExchangeSnapshot where
  modelVersion := b.registry.version
  instances := b.store.values
  inactive := []
  journal := b.journal
  sequence := b.sequence
  appliedSequence := b.appliedSequence

def onlyFile (s : ExchangeSnapshot) : SnapshotIo where
  iterate _ := []
  fromReader bytes :=
    if bytes = s.toBytes then .ok s else .error "EOF while parsing a value at line 1 column 0"

theorem onlyFile_keeps {b : ExchangeBroker} (active : b.inactive = ∅) :
    (onlyFile (fileOf b)).Keeps b where
  reads := if_pos rfl
  iterates := active.symm

theorem onlyFile_rejectsPrefixes (b : ExchangeBroker) :
    (onlyFile (fileOf b)).RejectsPrefixes b := by
  intro n short
  refine ⟨_, if_neg fun same => ?_⟩
  have length := congrArg List.length same
  rw [List.length_take] at length
  have whole : (snapshotOf (onlyFile (fileOf b)) b).toBytes.length = (fileOf b).toBytes.length := rfl
  omega

def publisherBroker : ExchangeBroker := commitPut (.new wireRegistry) (wireInstance "a" {})

theorem publisher_reached :
    run BrokerCall.step (.new wireRegistry) [.put ⟨wireInstance "a" {}⟩] = some publisherBroker := by
  rw [run_cons, step_put_wire]
  rfl

/-- A publisher that never replicated comes back as if it had replicated all it published. -/
theorem publisher_cursor_moved :
    let S := onlyFile (fileOf publisherBroker)
    run BrokerCall.step (.new wireRegistry) [.put ⟨wireInstance "a" {}⟩] = some publisherBroker ∧
      ∃ after, (save S publisherBroker {}).Yields none () after ∧
        load S wireRegistry after = .ok (publisherBroker.setApplied publisherBroker.sequence) ∧
        publisherBroker.appliedSequence = 0 ∧ publisherBroker.sequence = 1 ∧ load S wireRegistry after ≠ .ok publisherBroker := by
  intro S
  have lost : ¬ CursorKept publisherBroker := by decide
  have loaded : load S wireRegistry (some (snapshotOf S publisherBroker).toBytes) =
      .ok (restored publisherBroker) := load_saved (onlyFile_keeps rfl)
  rw [restored_of_lost lost] at loaded
  refine ⟨publisher_reached, _, save_yields.mpr rfl, loaded, by decide, by decide, fun same => ?_⟩
  rw [loaded] at same
  have cursor := congrArg appliedSequence (Except.ok.inj same)
  exact absurd cursor (by decide)

def consumerBroker : ExchangeBroker := publisherBroker.setApplied 1

def wireEntry : JournalEntry := ⟨1, .putObject, ⟨"a"⟩⟩

theorem consumer_reached :
    run BrokerCall.step (.new wireRegistry) [.applyRemote wireEntry (some (wireInstance "a" {}))] =
      some consumerBroker := by
  have accepted := wireInstance_accepted "a" {} (by decide)
  have applied : (ExchangeBroker.new wireRegistry).applyRemoteEntry wireEntry
      (some (wireInstance "a" {})) = some (.ok (), consumerBroker) :=
    applyPutEntry_accepted (.new wireRegistry) wireEntry _ accepted
  rw [run_cons, BrokerCall.step, BrokerCall.answer, applied, Option.map_some, Option.bind_some,
    run_nil]

theorem consumer_kept : CursorKept consumerBroker := .inl Nat.one_ne_zero

theorem saved_broker_restored_fixture :
    let S := onlyFile (fileOf consumerBroker)
    ∃ after, (save S consumerBroker {}).Yields none () after ∧
      load S wireRegistry after = .ok consumerBroker := by
  intro S
  refine ⟨_, save_yields.mpr rfl, ?_⟩
  have saved : (save S consumerBroker {}).Yields none () _ := save_yields.mpr rfl
  exact (saved_broker_restored_iff consumer_reached (onlyFile_keeps rfl) saved).mpr consumer_kept

/-- A process that stops once the file is created leaves one that cannot be loaded. -/
theorem stopped_save_unloadable :
    let S := onlyFile (fileOf consumerBroker)
    let stopped : SaveAnswers := { writeAll := some ("No space left on device (os error 28)", 0) }
    ∃ before, (save S consumerBroker {}).Yields none () before ∧
      load S wireRegistry before = .ok consumerBroker ∧
      ∃ e, load S wireRegistry (save S consumerBroker stopped before).2 = .error e := by
  intro S stopped
  have keeps : S.Keeps consumerBroker := onlyFile_keeps rfl
  have loaded : load S wireRegistry (some (snapshotOf S consumerBroker).toBytes) =
      .ok (restored consumerBroker) := load_saved keeps
  rw [(restored_eq_iff consumerBroker).mpr consumer_kept] at loaded
  refine ⟨_, save_yields.mpr rfl, loaded, ?_⟩
  rw [save_left]
  exact load_written_error (onlyFile_rejectsPrefixes consumerBroker) stopped
    (toBytes_nonempty (fileOf consumerBroker)).symm wireRegistry

theorem toBytes_applied (s : ExchangeSnapshot) : ∃ front back, ∀ n,
    ({ s with appliedSequence := n } : ExchangeSnapshot).toBytes =
      front ++ utf8 (Nat.repr n) ++ back := by
  obtain ⟨front, back, texts⟩ := pretty_last_member "appliedSequence"
    [("modelVersion", .string s.modelVersion),
      ("instances", .array (s.instances.map instanceValue)),
      ("inactive", .array (s.inactive.map oidValue)), ("journal", .array (s.journal.map entryValue)),
      ("sequence", .number (Nat.repr s.sequence))]
  refine ⟨utf8 front, utf8 back, fun n => ?_⟩
  have number : String.ofList (prettyAt 1 (.number (Nat.repr n))) = Nat.repr n := String.ofList_toList
  have text : ({ s with appliedSequence := n } : ExchangeSnapshot).toValue.toPrettyText = _ :=
    texts (.number (Nat.repr n))
  rw [ExchangeSnapshot.toBytes, text, number, utf8_append, utf8_append]

def aheadBroker : ExchangeBroker := consumerBroker.setApplied 2

theorem ahead_texts : (fileOf aheadBroker).toBytes ≠ (fileOf consumerBroker).toBytes ∧
    (fileOf aheadBroker).toBytes.length = (fileOf consumerBroker).toBytes.length := by
  obtain ⟨front, back, texts⟩ := toBytes_applied (fileOf consumerBroker)
  have ahead : (fileOf aheadBroker).toBytes = _ := texts 2
  have behind : (fileOf consumerBroker).toBytes = _ := texts 1
  rw [ahead, behind]
  constructor
  · intro same
    have digits := List.append_cancel_left (List.append_cancel_right same)
    exact absurd (utf8_injective digits) (by decide)
  · simp only [List.length_append]
    rfl

def twoFiles (s t : ExchangeSnapshot) : SnapshotIo where
  iterate _ := []
  fromReader bytes :=
    if bytes = s.toBytes then .ok s
    else if bytes = t.toBytes then .ok t
    else .error "EOF while parsing a value at line 1 column 0"

theorem save_atomic_fixture :
    let S := twoFiles (fileOf consumerBroker) (fileOf aheadBroker)
    let refused : SaveAnswers := { createFile := .error "Permission denied (os error 13)" }
    let Atomic (left : StoreFile) : Prop :=
      load S wireRegistry left = .ok consumerBroker ∨ load S wireRegistry left = .ok aheadBroker
    consumerBroker ≠ aheadBroker ∧ ∃ before, (save S consumerBroker {}).Yields none () before ∧
      Atomic (save S aheadBroker refused before).2 ∧ Atomic (save S aheadBroker {} before).2 := by
  intro S refused Atomic
  obtain ⟨differ, long⟩ := ahead_texts
  have registry : consumerBroker.registry = aheadBroker.registry := rfl
  have keepsOld : S.Keeps consumerBroker := ⟨if_pos rfl, rfl⟩
  have keepsNew : S.Keeps aheadBroker := ⟨(if_neg differ).trans (if_pos rfl), rfl⟩
  have prefixes : S.RejectsPrefixes aheadBroker := by
    intro n short
    have cut : ((fileOf aheadBroker).toBytes.take n).length = n :=
      List.length_take_of_le (Nat.le_of_lt short)
    have notOld : (fileOf aheadBroker).toBytes.take n ≠ (fileOf consumerBroker).toBytes := by
      intro same
      rw [same, ← long] at cut
      exact absurd cut (Nat.ne_of_gt short)
    have notNew : (fileOf aheadBroker).toBytes.take n ≠ (fileOf aheadBroker).toBytes := by
      intro same
      rw [same] at cut
      exact absurd cut (Nat.ne_of_gt short)
    exact ⟨_, (if_neg notOld).trans (if_neg notNew)⟩
  have saved : (save S consumerBroker {}).Yields none () _ := save_yields.mpr rfl
  refine ⟨fun same => absurd (congrArg appliedSequence same) (by decide), _, saved, ?_, ?_⟩
  · exact (save_atomic_iff registry keepsOld keepsNew prefixes refused saved).mpr
      (.inl ⟨rfl, .inl consumer_kept⟩)
  · exact (save_atomic_iff registry keepsOld keepsNew prefixes {} saved).mpr
      (.inr ⟨rfl, rfl, .inl (.inl (by decide))⟩)

end MimTransport
