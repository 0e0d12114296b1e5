import MimStack.Transport.Filter
import MimStack.Lib.KeyedLog

/-!
The in-memory exchange broker. A stateful call returns its result together with
the state it leaves; `none` is a call that does not return, which happens only
when validation walks a cyclic class hierarchy.
-/
namespace MimTransport
open RustText IndexedMap KeyedLog JsonText MimCore MimModel MimRuntime

inductive IesOperation where
  | putObject
  | getByOid
  | getByFilter
  | deleteObject
  | sync
  deriving DecidableEq

def IesOperation.debug : IesOperation → String
  | .putObject => "PutObject"
  | .getByOid => "GetByOid"
  | .getByFilter => "GetByFilter"
  | .deleteObject => "DeleteObject"
  | .sync => "Sync"

structure PutObjectRequest where
  inst : MimInstance

structure PutObjectResponse where
  oid : ObjectIdentifier
  created : Bool
  deriving DecidableEq

structure GetByOidRequest where
  oid : ObjectIdentifier

structure GetByOidResponse where
  inst : MimInstance

structure GetByFilterRequest where
  filter : Option String := none
  className : String := ""
  propertyName : Option String := none
  propertyValue : Option String := none
  limit : Option Nat := none
  offset : Option Nat := none

structure GetByFilterResponse where
  instances : List MimInstance
  count : Nat
  total : Nat

structure DeleteObjectRequest where
  oid : ObjectIdentifier

structure DeleteObjectResponse where
  oid : ObjectIdentifier
  deleted : Bool
  deriving DecidableEq

structure JournalEntry where
  sequence : Nat
  operation : IesOperation
  oid : ObjectIdentifier
  deriving DecidableEq

structure SyncResponse where
  latestSequence : Nat
  entries : List JournalEntry

structure ExchangeBroker where
  registry : ModelRegistry
  store : InstanceStore
  inactive : Finset ObjectIdentifier
  journal : List JournalEntry
  sequence : Nat
  appliedSequence : Nat

/-- The validation half of a put: structure first, then the registry. -/
def validatePut (registry : ModelRegistry) (i : MimInstance) :
    Option (Except TransportError Unit) :=
  match validateSerializedInstance i with
  | .error e => some (.error (.validation e))
  | .ok () =>
    (validateInstance registry i).map fun report =>
      if report.isValid then .ok ()
      else .error (.validation (toString report.errorCount ++ " validation issue(s) on PutObject"))

def paginateInstances (instances : List MimInstance) (offset limit : Option Nat) :
    List MimInstance :=
  match limit with
  | some limit => (instances.drop (offset.getD 0)).take limit
  | none => instances.drop (offset.getD 0)

/-- The property criterion of a query without a filter expression. -/
def legacyMatches (request : GetByFilterRequest) (i : MimInstance) : Bool :=
  match request.propertyName, request.propertyValue with
  | some name, some expected => (presentValue i name).bind Value.asStr == some expected
  | some name, none => (i.property name).isSome
  | none, some _ => false
  | none, none => true

namespace ExchangeBroker

def new (registry : ModelRegistry) : ExchangeBroker where
  registry := registry
  store := .empty
  inactive := ∅
  journal := []
  sequence := 0
  appliedSequence := 0

def storeGet (b : ExchangeBroker) (oid : ObjectIdentifier) : Option MimInstance := b.store.get oid

def storeContains (b : ExchangeBroker) (oid : ObjectIdentifier) : Bool := b.store.containsKey oid

def len (b : ExchangeBroker) : Nat := b.store.keys.length

def activeCount (b : ExchangeBroker) : Nat :=
  (b.store.keys.filter fun oid => decide (oid ∉ b.inactive)).length

def lastAppliedSequence (b : ExchangeBroker) : Nat := b.appliedSequence

def syncSince (b : ExchangeBroker) (since : Nat) : SyncResponse where
  latestSequence := b.sequence
  entries := b.journal.filter fun entry => decide (since < entry.sequence)

def recordJournal (b : ExchangeBroker) (operation : IesOperation) (oid : ObjectIdentifier) :
    ExchangeBroker :=
  { b with
    sequence := saturatingAdd b.sequence 1
    journal := b.journal ++ [⟨saturatingAdd b.sequence 1, operation, oid⟩] }

/-- The state after an accepted put. -/
def commitPut (b : ExchangeBroker) (i : MimInstance) : ExchangeBroker :=
  { b with store := b.store.insert i, inactive := b.inactive.erase i.oid }.recordJournal
    .putObject i.oid

def putObject (b : ExchangeBroker) (request : PutObjectRequest) :
    Option (Except TransportError PutObjectResponse × ExchangeBroker) :=
  match validatePut b.registry request.inst with
  | none => none
  | some (.error e) => some (.error e, b)
  | some (.ok ()) =>
    some (.ok ⟨request.inst.oid, !b.storeContains request.inst.oid⟩, b.commitPut request.inst)

def getByOid (b : ExchangeBroker) (request : GetByOidRequest) :
    Except TransportError GetByOidResponse :=
  if request.oid ∈ b.inactive then .error (.inactive request.oid.text)
  else
    match b.storeGet request.oid with
    | some i => .ok ⟨i⟩
    | none => .error (.notFound request.oid.text)

def commitDelete (b : ExchangeBroker) (oid : ObjectIdentifier) : ExchangeBroker :=
  { b with inactive := insert oid b.inactive }.recordJournal .deleteObject oid

def deleteObject (b : ExchangeBroker) (request : DeleteObjectRequest) :
    Except TransportError DeleteObjectResponse × ExchangeBroker :=
  if b.storeContains request.oid then
    (.ok ⟨request.oid, decide (request.oid ∉ b.inactive)⟩, b.commitDelete request.oid)
  else (.error (.notFound request.oid.text), b)

/-- The instance criterion of a query, or the reason the query is refused. -/
def queryCriterion (request : GetByFilterRequest) : Except TransportError (MimInstance → Bool) :=
  match request.filter with
  | some expression =>
    match parseFilter expression with
    | .error e => .error e
    | .ok filter => .ok fun i => instanceMatches i filter
  | none =>
    if isEmpty (trim request.className) then
      .error (.invalidRequest "className or filter query parameter is required")
    else .ok fun i => i.className == request.className && legacyMatches request i

def getByFilter (b : ExchangeBroker) (request : GetByFilterRequest) :
    Except TransportError GetByFilterResponse :=
  match queryCriterion request with
  | .error e => .error e
  | .ok criterion =>
    let instances := b.store.values.filter fun i => decide (i.oid ∉ b.inactive) && criterion i
    let page := paginateInstances instances request.offset request.limit
    .ok ⟨page, page.length, instances.length⟩

def setApplied (b : ExchangeBroker) (sequence : Nat) : ExchangeBroker :=
  { b with appliedSequence := sequence }

def applyPutEntry (b : ExchangeBroker) (entry : JournalEntry) (i : MimInstance) :
    Option (Except TransportError Unit × ExchangeBroker) :=
  match b.putObject ⟨i⟩ with
  | none => none
  | some (.error e, after) => some (.error e, after)
  | some (.ok _, after) => some (.ok (), after.setApplied entry.sequence)

def applyDeleteEntry (b : ExchangeBroker) (entry : JournalEntry) :
    Except TransportError Unit × ExchangeBroker :=
  if b.storeContains entry.oid then
    match b.deleteObject ⟨entry.oid⟩ with
    | (.error e, after) => (.error e, after)
    | (.ok _, after) => (.ok (), after.setApplied entry.sequence)
  else (.ok (), b.setApplied entry.sequence)

def notReplicable (entry : JournalEntry) : TransportError :=
  .unsupported ("journal operation " ++ entry.operation.debug ++ " is not replicable")

def applyEntryFrom (b publisher : ExchangeBroker) (entry : JournalEntry) :
    Option (Except TransportError Unit × ExchangeBroker) :=
  match entry.operation with
  | .putObject =>
    match publisher.storeGet entry.oid with
    | none => some (.error (.notFound entry.oid.text), b)
    | some i => b.applyPutEntry entry i
  | .deleteObject => some (b.applyDeleteEntry entry)
  | .getByOid | .getByFilter | .sync => some (.error (notReplicable entry), b)

def applyRemoteEntry (b : ExchangeBroker) (entry : JournalEntry) (i : Option MimInstance) :
    Option (Except TransportError Unit × ExchangeBroker) :=
  match entry.operation with
  | .putObject =>
    match i with
    | none => some (.error (.validation ("missing instance payload for replicated PutObject " ++
        entry.oid.text)), b)
    | some i => b.applyPutEntry entry i
  | .deleteObject => some (b.applyDeleteEntry entry)
  | .getByOid | .getByFilter | .sync => some (.error (notReplicable entry), b)

end ExchangeBroker

section Laws
open ExchangeBroker

variable (b : ExchangeBroker)

theorem commitPut_sequence (i : MimInstance) :
    (b.commitPut i).sequence = saturatingAdd b.sequence 1 := rfl

theorem commitPut_journal (i : MimInstance) : (b.commitPut i).journal =
    b.journal ++ [⟨saturatingAdd b.sequence 1, .putObject, i.oid⟩] := rfl

@[simp] theorem commitPut_registry (i : MimInstance) : (b.commitPut i).registry = b.registry := rfl

@[simp] theorem commitPut_store (i : MimInstance) :
    (b.commitPut i).store = b.store.insert i := rfl

@[simp] theorem commitPut_inactive (i : MimInstance) :
    (b.commitPut i).inactive = b.inactive.erase i.oid := rfl

theorem commitDelete_sequence (oid : ObjectIdentifier) :
    (b.commitDelete oid).sequence = saturatingAdd b.sequence 1 := rfl

theorem commitDelete_journal (oid : ObjectIdentifier) : (b.commitDelete oid).journal =
    b.journal ++ [⟨saturatingAdd b.sequence 1, .deleteObject, oid⟩] := rfl

@[simp] theorem commitDelete_store (oid : ObjectIdentifier) :
    (b.commitDelete oid).store = b.store := rfl

@[simp] theorem commitDelete_inactive (oid : ObjectIdentifier) :
    (b.commitDelete oid).inactive = insert oid b.inactive := rfl

theorem putObject_cases (request : PutObjectRequest)
    (result : Except TransportError PutObjectResponse) (after : ExchangeBroker)
    (ran : b.putObject request = some (result, after)) :
    (∃ e, validatePut b.registry request.inst = some (.error e) ∧ result = .error e ∧ after = b) ∨
      validatePut b.registry request.inst = some (.ok ()) ∧
        result = .ok ⟨request.inst.oid, !b.storeContains request.inst.oid⟩ ∧
        after = b.commitPut request.inst := by
  unfold putObject at ran
  split at ran
  · cases ran
  · rename_i e refused
    simp only [Option.some.injEq, Prod.mk.injEq] at ran
    exact .inl ⟨e, refused, ran.1.symm, ran.2.symm⟩
  · rename_i accepted
    simp only [Option.some.injEq, Prod.mk.injEq] at ran
    exact .inr ⟨accepted, ran.1.symm, ran.2.symm⟩

theorem putObject_accepted (i : MimInstance)
    (accepted : validatePut b.registry i = some (.ok ())) :
    b.putObject ⟨i⟩ = some (.ok ⟨i.oid, !b.storeContains i.oid⟩, b.commitPut i) := by
  unfold putObject
  rw [accepted]

theorem deleteObject_cases (request : DeleteObjectRequest) :
    (b.storeContains request.oid = false ∧
        b.deleteObject request = (.error (.notFound request.oid.text), b)) ∨
      b.storeContains request.oid = true ∧ b.deleteObject request =
        (.ok ⟨request.oid, decide (request.oid ∉ b.inactive)⟩, b.commitDelete request.oid) := by
  unfold deleteObject
  cases stored : b.storeContains request.oid with
  | false => exact .inl ⟨rfl, rfl⟩
  | true => exact .inr ⟨rfl, rfl⟩

theorem getByOid_ok_iff (oid : ObjectIdentifier)
    (response : GetByOidResponse) :
    b.getByOid ⟨oid⟩ = .ok response ↔
      oid ∉ b.inactive ∧ b.store.get oid = some response.inst := by
  unfold getByOid storeGet
  by_cases gone : oid ∈ b.inactive
  · simp [gone]
  · cases b.store.get oid with
    | none => simp [gone]
    | some i =>
      obtain ⟨j⟩ := response
      simp [gone]

theorem applyPutEntry_accepted (entry : JournalEntry) (i : MimInstance)
    (accepted : validatePut b.registry i = some (.ok ())) :
    b.applyPutEntry entry i = some (.ok (), (b.commitPut i).setApplied entry.sequence) := by
  unfold applyPutEntry
  rw [putObject_accepted b i accepted]

theorem applyPutEntry_cases (entry : JournalEntry) (i : MimInstance)
    (result : Except TransportError Unit) (after : ExchangeBroker)
    (ran : b.applyPutEntry entry i = some (result, after)) :
    (∃ e, result = .error e ∧ after = b) ∨
      validatePut b.registry i = some (.ok ()) ∧ result = .ok () ∧
        after = (b.commitPut i).setApplied entry.sequence := by
  unfold applyPutEntry at ran
  split at ran
  · cases ran
  · rename_i e mid put
    simp only [Option.some.injEq, Prod.mk.injEq] at ran
    rcases putObject_cases b ⟨i⟩ _ _ put with ⟨_, _, _, rfl⟩ | ⟨_, impossible, _⟩
    · exact .inl ⟨e, ran.1.symm, ran.2.symm⟩
    · cases impossible
  · rename_i response mid put
    simp only [Option.some.injEq, Prod.mk.injEq] at ran
    rcases putObject_cases b ⟨i⟩ _ _ put with ⟨_, _, impossible, _⟩ | ⟨accepted, _, rfl⟩
    · cases impossible
    · exact .inr ⟨accepted, ran.1.symm, ran.2.symm⟩

/-- The state after applying a delete entry; it cannot be refused. -/
def ExchangeBroker.afterDeleteEntry (entry : JournalEntry) : ExchangeBroker :=
  (if b.storeContains entry.oid then b.commitDelete entry.oid else b).setApplied entry.sequence

theorem applyDeleteEntry_eq (entry : JournalEntry) :
    b.applyDeleteEntry entry = (.ok (), b.afterDeleteEntry entry) := by
  unfold applyDeleteEntry afterDeleteEntry
  rcases deleteObject_cases b ⟨entry.oid⟩ with ⟨absent, _⟩ | ⟨stored, ran⟩
  · simp only at absent
    simp [absent]
  · simp only at stored ran
    simp [stored, ran]

inductive EntryApplied (entry : JournalEntry) (found : Option MimInstance) :
    Except TransportError Unit → ExchangeBroker → Prop where
  | refused (e : TransportError) : EntryApplied entry found (.error e) b
  | put (i : MimInstance) (operation : entry.operation = .putObject) (here : found = some i)
      (accepted : validatePut b.registry i = some (.ok ())) :
      EntryApplied entry found (.ok ()) ((b.commitPut i).setApplied entry.sequence)
  | delete (operation : entry.operation = .deleteObject) :
      EntryApplied entry found (.ok ()) (b.afterDeleteEntry entry)

section Applied

variable {b} {after : ExchangeBroker} {entry : JournalEntry} {result : Except TransportError Unit}

theorem applied_refused {found : Option MimInstance} {e : TransportError}
    (ran : some (Except.error e, b) = some (result, after)) :
    EntryApplied b entry found result after := by
  rw [Option.some.injEq, Prod.mk.injEq] at ran
  obtain ⟨rfl, rfl⟩ := ran
  exact .refused e

theorem applied_put {found : Option MimInstance} {i : MimInstance}
    (operation : entry.operation = .putObject) (here : found = some i)
    (ran : b.applyPutEntry entry i = some (result, after)) :
    EntryApplied b entry found result after := by
  rcases applyPutEntry_cases b entry i result after ran with ⟨e, rfl, rfl⟩ | ⟨accepted, rfl, rfl⟩
  · exact .refused e
  · exact .put i operation here accepted

theorem applied_delete {found : Option MimInstance} (operation : entry.operation = .deleteObject)
    (ran : some (b.applyDeleteEntry entry) = some (result, after)) :
    EntryApplied b entry found result after := by
  rw [applyDeleteEntry_eq, Option.some.injEq, Prod.mk.injEq] at ran
  obtain ⟨rfl, rfl⟩ := ran
  exact .delete operation

theorem applyEntryFrom_applied {publisher : ExchangeBroker}
    (ran : b.applyEntryFrom publisher entry = some (result, after)) :
    EntryApplied b entry (publisher.storeGet entry.oid) result after := by
  unfold applyEntryFrom at ran
  split at ran
  · rename_i put
    split at ran
    · exact applied_refused ran
    · rename_i i stored
      exact applied_put put stored ran
  · rename_i delete
    exact applied_delete delete ran
  all_goals exact applied_refused ran

theorem applyRemoteEntry_applied {found : Option MimInstance}
    (ran : b.applyRemoteEntry entry found = some (result, after)) :
    EntryApplied b entry found result after := by
  unfold applyRemoteEntry at ran
  split at ran
  · rename_i put
    split at ran
    · exact applied_refused ran
    · exact applied_put put rfl ran
  · rename_i delete
    exact applied_delete delete ran
  all_goals exact applied_refused ran

theorem entry_cursor {found : Option MimInstance}
    (applied : EntryApplied b entry found result after) :
    after.appliedSequence = b.appliedSequence ∨ after.appliedSequence = entry.sequence := by
  cases applied with
  | refused e => exact .inl rfl
  | put i operation here accepted => exact .inr rfl
  | delete operation => exact .inr rfl

end Applied

end Laws

def wireManifest : MimManifest where
  taxonomy := [{ name := "Wire", parent := none }]
  elements := [{
    name := "Wire", kind := .classElement, semanticId := ⟨0x00000000000040008000000000000001⟩,
    parentClass := none, representationTerm := none, isMandatory := false }]
  codeLists := []

def wireRegistry : ModelRegistry where
  elementsByName := IndexMap.ofList (wireManifest.elements.map fun e => (e.name, e))
  elementsBySemanticId := IndexMap.ofList (wireManifest.elements.map fun e => (e.semanticId, e))
  taxonomyByName := IndexMap.ofList (wireManifest.taxonomy.map fun n => (n.name, n))
  codeListsByName := IndexMap.ofList (wireManifest.codeLists.map fun c => (c.name, c))

example : ModelRegistry.fromManifest wireManifest = .ok wireRegistry := rfl

def wireInstance (oid : String) (security : SecurityClassification) : MimInstance where
  oid := ⟨oid⟩
  className := "Wire"
  classSemanticId := ⟨0x00000000000040008000000000000001⟩
  metadata := { security }
  properties := []
  associations := IndexMap.empty

theorem wireInstance_structural (oid : String) (security : SecurityClassification)
    (named : isEmpty oid = false) :
    validateSerializedInstance (wireInstance oid security) = .ok () := by
  rw [validateSerializedInstance_ok]
  refine ⟨named, (by decide : isEmpty "Wire" = false), ?_⟩
  intro p mem
  cases mem

theorem wireInstance_accepted (oid : String) (security : SecurityClassification)
    (named : isEmpty oid = false) :
    validatePut wireRegistry (wireInstance oid security) = some (.ok ()) := by
  rw [validatePut, wireInstance_structural oid security named]
  rfl

end MimTransport
