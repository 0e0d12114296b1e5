import MimStack.Lib.Batches
import MimStack.Serializer.RoundTrip
import MimStack.Transport.Envelope
import MimStack.Transport.Objects
import MimStack.Transport.Representation

/-!
Whole stores. A bulk load puts one instance after the other and stops at the first that
is refused; an export writes the active instances in store order. A load of an export
gives a broker that knows the active objects and no others.
-/
namespace MimTransport
open RustText JsonText MarkupText Fallible IndexedMap StepRuns Batches MimCore MimModel MimRuntime
open MimRuntime.InstanceStore MimPolicy ExchangeBroker SecuredExchangeBroker

namespace ExchangeBroker

def publishStore : ExchangeBroker → List MimInstance →
    Option (Except TransportError (List PutObjectResponse) × ExchangeBroker) :=
  submit fun b i => b.putObject ⟨i⟩

def activeInstances (b : ExchangeBroker) : List MimInstance :=
  b.store.values.filter fun i => decide (i.oid ∉ b.inactive)

def serializeActiveStore [MarkupEscape] (lib : ExchangeLibraries) (b : ExchangeBroker) :
    Except TransportError String :=
  ((Serializer.mk b.registry.version).serializeStore lib
    (b.activeInstances.foldl InstanceStore.insert .empty) .json).mapError .ofMim

/-- What an export holds. -/
def activePayload (b : ExchangeBroker) : ExchangePayload := ⟨b.registry.version, b.activeInstances⟩

end ExchangeBroker

section Loads

variable {b after : ExchangeBroker} {items : List MimInstance}

theorem foldl_commitPut_store (items : List MimInstance) (b : ExchangeBroker) :
    (items.foldl commitPut b).store = items.foldl InstanceStore.insert b.store := by
  induction items generalizing b with
  | nil => rfl
  | cons i rest ih => exact ih (b.commitPut i)

theorem foldl_commitPut_registry (items : List MimInstance) (b : ExchangeBroker) :
    (items.foldl commitPut b).registry = b.registry := by
  induction items generalizing b with
  | nil => rfl
  | cons i rest ih => exact ih (b.commitPut i)

theorem loaded_values (distinct : (items.map (·.oid)).Nodup) :
    (items.foldl InstanceStore.insert .empty).values = items := by
  have keys : (items.map fun i => (i.oid, i)).map Prod.fst = items.map (·.oid) := by
    rw [List.map_map]
    rfl
  have entries := IndexMap.entries_insertAll_fresh (items.map fun i => (i.oid, i)) IndexMap.empty
    (keys ▸ distinct)
  rw [InstanceStore.values, IndexMap.values, inserted_instances]
  refine (congrArg (List.map Prod.snd) entries).trans ?_
  change (items.map fun i => (i.oid, i)).map Prod.snd = items
  rw [List.map_map]
  exact List.map_id _

theorem active_distinct (b : ExchangeBroker) : (b.activeInstances.map (·.oid)).Nodup :=
  b.store.values_nodup.sublist (List.filter_sublist.map _)

theorem active_iff_listed {i : MimInstance} {oid : ObjectIdentifier} :
    b.objectState oid = .active i ↔ i ∈ b.activeInstances ∧ i.oid = oid := by
  rw [active_of_objectState, activeInstances, List.mem_filter, mem_values, decide_eq_true_iff]
  constructor
  · intro stored
    obtain rfl := b.store.keyed oid i stored.1
    exact ⟨stored, rfl⟩
  · intro listed
    obtain ⟨stored, rfl⟩ := listed
    exact stored

theorem objectState_of_active {other : ExchangeBroker} (none : b.inactive = ∅)
    (same : b.activeInstances = other.activeInstances) (oid : ObjectIdentifier) :
    b.objectState oid = match other.objectState oid with
      | .active i => .active i
      | .never | .retired _ => .never := by
  have agree : ∀ i, b.objectState oid = .active i ↔ other.objectState oid = .active i := by
    intro i
    rw [active_iff_listed, active_iff_listed, same]
  have notRetired : ∀ i, b.objectState oid ≠ .retired i := by
    intro i retired
    unfold ExchangeBroker.objectState at retired
    rw [none] at retired
    cases stored : b.store.get oid <;> simp [stored] at retired
  cases state : other.objectState oid with
  | active i => exact (agree i).mpr state
  | never =>
    cases own : b.objectState oid with
    | never => rfl
    | active i => cases state.symm.trans ((agree i).mp own)
    | retired i => exact absurd own (notRetired i)
  | retired j =>
    cases own : b.objectState oid with
    | never => rfl
    | active i => cases state.symm.trans ((agree i).mp own)
    | retired i => exact absurd own (notRetired i)

theorem publishStore_accepted (valid : ∀ i ∈ items, validatePut b.registry i = some (.ok ()))
    (distinct : (items.map (·.oid)).Nodup) (fresh : ∀ i ∈ items, b.storeContains i.oid = false) :
    b.publishStore items =
      some (.ok (items.map fun i => ⟨i.oid, true⟩), items.foldl commitPut b) := by
  induction items generalizing b with
  | nil => rfl
  | cons i rest ih =>
    obtain ⟨apart, later⟩ := List.nodup_cons.mp distinct
    have first := putObject_accepted b i (valid i List.mem_cons_self)
    have others : ∀ j ∈ rest, (b.commitPut i).storeContains j.oid = false := by
      intro j member
      have other : j.oid ≠ i.oid := by
        intro same
        exact apart (List.mem_map.mpr ⟨j, member, same⟩)
      have unknown := fresh j (List.mem_cons_of_mem i member)
      rw [contains_objectState] at unknown ⊢
      rw [objectState_commitPut, if_neg other]
      exact unknown
    have more := ih (b := b.commitPut i) (fun j member => valid j (List.mem_cons_of_mem i member))
      later others
    rw [publishStore] at more ⊢
    rw [submit, first]
    simp only [more, fresh i List.mem_cons_self, Option.map_some]
    rfl

end Loads

section Exports

variable [MarkupEscape] {lib : ExchangeLibraries} {registry : ModelRegistry}

theorem serializeActiveStore_eq (b : ExchangeBroker) :
    b.serializeActiveStore lib = .ok (lib.prettyExchange b.activePayload) := by
  rw [serializeActiveStore, Serializer.serializeStore, loaded_values (active_distinct b)]
  rfl

omit [MarkupEscape] in
theorem run_accepted {calls : List BrokerCall} {b : ExchangeBroker}
    (reached : run BrokerCall.step (.new registry) calls = some b) :
    b.registry = registry ∧ ∀ k i, b.store.get k = some i → validatePut registry i = some (.ok ()) := by
  have put : ∀ (s : ExchangeBroker) (i : MimInstance), (s.registry = registry ∧
      ∀ k j, s.store.get k = some j → validatePut registry j = some (.ok ())) →
      validatePut s.registry i = some (.ok ()) → ∀ k j, (s.store.insert i).get k = some j →
        validatePut registry j = some (.ok ()) := by
    intro s i holds accepted k j stored
    rw [get_insert] at stored
    split at stored
    · rw [← Option.some.inj stored, ← holds.1]
      exact accepted
    · exact holds.2 k j stored
  refine invariant BrokerCall.step (fun s => s.registry = registry ∧
    ∀ k i, s.store.get k = some i → validatePut registry i = some (.ok ())) ?_ calls _ b
      ⟨rfl, fun k i stored => by cases stored⟩ reached
  intro s call next holds taken
  obtain ⟨result, effect⟩ := effect_of_step taken
  refine ⟨effect.registry.trans holds.1, ?_⟩
  cases effect with
  | failed e => exact holds.2
  | put i accepted => exact put s i holds accepted
  | delete oid stored => exact holds.2
  | appliedPut i accepted n => exact put s i holds accepted
  | appliedDelete entry =>
    unfold afterDeleteEntry
    split
    · exact holds.2
    · exact holds.2

variable (registry) in
omit [MarkupEscape] in
theorem imported_active (b : ExchangeBroker) :
    (b.activeInstances.foldl commitPut (.new registry)).store.values = b.activeInstances ∧
      (b.activeInstances.foldl commitPut (.new registry)).inactive = ∅ := by
  constructor
  · rw [foldl_commitPut_store]
    exact loaded_values (active_distinct b)
  · have none : ∀ (items : List MimInstance) (s : ExchangeBroker), s.inactive = ∅ →
        (items.foldl commitPut s).inactive = ∅ := by
      intro items
      induction items with
      | nil => exact fun s empty => empty
      | cons i rest ih =>
        intro s empty
        refine ih (s.commitPut i) ?_
        rw [commitPut_inactive, empty, Finset.erase_empty]
    exact none _ _ rfl

/-- Whatever calls a broker has taken, its export can be loaded into a new broker, which then knows
exactly the objects that are active, answers every query as the old one does, and exports the
same text. -/
theorem export_imported {calls : List BrokerCall} {b : ExchangeBroker}
    (reached : run BrokerCall.step (.new registry) calls = some b)
    (reads : lib.parseExchange (lib.prettyExchange b.activePayload) = .ok b.activePayload) :
    ∃ text instances responses imported, b.serializeActiveStore lib = .ok text ∧
      deserializeStore lib text .json = .ok instances ∧
      (ExchangeBroker.new registry).publishStore instances = some (.ok responses, imported) ∧
      (∀ response ∈ responses, response.created = true) ∧
      (∀ oid, imported.objectState oid = match b.objectState oid with
        | .active i => .active i
        | .never | .retired _ => .never) ∧
      (∀ request, imported.getByFilter request = b.getByFilter request) ∧
      imported.serializeActiveStore lib = .ok text := by
  obtain ⟨own, accepted⟩ := run_accepted reached
  obtain ⟨values, none⟩ := imported_active registry b
  have valid : ∀ i ∈ b.activeInstances, validatePut registry i = some (.ok ()) := by
    intro i member
    exact accepted i.oid i ((b.store.mem_values i).mp (List.mem_filter.mp member).1)
  have published := publishStore_accepted (b := .new registry) valid (active_distinct b)
    fun _ _ => rfl
  have active : (b.activeInstances.foldl commitPut (.new registry)).activeInstances =
      b.activeInstances := by
    rw [activeInstances, values, none]
    exact List.filter_eq_self.mpr fun i _ => rfl
  refine ⟨_, b.activeInstances, _, _, serializeActiveStore_eq b, ?_, published, ?_, ?_, ?_, ?_⟩
  · rw [deserializeStore, reads]
    rfl
  · intro response member
    obtain ⟨i, _, rfl⟩ := List.mem_map.mp member
    rfl
  · exact objectState_of_active none active
  · intro request
    unfold ExchangeBroker.getByFilter
    cases queryCriterion request with
    | error e => rfl
    | ok criterion =>
      have same : ∀ s : ExchangeBroker, (s.store.values.filter fun i =>
          decide (i.oid ∉ s.inactive) && criterion i) = s.activeInstances.filter criterion := by
        intro s
        rw [activeInstances, List.filter_filter]
        exact List.filter_congr fun i _ => Bool.and_comm _ _
      simp only [same, active]
  · rw [serializeActiveStore_eq, activePayload, active, foldl_commitPut_registry, activePayload, own]
    rfl

end Exports

section Enforced

variable [UnicodeCase]

/-- Each instance is put in the name of the broker's own subject. -/
def SecuredExchangeBroker.publishStore : SecuredExchangeBroker → List MimInstance →
    Option (Except TransportError (List PutObjectResponse) × SecuredExchangeBroker) :=
  submit fun s i => s.putObjectAs s.subject ⟨i⟩

def SameOffice (s t : SecuredExchangeBroker) : Prop :=
  ∃ inner, inner.registry = s.inner.registry ∧ t = s.withInner inner

def commitAt (s : SecuredExchangeBroker) (i : MimInstance) : SecuredExchangeBroker :=
  s.withInner (s.inner.commitPut i)

omit [UnicodeCase] in
theorem foldl_commitAt (items : List MimInstance) (s : SecuredExchangeBroker) :
    items.foldl commitAt s = s.withInner (items.foldl commitPut s.inner) := by
  induction items generalizing s with
  | nil => rfl
  | cons i rest ih => exact ih (commitAt s i)

/-- The terms on which a broker takes an instance in a load. -/
def Welcome (s : SecuredExchangeBroker) (i : MimInstance) : Prop :=
  (s.authorize s.subject i .write).isOk = true ∧ validatePut s.inner.registry i = some (.ok ())

theorem put_taken {s next : SecuredExchangeBroker} {i : MimInstance} {response : PutObjectResponse}
    (taken : s.putObjectAs s.subject ⟨i⟩ = some (.ok response, next)) :
    Welcome s i ∧ response.oid = i.oid ∧ next = commitAt s i := by
  rcases putObjectAs_cases _ _ _ _ _ taken with ⟨⟨e, refused⟩, _⟩ | ⟨⟨d, permitted⟩, valid, _, rfl⟩
  · cases refused
  · have welcome : Welcome s i := ⟨by rw [permitted]; rfl, valid⟩
    have accepted := putObjectAs_accepted s s.subject i welcome.1 valid
    rw [taken, Option.some.injEq, Prod.mk.injEq, Except.ok.injEq] at accepted
    exact ⟨welcome, congrArg (·.oid) accepted.1, rfl⟩

theorem put_refused {s next : SecuredExchangeBroker} {i : MimInstance} {e : TransportError}
    (refused : s.putObjectAs s.subject ⟨i⟩ = some (.error e, next)) :
    next = s ∧ (s.authorize s.subject i .write = .error e ∨
      validatePut s.inner.registry i = some (.error e)) := by
  unfold putObjectAs ExchangeBroker.putObject at refused
  cases permitted : s.authorize s.subject i .write with
  | error denied =>
    rw [permitted, Option.some.injEq, Prod.mk.injEq, Except.error.injEq] at refused
    exact ⟨refused.2.symm, .inl (congrArg Except.error refused.1)⟩
  | ok d =>
    cases valid : validatePut s.inner.registry i with
    | none => simp [permitted, valid] at refused
    | some verdict =>
      cases verdict with
      | error invalid =>
        simp only [permitted, valid, Option.map_some, Option.some.injEq, Prod.mk.injEq,
          Except.error.injEq] at refused
        exact ⟨refused.2.symm, .inr (congrArg (some ∘ Except.error) refused.1)⟩
      | ok _ => simp [permitted, valid] at refused

theorem load_taken {s after : SecuredExchangeBroker} {items : List MimInstance}
    {responses : List PutObjectResponse}
    (taken : Taken (fun s i => s.putObjectAs s.subject ⟨i⟩) s items responses after) :
    (∀ i ∈ items, Welcome s i) ∧ responses.map (·.oid) = items.map (·.oid) ∧
      SameOffice s after ∧ after = s.withInner (items.foldl commitPut s.inner) := by
  have steps : ∀ t i response next, SameOffice s t →
      t.putObjectAs t.subject ⟨i⟩ = some (.ok response, next) →
      (Welcome s i ∧ i.oid = response.oid) ∧ SameOffice s next := by
    rintro t i response next ⟨inner, registry, rfl⟩ put
    obtain ⟨⟨permitted, valid⟩, named, rfl⟩ := put_taken put
    rw [withInner_inner, registry] at valid
    exact ⟨⟨⟨permitted, valid⟩, named.symm⟩, inner.commitPut i, registry, rfl⟩
  obtain ⟨each, office⟩ := Taken.each taken ⟨s.inner, rfl, rfl⟩ steps
  obtain ⟨welcome, named⟩ := (List.forall₂_and_left items responses).mp each
  refine ⟨welcome, Eq.symm ?_, office, ?_⟩
  · rw [← List.forall₂_eq_eq_eq, List.forall₂_map_left_iff, List.forall₂_map_right_iff]
    exact named
  · rw [← foldl_commitAt]
    exact taken.foldl fun t i response next put => (put_taken put).2.2

/-- A bulk load puts its instances up to the first that the policy or the validation refuses, and
none after it; what was stored ahead of that one stays. -/
theorem publishStore_stops {s after : SecuredExchangeBroker} {items : List MimInstance}
    {result : Except TransportError (List PutObjectResponse)}
    (ran : s.publishStore items = some (result, after)) :
    ∃ stored rest, items = stored ++ rest ∧
      after = s.withInner (stored.foldl commitPut s.inner) ∧ (∀ i ∈ stored, Welcome s i) ∧
      match result with
      | .ok responses => rest = [] ∧ responses.map (·.oid) = items.map (·.oid)
      | .error e => ∃ i more, rest = i :: more ∧ (s.authorize s.subject i .write = .error e ∨
          validatePut s.inner.registry i = some (.error e)) := by
  rcases submit_cases ran with ⟨responses, rfl, taken⟩ |
    ⟨before, i, more, responses, mid, e, rfl, taken, refused, rfl⟩
  · obtain ⟨welcome, named, _, left⟩ := load_taken taken
    exact ⟨items, [], (List.append_nil _).symm, left, welcome, rfl, named⟩
  · obtain ⟨welcome, _, ⟨inner, registry, rfl⟩, left⟩ := load_taken taken
    obtain ⟨rfl, cause⟩ := put_refused refused
    rw [withInner_inner, registry] at cause
    exact ⟨before, i :: more, rfl, left, welcome, i, more, rfl, cause⟩

end Enforced

def exportFixture : ExchangeBroker :=
  (((ExchangeBroker.new wireRegistry).commitPut (wireInstance "a" {})).commitPut
    (wireInstance "b" {})).commitDelete ⟨"a"⟩

def readsOnly (p : ExchangePayload) (text : String) : Except String ExchangePayload :=
  if text = prettyPayload p then .ok p else .error "expected value"

def librariesReading (p : ExchangePayload) : ExchangeLibraries :=
  { wireLibraries with
    prettyExchange := prettyPayload
    prettyJsonLdExchange := prettyJsonLdPayload
    parseExchange := readsOnly p
    parseJsonLdExchange := fun _ => .error "expected value" }

theorem readsOnly_pretty (p : ExchangePayload) : readsOnly p (prettyPayload p) = .ok p := by
  rw [readsOnly, if_pos rfl]

theorem librariesReading_reads (p : ExchangePayload) :
    (librariesReading p).parseExchange ((librariesReading p).prettyExchange p) = .ok p := by
  simp only [librariesReading]
  exact readsOnly_pretty p

theorem exportFixture_reached : run BrokerCall.step (.new wireRegistry)
    [.put ⟨wireInstance "a" {}⟩, .put ⟨wireInstance "b" {}⟩, .delete ⟨⟨"a"⟩⟩] =
      some exportFixture := by
  have put : ∀ (b : ExchangeBroker) (oid : String), isEmpty oid = false →
      b.registry = wireRegistry →
      BrokerCall.step b (.put ⟨wireInstance oid {}⟩) = some (b.commitPut (wireInstance oid {})) := by
    intro b oid named own
    have valid := wireInstance_accepted oid {} named
    rw [← own] at valid
    rw [BrokerCall.step, BrokerCall.answer, putObject_accepted b _ valid]
    rfl
  have delete : ∀ (b : ExchangeBroker) (oid : ObjectIdentifier), b.storeContains oid = true →
      BrokerCall.step b (.delete ⟨oid⟩) = some (b.commitDelete oid) := by
    intro b oid stored
    rcases deleteObject_cases b ⟨oid⟩ with ⟨missing, _⟩ | ⟨_, done⟩
    · rw [stored] at missing
      cases missing
    · rw [BrokerCall.step, BrokerCall.answer, done]
      rfl
  have start : (ExchangeBroker.new wireRegistry).registry = wireRegistry := rfl
  have second := put ((ExchangeBroker.new wireRegistry).commitPut (wireInstance "a" {})) "b"
    (by decide) start
  rw [run_cons, put (.new wireRegistry) "a" (by decide) start, Option.bind_some, run_cons, second,
    Option.bind_some, run_cons, delete _ ⟨"a"⟩ (by decide), Option.bind_some]
  rfl

theorem export_imported_fixture : ∃ _ : MarkupEscape, ∃ lib text instances responses imported,
    exportFixture.serializeActiveStore lib = .ok text ∧
      deserializeStore lib text .json = .ok instances ∧
      (ExchangeBroker.new wireRegistry).publishStore instances = some (.ok responses, imported) ∧
      imported.objectState ⟨"a"⟩ = .never := by
  obtain ⟨text, instances, responses, imported, written, read, loaded, _, states, _⟩ :=
    @export_imported entityEscape _ _ _ _ exportFixture_reached (librariesReading_reads _)
  have retired : exportFixture.objectState ⟨"a"⟩ = .retired (wireInstance "a" {}) := rfl
  refine ⟨entityEscape, _, text, instances, responses, imported, written, read, loaded, ?_⟩
  rw [states, retired]

def clerk : SecuredExchangeBroker := { securedFixture with subject := restrictedSubject }

theorem clerk_stopped : ∃ _ : UnicodeCase, ∃ e after,
    clerk.publishStore [classified "r" "RESTRICTED", classified "x" "SECRET"] =
      some (.error e, after) := by
  refine ⟨asciiCase, ?_⟩
  let : UnicodeCase := asciiCase
  have first := putObjectAs_accepted clerk clerk.subject (classified "r" "RESTRICTED")
    (by decide +kernel) (wireInstance_accepted "r" _ (by decide))
  have denied : (clerk.authorize clerk.subject (classified "x" "SECRET") .write).isOk = false := by
    decide +kernel
  cases authorized : clerk.authorize clerk.subject (classified "x" "SECRET") .write with
  | ok d =>
    rw [authorized] at denied
    cases denied
  | error e =>
    have second : ∀ b, (clerk.withInner b).putObjectAs clerk.subject ⟨classified "x" "SECRET"⟩ =
        some (.error e, clerk.withInner b) := by
      intro b
      unfold putObjectAs
      rw [authorize_withInner, authorized]
    refine ⟨e, clerk.withInner (clerk.inner.commitPut (classified "r" "RESTRICTED")), ?_⟩
    rw [SecuredExchangeBroker.publishStore, submit, first]
    simp only [submit]
    have later := second (clerk.inner.commitPut (classified "r" "RESTRICTED"))
    have subject : (clerk.withInner (clerk.inner.commitPut
        (classified "r" "RESTRICTED"))).subject = clerk.subject := rfl
    rw [subject, later]
    rfl

theorem publishStore_stops_fixture : ∃ _ : UnicodeCase, ∃ e after stored rest,
    clerk.publishStore [classified "r" "RESTRICTED", classified "x" "SECRET"] =
        some (.error e, after) ∧
      [classified "r" "RESTRICTED", classified "x" "SECRET"] = stored ++ rest ∧
      after.inner = stored.foldl commitPut clerk.inner ∧ rest ≠ [] := by
  obtain ⟨case, e, after, ran⟩ := clerk_stopped
  obtain ⟨stored, rest, split, left, _, i, more, refused, _⟩ := @publishStore_stops case _ _ _ _ ran
  refine ⟨case, e, after, stored, rest, ran, split, congrArg (·.inner) left, ?_⟩
  rw [refused]
  exact List.cons_ne_nil i more

end MimTransport
