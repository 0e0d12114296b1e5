import MimStack.Transport.QueryView

/-!
Queries in every state. One label that cannot be derived refuses a query to everyone, so
what may be placed in the inner store decides what is answered; and the pages of an
answer make up the whole of it.
-/
namespace MimTransport
open RustText Fallible StepRuns ListWindows MimCore MimModel MimRuntime MimRuntime.InstanceStore
open MimLabeling MimPolicy ExchangeBroker SecuredExchangeBroker

variable [UnicodeCase]

section Answers

def Labelled (i : MimInstance) : Prop := ∃ label, instanceLabel i = .ok label

theorem labelFailure_none {instances : List MimInstance} :
    labelFailure instances = none ↔ ∀ i ∈ instances, Labelled i := by
  unfold labelFailure
  rw [List.findSome?_eq_none_iff]
  refine forall₂_congr fun i _ => ?_
  unfold Labelled
  cases instanceLabel i <;> simp

/-- The answer holds exactly the matching active instances that the subject may read. -/
def AnswersExactly (s : SecuredExchangeBroker) (subject : SubjectAttributes)
    (request : GetByFilterRequest) (criterion : MimInstance → Bool) : Prop :=
  ∃ response, s.getByFilterAs subject request = .ok response ∧
    response.instances = (matching s criterion).filter (readable s subject)

/-- Every well-formed request without paging is answered so. -/
def Answers (s : SecuredExchangeBroker) : Prop :=
  ∀ subject request criterion, queryCriterion request = .ok criterion → request.offset = none →
    request.limit = none → AnswersExactly s subject request criterion

theorem answersExactly_iff {s : SecuredExchangeBroker} {subject : SubjectAttributes}
    {request : GetByFilterRequest} {criterion : MimInstance → Bool}
    (accepted : queryCriterion request = .ok criterion) (first : request.offset = none)
    (unlimited : request.limit = none) : AnswersExactly s subject request criterion ↔
      ∀ i ∈ matching s criterion, Labelled i := by
  have whole : page s request criterion = matching s criterion := by
    rw [page, first, unlimited]
    rfl
  unfold AnswersExactly
  rw [getByFilterAs_eq s subject request criterion accepted, whole, ← labelFailure_none]
  cases labelFailure (matching s criterion) with
  | none => simp
  | some e => simp

/-- Every active instance has a label. -/
def LabelledActive (b : ExchangeBroker) : Prop :=
  ∀ i ∈ b.store.values, i.oid ∉ b.inactive → Labelled i

theorem answers_of_labelled {s : SecuredExchangeBroker} (labelled : LabelledActive s.inner) :
    Answers s := by
  intro subject request criterion accepted first unlimited
  refine (answersExactly_iff accepted first unlimited).mpr fun i member => ?_
  obtain ⟨stored, both⟩ := List.mem_filter.mp member
  have active := of_decide_eq_true (Bool.and_eq_true_iff.mp both).1
  exact labelled i stored active

theorem labelledActive_commitPut {b : ExchangeBroker} {i : MimInstance}
    (labelled : LabelledActive b) (own : Labelled i) : LabelledActive (b.commitPut i) := by
  intro j member active
  rw [commitPut_store, mem_values, get_insert] at member
  split at member
  · exact Option.some.inj member ▸ own
  · rename_i other
    refine labelled j ((mem_values _ _).mpr member) fun gone => active ?_
    rw [commitPut_inactive]
    exact Finset.mem_erase.mpr ⟨other, gone⟩

theorem labelledActive_commitDelete {b : ExchangeBroker} {oid : ObjectIdentifier}
    (labelled : LabelledActive b) : LabelledActive (b.commitDelete oid) := by
  intro j member active
  rw [commitDelete_inactive] at active
  exact labelled j member fun gone => active (Finset.mem_insert_of_mem gone)

theorem labelledActive_applied {b after : ExchangeBroker} {entry : JournalEntry}
    {found : Option MimInstance} {result : Except TransportError Unit}
    (labelled : LabelledActive b) (applied : EntryApplied b entry found result after)
    (placed : entry.operation = .putObject → ∀ i, found = some i →
      validatePut b.registry i = some (.ok ()) → Labelled i) : LabelledActive after := by
  cases applied with
  | refused e => exact labelled
  | put i operation here accepted =>
    exact labelledActive_commitPut labelled (placed operation i here accepted)
  | delete operation =>
    unfold afterDeleteEntry
    split
    · exact labelledActive_commitDelete labelled
    · exact labelled

/-- What changes the store behind the enforcement point: a call under a subject, a call on the
inner broker itself, an entry that is replicated, or another broker put in its place. -/
inductive StoreChange where
  | secured (step : SecuredStep)
  | put (request : PutObjectRequest)
  | delete (request : DeleteObjectRequest)
  | applyFrom (publisher : ExchangeBroker) (entry : JournalEntry)
  | applyRemote (entry : JournalEntry) (found : Option MimInstance)
  | replace (broker : ExchangeBroker)

def changeStep (s : SecuredExchangeBroker) : StoreChange → Option SecuredExchangeBroker
  | .secured step => securedStep s step
  | .put request => (s.inner.putObject request).map fun r => s.withInner r.2
  | .delete request => some (s.withInner (s.inner.deleteObject request).2)
  | .applyFrom publisher entry =>
    (s.inner.applyEntryFrom publisher entry).map fun r => s.withInner r.2
  | .applyRemote entry found =>
    (s.inner.applyRemoteEntry entry found).map fun r => s.withInner r.2
  | .replace broker => some (s.withInner broker)

/-- Whatever instance the change places, where the registry accepts it, has a label. -/
def PlacesLabelled (s : SecuredExchangeBroker) (change : StoreChange)
    (_next : SecuredExchangeBroker) : Prop :=
  match change with
  | .secured _ => True
  | .put request => validatePut s.inner.registry request.inst = some (.ok ()) →
      Labelled request.inst
  | .delete _ => True
  | .applyFrom publisher entry => entry.operation = .putObject →
      ∀ i, publisher.storeGet entry.oid = some i →
        validatePut s.inner.registry i = some (.ok ()) → Labelled i
  | .applyRemote entry found => entry.operation = .putObject →
      ∀ i, found = some i → validatePut s.inner.registry i = some (.ok ()) → Labelled i
  | .replace broker => LabelledActive broker

theorem securedStep_labelled {s next : SecuredExchangeBroker} {step : SecuredStep}
    (labelled : LabelledActive s.inner) (taken : securedStep s step = some next) :
    LabelledActive next.inner := by
  cases step with
  | put subject request =>
    obtain ⟨⟨result, after⟩, ran, rfl⟩ := Option.map_eq_some_iff.mp taken
    rcases putObjectAs_cases s subject request result after ran with
      ⟨_, rfl, _⟩ | ⟨⟨decision, permitted⟩, _, _, rfl⟩
    · exact labelled
    · obtain ⟨label, own, _⟩ := (authorize_ok_iff s subject request.inst .write decision).mp permitted
      exact labelledActive_commitPut labelled ⟨label, own⟩
  | delete subject request =>
    obtain rfl := Option.some.inj taken
    rcases deleteObjectAs_cases s subject request with ⟨e, ran⟩ | ⟨response, _, ran⟩
    · rw [ran]
      exact labelled
    · rw [ran]
      exact labelledActive_commitDelete labelled

theorem changeStep_labelled {s next : SecuredExchangeBroker} {change : StoreChange}
    (labelled : LabelledActive s.inner) (taken : changeStep s change = some next)
    (places : PlacesLabelled s change next) : LabelledActive next.inner := by
  cases change with
  | secured step => exact securedStep_labelled labelled taken
  | put request =>
    obtain ⟨⟨result, after⟩, ran, rfl⟩ := Option.map_eq_some_iff.mp taken
    rcases putObject_cases s.inner request result after ran with ⟨_, _, _, rfl⟩ | ⟨accepted, _, rfl⟩
    · exact labelled
    · exact labelledActive_commitPut labelled (places accepted)
  | delete request =>
    obtain rfl := Option.some.inj taken
    rw [withInner_inner]
    rcases deleteObject_cases s.inner request with ⟨_, ran⟩ | ⟨_, ran⟩
    · rw [ran]
      exact labelled
    · rw [ran]
      exact labelledActive_commitDelete labelled
  | applyFrom publisher entry =>
    obtain ⟨⟨result, after⟩, ran, rfl⟩ := Option.map_eq_some_iff.mp taken
    exact labelledActive_applied labelled (applyEntryFrom_applied ran) places
  | applyRemote entry found =>
    obtain ⟨⟨result, after⟩, ran, rfl⟩ := Option.map_eq_some_iff.mp taken
    exact labelledActive_applied labelled (applyRemoteEntry_applied ran) places
  | replace broker =>
    obtain rfl := Option.some.inj taken
    exact places

/-- A query is answered exactly where every match has a label; and along a run that places no
active instance without one, every query is answered. -/
theorem queries_answered :
    (∀ (s : SecuredExchangeBroker) subject request criterion,
      queryCriterion request = .ok criterion → request.offset = none → request.limit = none →
        (AnswersExactly s subject request criterion ↔ ∀ i ∈ matching s criterion, Labelled i)) ∧
    ∀ (s : SecuredExchangeBroker) changes, LabelledActive s.inner →
      EveryStep changeStep PlacesLabelled s changes →
        Answers s ∧ EveryStep changeStep (fun _ _ next => Answers next) s changes := by
  refine ⟨fun s subject request criterion => answersExactly_iff, ?_⟩
  intro s changes labelled places
  refine ⟨answers_of_labelled labelled, ?_⟩
  have exact' : ∀ (s : SecuredExchangeBroker) change next, LabelledActive s.inner →
      changeStep s change = some next → PlacesLabelled s change next →
      (Answers next ↔ True) ∧ (Answers next → LabelledActive next.inner) := by
    intro s change next here taken places
    have there := changeStep_labelled here taken places
    exact ⟨iff_of_true (answers_of_labelled there) trivial, fun _ => there⟩
  exact (everyStep_iff_within changeStep (fun s => LabelledActive s.inner) PlacesLabelled
    (fun _ _ next => Answers next) (fun _ _ _ => True) exact' changes s labelled places).mpr
      (everyStep_of_forall changeStep _ (fun _ _ _ _ => trivial) changes s)

def bogusChanges : List StoreChange :=
  [.secured (.put secretSubject ⟨classified "r" "RESTRICTED"⟩), .put ⟨classified "x" "BOGUS"⟩]

def bogusBroker : SecuredExchangeBroker :=
  oneObject.withInner (oneObject.inner.commitPut (classified "x" "BOGUS"))

theorem oneObject_reached (permitted : (securedFixture.authorize secretSubject
    (classified "r" "RESTRICTED") .write).isOk = true) :
    changeStep securedFixture (.secured (.put secretSubject ⟨classified "r" "RESTRICTED"⟩)) =
      some oneObject :=
  securedStep_put_fixture securedFixture secretSubject "r" "RESTRICTED" permitted (by decide) rfl

omit [UnicodeCase] in
/-- The query that showed an object fails for everyone once the other one is there. -/
theorem bogus_label_blocks_query : ∃ _ : UnicodeCase,
    run changeStep securedFixture bogusChanges = some bogusBroker ∧
      ((bogusBroker.inner.getByFilter { className := "Wire" }).toOption.map (·.total)) = some 2 ∧
      (bogusBroker.getByFilterAs secretSubject { className := "Wire" }).isOk = false ∧
      ¬ Answers bogusBroker := by
  refine ⟨asciiCase, ?_⟩
  let : UnicodeCase := asciiCase
  have accepted : validatePut oneObject.inner.registry (classified "x" "BOGUS") = some (.ok ()) :=
    wireInstance_accepted "x" _ (by decide)
  have placed : changeStep oneObject (.put ⟨classified "x" "BOGUS"⟩) = some bogusBroker := by
    rw [changeStep, putObject_accepted _ _ accepted]
    rfl
  have reached : run changeStep securedFixture bogusChanges = some bogusBroker := by
    rw [bogusChanges, run_cons, oneObject_reached (by decide +kernel), Option.bind_some, run_cons,
      placed]
    rfl
  have failed : (bogusBroker.getByFilterAs secretSubject { className := "Wire" }).isOk = false := by
    decide +kernel
  refine ⟨reached, by decide +kernel, failed, ?_⟩
  intro answers
  obtain ⟨response, same, _⟩ := answers secretSubject { className := "Wire" } _ rfl rfl rfl
  rw [same] at failed
  cases failed

omit [UnicodeCase] in
theorem queries_answered_fixture : ∃ _ : UnicodeCase,
    AnswersExactly oneObject restrictedSubject { className := "Wire" } (fun i =>
      i.className == "Wire" && legacyMatches { className := "Wire" } i) ∧
    Answers securedFixture ∧ EveryStep changeStep (fun _ _ next => Answers next) securedFixture
      [.secured (.put secretSubject ⟨classified "r" "RESTRICTED"⟩)] := by
  refine ⟨asciiCase, ?_⟩
  let : UnicodeCase := asciiCase
  have empty : LabelledActive securedFixture.inner := by
    intro i member
    cases member
  have places : EveryStep changeStep PlacesLabelled securedFixture
      [.secured (.put secretSubject ⟨classified "r" "RESTRICTED"⟩)] :=
    fun _ _ => ⟨trivial, trivial⟩
  have labelled : LabelledActive oneObject.inner :=
    changeStep_labelled empty (oneObject_reached (by decide +kernel)) trivial
  refine ⟨(queries_answered.1 oneObject restrictedSubject { className := "Wire" } _ rfl rfl rfl).mpr ?_,
    queries_answered.2 securedFixture _ empty places⟩
  intro i member
  obtain ⟨stored, both⟩ := List.mem_filter.mp member
  exact labelled i stored (of_decide_eq_true (Bool.and_eq_true_iff.mp both).1)

end Answers

section Pages

/-- The pages that begin below the total, each of which reports it, make up the whole answer. -/
def Tiles (query : GetByFilterRequest → Except TransportError GetByFilterResponse)
    (request : GetByFilterRequest) (limit : Nat) : Prop :=
  ∃ whole pages, query { request with offset := none, limit := none } = .ok whole ∧
    ((offsets limit whole.total).mapM fun o =>
      query { request with offset := some o, limit := some limit }) = .ok pages ∧
    (∀ p ∈ pages, p.total = whole.total) ∧
    pages.flatMap (·.instances) = whole.instances

omit [UnicodeCase] in
theorem tiles_of_windows {query : GetByFilterRequest → Except TransportError GetByFilterResponse}
    {request : GetByFilterRequest} {limit : Nat} (positive : 0 < limit) (matches' : List MimInstance)
    (shown : MimInstance → Bool)
    (whole : query { request with offset := none, limit := none } =
      .ok ⟨matches'.filter shown, (matches'.filter shown).length, matches'.length⟩)
    (paged : ∀ o, query { request with offset := some o, limit := some limit } =
      .ok ⟨(window o limit matches').filter shown, ((window o limit matches').filter shown).length,
        matches'.length⟩) : Tiles query request limit := by
  refine ⟨_, _, whole, mapM_succeeds _ fun o _ => paged o, ?_, ?_⟩
  · intro p member
    obtain ⟨o, _, rfl⟩ := List.mem_map.mp member
    rfl
  · rw [List.flatMap_map, ← List.filter_flatMap, windows_tile positive]

theorem pages_tile {limit : Nat} (positive : 0 < limit) (request : GetByFilterRequest)
    {criterion : MimInstance → Bool} (accepted : queryCriterion request = .ok criterion) :
    (∀ b : ExchangeBroker, Tiles b.getByFilter request limit) ∧
    ∀ (s : SecuredExchangeBroker) subject, (∀ i ∈ matching s criterion, Labelled i) →
      Tiles (s.getByFilterAs subject) request limit := by
  have accepted' : ∀ offset limit', queryCriterion { request with offset, limit := limit' } =
      .ok criterion := fun _ _ => accepted
  constructor
  · intro b
    let found := b.store.values.filter fun i => decide (i.oid ∉ b.inactive) && criterion i
    have all : ∀ l : List MimInstance, l.filter (fun _ => true) = l := fun l => by simp
    refine tiles_of_windows positive found (fun _ => true) ?_ ?_
    · rw [ExchangeBroker.getByFilter, accepted' none none, all]
      rfl
    · intro o
      rw [ExchangeBroker.getByFilter, accepted' (some o) (some limit), all]
      rfl
  · intro s subject labelled
    refine tiles_of_windows positive (matching s criterion) (readable s subject) ?_ ?_
    · have whole : page s { request with offset := none, limit := none } criterion =
          matching s criterion := rfl
      rw [getByFilterAs_eq s subject _ criterion (accepted' none none), whole,
        labelFailure_none.mpr labelled]
    · intro o
      have part : page s { request with offset := some o, limit := some limit } criterion =
          window o limit (matching s criterion) := rfl
      have within : ∀ i ∈ window o limit (matching s criterion), Labelled i := by
        intro i member
        exact labelled i (List.mem_of_mem_drop (List.mem_of_mem_take member))
      rw [getByFilterAs_eq s subject _ criterion (accepted' (some o) (some limit)), part,
        labelFailure_none.mpr within]

omit [UnicodeCase] in
theorem pages_tile_fixture : ∃ _ : UnicodeCase,
    oneMoreSecret.inner.store.values.length = 2 ∧
      Tiles oneMoreSecret.inner.getByFilter { className := "Wire" } 1 ∧
      Tiles (oneMoreSecret.getByFilterAs restrictedSubject) { className := "Wire" } 1 := by
  refine ⟨asciiCase, ?_⟩
  let : UnicodeCase := asciiCase
  have tiles := pages_tile (by decide : 0 < 1) { className := "Wire" } rfl
  refine ⟨by decide +kernel, tiles.1 _, tiles.2 _ _ ?_⟩
  rw [← labelFailure_none]
  have complete : (labelFailure (matching oneMoreSecret fun i =>
      i.className == "Wire" && legacyMatches { className := "Wire" } i)).isNone = true := by
    decide +kernel
  exact Option.isNone_iff_eq_none.mp complete

end Pages

end MimTransport
