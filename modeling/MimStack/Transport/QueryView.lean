import MimStack.Transport.Secured
import MimStack.Lib.Windows

/-!
What a subject learns from a query. The page is cut out of all matching active
instances and the total counts them all; permission is applied afterwards, to
the page only. Instances the subject may not read therefore take up places in
the page and in the total.
-/
namespace MimTransport
open RustText ListWindows MimCore MimModel MimRuntime MimRuntime.InstanceStore MimLabeling MimPolicy
open ExchangeBroker SecuredExchangeBroker

theorem countP_split (p : MimInstance → Bool) (l : List MimInstance) :
    l.length = l.countP p + l.countP fun i => !p i := by
  simpa using List.length_eq_countP_add_countP p (l := l)

theorem paginate_window (instances : List MimInstance) (offset limit : Option Nat) :
    ∃ size, paginateInstances instances offset limit = window (offset.getD 0) size instances := by
  cases limit with
  | some limit => exact ⟨limit, rfl⟩
  | none => exact ⟨instances.length, (window_all _ _).symm⟩

theorem paginate_length (l m : List MimInstance) (offset limit : Option Nat)
    (same : l.length = m.length) : (paginateInstances l offset limit).length =
      (paginateInstances m offset limit).length := by
  cases limit <;> simp [paginateInstances, same]

variable [UnicodeCase]

def readable (s : SecuredExchangeBroker) (subject : SubjectAttributes) (i : MimInstance) : Bool :=
  (s.authorize subject i .read).isOk

/-- The brokers enforce the same policy in the same domain, and their stores differ only in
instances the subject may not read. -/
structure SameView (subject : SubjectAttributes) (s t : SecuredExchangeBroker) : Prop where
  pep : s.pep = t.pep
  domain : s.domain = t.domain
  visible : s.inner.store.values.filter (readable s subject) =
    t.inner.store.values.filter (readable t subject)
  inactive : ∀ i ∈ s.inner.store.values, readable s subject i = true →
    (i.oid ∈ s.inner.inactive ↔ i.oid ∈ t.inner.inactive)

/-- The active instances that meet a query's criterion, in store order. -/
def matching (s : SecuredExchangeBroker) (criterion : MimInstance → Bool) : List MimInstance :=
  s.inner.store.values.filter fun i => decide (i.oid ∉ s.inner.inactive) && criterion i

def page (s : SecuredExchangeBroker) (request : GetByFilterRequest)
    (criterion : MimInstance → Bool) : List MimInstance :=
  paginateInstances (matching s criterion) request.offset request.limit

/-- The first label of a page that cannot be derived; it aborts the query. -/
def labelFailure (instances : List MimInstance) : Option TransportError :=
  instances.findSome? fun i =>
    match instanceLabel i with
    | .error e => some e
    | .ok _ => none

def hiddenMatches (s : SecuredExchangeBroker) (subject : SubjectAttributes)
    (criterion : MimInstance → Bool) : Nat :=
  (matching s criterion).countP fun i => !readable s subject i

def hiddenSkipped (s : SecuredExchangeBroker) (subject : SubjectAttributes)
    (request : GetByFilterRequest) (criterion : MimInstance → Bool) : Nat :=
  ((matching s criterion).take (request.offset.getD 0)).countP fun i => !readable s subject i

def hiddenShown (s : SecuredExchangeBroker) (subject : SubjectAttributes)
    (request : GetByFilterRequest) (criterion : MimInstance → Bool) : Nat :=
  (page s request criterion).countP fun i => !readable s subject i

/-- Readable matches before the page. -/
def skippedReadable (s : SecuredExchangeBroker) (subject : SubjectAttributes)
    (request : GetByFilterRequest) (criterion : MimInstance → Bool) : Nat :=
  ((matching s criterion).take (request.offset.getD 0)).countP (readable s subject)

def shownReadable (s : SecuredExchangeBroker) (subject : SubjectAttributes)
    (request : GetByFilterRequest) (criterion : MimInstance → Bool) : Nat :=
  (page s request criterion).countP (readable s subject)

/-- The hidden instances disturb neither the total nor the page: as many of them match, lie in
the page and lie before it (unless the page shows nothing else), and they abort it alike. -/
def Undisturbed (subject : SubjectAttributes) (s t : SecuredExchangeBroker)
    (request : GetByFilterRequest) : Prop :=
  ∀ criterion, queryCriterion request = .ok criterion →
    labelFailure (page s request criterion) = labelFailure (page t request criterion) ∧
    (labelFailure (page s request criterion) = none →
      hiddenMatches s subject criterion = hiddenMatches t subject criterion ∧
      hiddenShown s subject request criterion = hiddenShown t subject request criterion ∧
      (hiddenSkipped s subject request criterion = hiddenSkipped t subject request criterion ∨
        ∀ i ∈ page s request criterion, readable s subject i = false))

theorem readable_iff (s : SecuredExchangeBroker) (subject : SubjectAttributes) (i : MimInstance)
    (label : ConfidentialityLabel) (labelled : instanceLabel i = .ok label) :
    readable s subject i = (s.pep.enforceAccess subject label .read s.domain).isOk := by
  unfold readable authorize
  rw [labelled]
  cases enforced : s.pep.enforceAccess subject label .read s.domain <;> simp [enforced] <;> rfl

theorem permittedInstances_eq (s : SecuredExchangeBroker) (subject : SubjectAttributes)
    (instances : List MimInstance) :
    s.permittedInstances subject instances =
      match labelFailure instances with
      | some e => .error e
      | none => .ok (instances.filter (readable s subject)) := by
  induction instances with
  | nil => rfl
  | cons i rest ih =>
    rw [permittedInstances]
    cases labelled : instanceLabel i with
    | error e => simp [labelFailure, labelled]
    | ok label =>
      have later : labelFailure (i :: rest) = labelFailure rest := by
        simp [labelFailure, labelled]
      rw [later]
      simp only [ih, List.filter_cons, readable_iff s subject i label labelled]
      cases labelFailure rest with
      | some e => rfl
      | none =>
        cases s.pep.enforceAccess subject label .read s.domain <;> rfl

section Query

variable (s t : SecuredExchangeBroker) (subject : SubjectAttributes)
variable (request : GetByFilterRequest) (criterion : MimInstance → Bool)

theorem criterion_of_answered {response : GetByFilterResponse}
    (answered : s.getByFilterAs subject request = .ok response) :
    ∃ criterion, queryCriterion request = .ok criterion := by
  obtain ⟨page, _, looked, _⟩ := (getByFilterAs_ok_iff s subject request response).mp answered
  unfold ExchangeBroker.getByFilter at looked
  cases accepted : queryCriterion request with
  | error e =>
    rw [accepted] at looked
    cases looked
  | ok criterion => exact ⟨criterion, rfl⟩

theorem getByFilterAs_eq (accepted : queryCriterion request = .ok criterion) :
    s.getByFilterAs subject request =
      match labelFailure (page s request criterion) with
      | some e => .error e
      | none => .ok ⟨(page s request criterion).filter (readable s subject),
          ((page s request criterion).filter (readable s subject)).length,
          (matching s criterion).length⟩ := by
  have found : s.inner.getByFilter request = .ok ⟨page s request criterion,
      (page s request criterion).length, (matching s criterion).length⟩ := by
    rw [ExchangeBroker.getByFilter, accepted]
    rfl
  rw [SecuredExchangeBroker.getByFilterAs, found]
  simp only [permittedInstances_eq]
  cases labelFailure (page s request criterion) <;> rfl

theorem page_readable : (page s request criterion).filter (readable s subject) =
    window (skippedReadable s subject request criterion)
      (shownReadable s subject request criterion)
      ((matching s criterion).filter (readable s subject)) := by
  obtain ⟨size, same⟩ := paginate_window (matching s criterion) request.offset request.limit
  unfold skippedReadable shownReadable page
  rw [same]
  exact filter_window _ _ _ _

theorem page_fits : skippedReadable s subject request criterion +
    shownReadable s subject request criterion ≤
      ((matching s criterion).filter (readable s subject)).length := by
  obtain ⟨size, same⟩ := paginate_window (matching s criterion) request.offset request.limit
  unfold skippedReadable shownReadable page
  rw [same]
  exact counts_fit _ _ _ _

theorem skipped_length : skippedReadable s subject request criterion +
    hiddenSkipped s subject request criterion =
      min (request.offset.getD 0) (matching s criterion).length := by
  rw [← List.length_take]
  exact (countP_split _ _).symm

theorem shown_length : shownReadable s subject request criterion +
    hiddenShown s subject request criterion = (page s request criterion).length :=
  (countP_split _ _).symm

theorem nothing_shown : shownReadable s subject request criterion = 0 ↔
    ∀ i ∈ page s request criterion, readable s subject i = false := by
  unfold shownReadable
  rw [List.countP_eq_zero]
  simp

theorem matching_length : (matching s criterion).length =
    ((matching s criterion).filter (readable s subject)).length +
      hiddenMatches s subject criterion := by
  unfold hiddenMatches
  rw [← List.countP_eq_length_filter]
  exact countP_split _ _

theorem matching_readable_nodup :
    ((matching s criterion).filter (readable s subject)).Nodup :=
  ((List.Nodup.of_map _ (values_nodup s.inner.store)).filter _).filter _

end Query

theorem sameView_matching {subject : SubjectAttributes} {s t : SecuredExchangeBroker}
    (view : SameView subject s t) (criterion : MimInstance → Bool) :
    (matching s criterion).filter (readable s subject) =
      (matching t criterion).filter (readable t subject) := by
  have swap : ∀ u : SecuredExchangeBroker, (matching u criterion).filter (readable u subject) =
      (u.inner.store.values.filter (readable u subject)).filter
        fun i => decide (i.oid ∉ u.inner.inactive) && criterion i := by
    intro u
    rw [matching, List.filter_filter, List.filter_filter]
    refine List.filter_congr fun i _ => ?_
    exact Bool.and_comm _ _
  rw [swap s, swap t, ← view.visible]
  refine List.filter_congr fun i mem => ?_
  rw [List.mem_filter] at mem
  simp only [view.inactive i mem.1 mem.2]

section TwoRuns

variable {subject : SubjectAttributes} {s t : SecuredExchangeBroker}

theorem undisturbed_iff {request : GetByFilterRequest} {criterion : MimInstance → Bool}
    (accepted : queryCriterion request = .ok criterion) :
    Undisturbed subject s t request ↔
      labelFailure (page s request criterion) = labelFailure (page t request criterion) ∧
      (labelFailure (page s request criterion) = none →
        hiddenMatches s subject criterion = hiddenMatches t subject criterion ∧
        hiddenShown s subject request criterion = hiddenShown t subject request criterion ∧
        (hiddenSkipped s subject request criterion = hiddenSkipped t subject request criterion ∨
          ∀ i ∈ page s request criterion, readable s subject i = false)) := by
  constructor
  · exact fun h => h criterion accepted
  · intro h other same
    rw [accepted] at same
    obtain rfl := Except.ok.inj same
    exact h

variable (view : SameView subject s t)
include view

theorem totals_iff (criterion : MimInstance → Bool) :
    (matching s criterion).length = (matching t criterion).length ↔
      hiddenMatches s subject criterion = hiddenMatches t subject criterion := by
  rw [matching_length s subject, matching_length t subject, sameView_matching view]
  omega

theorem pages_iff (request : GetByFilterRequest) (criterion : MimInstance → Bool)
    (total : (matching s criterion).length = (matching t criterion).length) :
    (page s request criterion).filter (readable s subject) =
        (page t request criterion).filter (readable t subject) ↔
      hiddenShown s subject request criterion = hiddenShown t subject request criterion ∧
      (hiddenSkipped s subject request criterion = hiddenSkipped t subject request criterion ∨
        ∀ i ∈ page s request criterion, readable s subject i = false) := by
  have sameReadable := sameView_matching view criterion
  have pageLength := paginate_length _ _ request.offset request.limit total
  have shownS := shown_length s subject request criterion
  have shownT := shown_length t subject request criterion
  have skippedS := skipped_length s subject request criterion
  have skippedT := skipped_length t subject request criterion
  rw [page_readable s subject, page_readable t subject, ← sameReadable,
    window_eq_iff (matching_readable_nodup s subject criterion)
      (page_fits s subject request criterion)
      (sameReadable ▸ page_fits t subject request criterion), ← nothing_shown]
  unfold page at shownS shownT
  omega

end TwoRuns

/-- Two stores that look the same to a subject answer its query the same exactly when the
hidden instances do not disturb it. -/
theorem query_same_iff (subject : SubjectAttributes) (s t : SecuredExchangeBroker)
    (view : SameView subject s t) (request : GetByFilterRequest) :
    s.getByFilterAs subject request = t.getByFilterAs subject request ↔
      Undisturbed subject s t request := by
  cases accepted : queryCriterion request with
  | error e =>
    have refused : ∀ u : SecuredExchangeBroker, u.getByFilterAs subject request = .error e := by
      intro u
      rw [SecuredExchangeBroker.getByFilterAs, ExchangeBroker.getByFilter, accepted]
    simp [refused, Undisturbed, accepted]
  | ok criterion =>
    rw [undisturbed_iff accepted, getByFilterAs_eq s subject request criterion accepted,
      getByFilterAs_eq t subject request criterion accepted]
    cases labelFailure (page s request criterion) with
    | some e =>
      cases labelFailure (page t request criterion) with
      | some f => simp
      | none => simp
    | none =>
      cases labelFailure (page t request criterion) with
      | some f => simp
      | none =>
        simp only [Except.ok.injEq, GetByFilterResponse.mk.injEq, true_and, forall_const]
        constructor
        · rintro ⟨shown, _, total⟩
          have hidden := (totals_iff view criterion).mp total
          exact ⟨hidden, (pages_iff view request criterion total).mp shown⟩
        · rintro ⟨hidden, shown⟩
          have total := (totals_iff view criterion).mpr hidden
          have same := (pages_iff view request criterion total).mpr shown
          exact ⟨same, congrArg List.length same, total⟩

theorem readable_withInner (s : SecuredExchangeBroker) (b : ExchangeBroker)
    (subject : SubjectAttributes) : readable (s.withInner b) subject = readable s subject := rfl

theorem sameView_hidden_put (s : SecuredExchangeBroker) (subject : SubjectAttributes)
    (i : MimInstance) (fresh : i.oid ∉ s.inner.store.keys)
    (hidden : readable s subject i = false) :
    SameView subject s (s.withInner (s.inner.commitPut i)) := by
  refine ⟨rfl, rfl, ?_, ?_⟩
  · rw [readable_withInner, withInner_inner, commitPut_store, values_insert_fresh _ i fresh,
      List.filter_append]
    simp [hidden]
  · intro j mem _
    have other : j.oid ≠ i.oid := by
      intro same
      rw [← same, ← values_oids] at fresh
      exact fresh (List.mem_map_of_mem mem)
    rw [withInner_inner, commitPut_inactive, Finset.mem_erase]
    exact ⟨fun gone => ⟨other, gone⟩, fun gone => gone.2⟩

def oneObject : SecuredExchangeBroker :=
  securedFixture.withInner (securedFixture.inner.commitPut (classified "r" "RESTRICTED"))

def oneMoreSecret : SecuredExchangeBroker :=
  oneObject.withInner (oneObject.inner.commitPut (classified "x" "SECRET"))

omit [UnicodeCase] in
theorem secret_hidden : ∃ _ : UnicodeCase, SameView restrictedSubject oneObject oneMoreSecret ∧
    ((oneObject.getByFilterAs restrictedSubject { className := "Wire" }).toOption.map
      fun r => (r.count, r.total)) = some (1, 1) ∧
    ((oneMoreSecret.getByFilterAs restrictedSubject { className := "Wire" }).toOption.map
      fun r => (r.count, r.total)) = some (1, 2) :=
  ⟨asciiCase, @sameView_hidden_put asciiCase _ _ _ (by decide +kernel) (by decide +kernel),
    by decide +kernel, by decide +kernel⟩

omit [UnicodeCase] in
theorem query_same_fixture : ∃ _ : UnicodeCase,
    oneObject.getByFilterAs restrictedSubject { className := "Wire", limit := some 1 } =
      oneMoreSecret.getByFilterAs restrictedSubject { className := "Wire", limit := some 1 } ↔
    Undisturbed restrictedSubject oneObject oneMoreSecret
      { className := "Wire", limit := some 1 } :=
  ⟨asciiCase, @query_same_iff asciiCase restrictedSubject oneObject oneMoreSecret
    (@sameView_hidden_put asciiCase _ _ _ (by decide +kernel) (by decide +kernel))
    { className := "Wire", limit := some 1 }⟩

omit [UnicodeCase] in
/-- The total counts an object the subject may not read. -/
theorem hidden_object_counted :
    ¬ ∀ [UnicodeCase] (subject : SubjectAttributes) (s t : SecuredExchangeBroker),
      SameView subject s t → ∀ request,
        s.getByFilterAs subject request = t.getByFilterAs subject request := by
  intro claim
  obtain ⟨case, view, alone, more⟩ := secret_hidden
  have same := claim restrictedSubject oneObject oneMoreSecret view { className := "Wire" }
  rw [same, more] at alone
  cases alone

end MimTransport
