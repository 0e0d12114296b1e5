import MimStack.Transport.Secured

/-!
Puts over stored objects. A put decides on the label the incoming instance
carries; the label of the instance it replaces is not consulted, though a delete
of the same object would consult it.
-/
namespace MimTransport
open RustText StepRuns MimCore MimModel MimRuntime MimRuntime.InstanceStore MimLabeling MimPolicy
open ExchangeBroker SecuredExchangeBroker

structure Untouched (oid : ObjectIdentifier) (before after : ExchangeBroker) : Prop where
  stored : after.store.get oid = before.store.get oid
  inactive : oid ∈ after.inactive ↔ oid ∈ before.inactive
  journal : after.journal = before.journal

theorem untouched_refl (oid : ObjectIdentifier) (b : ExchangeBroker) : Untouched oid b b :=
  ⟨rfl, Iff.rfl, rfl⟩

theorem commitPut_touches (b : ExchangeBroker) (i : MimInstance) :
    ¬ Untouched i.oid b (b.commitPut i) := by
  intro same
  have grown := congrArg List.length same.journal
  rw [commitPut_journal, List.length_append, List.length_singleton] at grown
  omega

variable [UnicodeCase]

def WriteDenied (s : SecuredExchangeBroker) (subject : SubjectAttributes) (i : MimInstance) :
    Prop :=
  ∃ label e, instanceLabel i = .ok label ∧
    s.pep.enforceAccess subject label .write s.domain = .error e

theorem writeDenied_iff (s : SecuredExchangeBroker) (subject : SubjectAttributes)
    (i : MimInstance) : WriteDenied s subject i ↔
      (instanceLabel i).isOk = true ∧ (s.authorize subject i .write).isOk = false := by
  unfold WriteDenied authorize
  cases labelled : instanceLabel i with
  | error e => simp [Except.isOk, Except.toBool]
  | ok label =>
    cases enforced : s.pep.enforceAccess subject label .write s.domain with
    | error e => simp [enforced, Except.isOk, Except.toBool]
    | ok d => simp [enforced, Except.isOk, Except.toBool]

def Protected (s : SecuredExchangeBroker) (subject : SubjectAttributes)
    (request : PutObjectRequest) : Prop :=
  ∃ i, s.inner.store.get request.inst.oid = some i ∧ WriteDenied s subject i

def Refused (s : SecuredExchangeBroker) (subject : SubjectAttributes)
    (request : PutObjectRequest) : Prop :=
  (∃ e, s.authorize subject request.inst .write = .error e) ∨
    ∃ e, validatePut s.inner.registry request.inst = some (.error e)

def RespectsProtection (s : SecuredExchangeBroker) :
    SecuredStep → SecuredExchangeBroker → Prop
  | .put subject request, after =>
    Protected s subject request → Untouched request.inst.oid s.inner after.inner
  | .delete _ _, _ => True

/-- The put names no protected object, or is refused for what it carries itself. -/
def PutAdmissible (s : SecuredExchangeBroker) : SecuredStep → Prop
  | .put subject request => ¬ Protected s subject request ∨ Refused s subject request
  | .delete _ _ => True

theorem put_respects_iff (s mid : SecuredExchangeBroker) (l : SecuredStep)
    (taken : securedStep s l = some mid) : RespectsProtection s l mid ↔ PutAdmissible s l := by
  cases l with
  | delete subject request => exact Iff.rfl
  | put subject request =>
    obtain ⟨⟨result, after⟩, ran, rfl⟩ := Option.map_eq_some_iff.mp taken
    rcases putObjectAs_cases s subject request result after ran with
      ⟨_, rfl, refused⟩ | ⟨⟨d, permitted⟩, valid, _, rfl⟩
    · exact ⟨fun _ => .inr refused, fun _ _ => untouched_refl _ _⟩
    · constructor
      · intro respects
        by_cases protected' : Protected s subject request
        · exact absurd (respects protected') (commitPut_touches s.inner request.inst)
        · exact .inl protected'
      · rintro (unprotected | ⟨e, refused⟩ | ⟨e, invalid⟩) protected'
        · exact absurd protected' unprotected
        · rw [permitted] at refused
          cases refused
        · rw [valid] at invalid
          cases invalid

/-- Over whole runs: every completed step leaves protected objects alone if and only if every
put of the run names no protected object or is refused for what it carries. -/
theorem run_respects_protection_iff (s : SecuredExchangeBroker) (labels : List SecuredStep) :
    EveryStep securedStep RespectsProtection s labels ↔
      EveryStep securedStep (fun s l _ => PutAdmissible s l) s labels :=
  everyStep_iff securedStep RespectsProtection PutAdmissible
    (fun s l mid taken => put_respects_iff s mid l taken) labels s

omit [UnicodeCase] in
/-- A subject cleared for RESTRICTED replaces a SECRET object it may not write. -/
theorem protected_object_overwritten :
    ¬ ∀ [UnicodeCase] (registry : ModelRegistry) (pep : PolicyEnforcementPoint)
        (own : SubjectAttributes) (domain : SecurityDomain) (labels : List SecuredStep)
        (s : SecuredExchangeBroker),
      run securedStep ⟨.new registry, pep, own, domain⟩ labels = some s →
      ∀ subject request mid, securedStep s (.put subject request) = some mid →
        RespectsProtection s (.put subject request) mid := by
  intro claim
  let _ : UnicodeCase := asciiCase
  have first := securedStep_put_fixture securedFixture secretSubject "a" "SECRET"
    (by decide +kernel) (by decide) rfl
  have second := securedStep_put_fixture
    (securedFixture.withInner (securedFixture.inner.commitPut (classified "a" "SECRET")))
    restrictedSubject "a" "RESTRICTED" (by decide +kernel) (by decide) rfl
  have respected := claim wireRegistry ⟨.presetHighToLow⟩ secretSubject highDomain
    [.put secretSubject ⟨classified "a" "SECRET"⟩] _
    (by rw [run_cons]; exact congrArg (Option.bind · _) first) restrictedSubject
    ⟨classified "a" "RESTRICTED"⟩ _ second
  refine commitPut_touches _ _ (respected ⟨classified "a" "SECRET", ?_, ?_⟩)
  · simp [classified, wireInstance]
  · rw [writeDenied_iff]
    decide +kernel

end MimTransport
