import MimStack.Dcs.Transfer

/-!
What a transfer leaves in the audit logs. Every append a call attempts, on the
transfer's own log or on the one of the guard's enforcement point, is written down
beside the state, with the outcome that nobody may have looked at.
-/
namespace MimDcs
open ByteText Fallible MarkupText MimLabeling MimPolicy MimAudit MimCrypto MimStanag MimZtdf

inductive LogOwner where
  | transfer
  | guard
  deriving DecidableEq

structure Append where
  owner : LogOwner
  record : AuditRecord
  outcome : Except AuditError Unit

variable {σ : Type}

def tracedLog (owner : LogOwner) (audit : AuditLog σ) : AuditLog (σ × List Append) where
  record r s :=
    ((audit.record r s.1).1, (audit.record r s.1).2, s.2 ++ [⟨owner, r, (audit.record r s.1).1⟩])

def CrossDomainGuard.traced (g : CrossDomainGuard σ) : CrossDomainGuard (σ × List Append) where
  source := g.source
  target := g.target
  pep := ⟨g.pep.pep, g.pep.audit.map (tracedLog .guard)⟩
  accredited := g.accredited

theorem recordAudit_over (owner : LogOwner) (audit : AuditLog σ) (record : AuditRecord)
    (failClosed : Bool) : Effect.Over Prod.fst (recordAudit (tracedLog owner audit) record failClosed)
      (recordAudit audit record failClosed) := by
  intro s
  simp only [recordAudit, tracedLog]
  rcases audit.record record s.1 with ⟨e | u, after⟩
  · cases failClosed <;> exact ⟨rfl, rfl⟩
  · exact ⟨rfl, rfl⟩

theorem recordAudit_appends (owner : LogOwner) (audit : AuditLog σ) (record : AuditRecord)
    (failClosed : Bool) (x : σ × List Append) :
    (recordAudit (tracedLog owner audit) record failClosed x).2 =
      ((audit.record record x.1).2, x.2 ++ [⟨owner, record, (audit.record record x.1).1⟩]) := by
  simp only [recordAudit, tracedLog]
  rcases audit.record record x.1 with ⟨e | u, after⟩
  · cases failClosed <;> rfl
  · rfl

theorem recordAudit_traced {owner : LogOwner} {audit : AuditLog σ} {record : AuditRecord}
    {failClosed : Bool} {s : σ} (recorded : Recorded audit record failClosed s) (l : List Append) :
    recordAudit (tracedLog owner audit) record failClosed (s, l) =
      (.ok (), (audit.record record s).2, l ++ [⟨owner, record, (audit.record record s).1⟩]) := by
  have traced : Recorded (tracedLog owner audit) record failClosed (s, l) := recorded
  rw [recordAudit_yields.mpr ⟨traced, rfl⟩]
  rfl

namespace CrossDomainGuard

variable (g : CrossDomainGuard σ)

/-- The log of the enforcement point, where there is one, takes the record of the decision. -/
def NotesDecision (label : ConfidentialityLabel) (s : σ) : Prop :=
  ∀ log decision, g.pep.audit = some log → g.decides label = .ok decision →
    (log.record (AuditedPep.crossDomainRecord (guardSubject label) label g.source g.target
      decision) s).1 = .ok ()

def noteOf (label : ConfidentialityLabel) (decision : PolicyDecision) (s : σ) : List Append :=
  match g.pep.audit with
  | none => []
  | some log =>
    let record := AuditedPep.crossDomainRecord (guardSubject label) label g.source g.target decision
    [⟨.guard, record, (log.record record s).1⟩]

theorem mem_noteOf {label : ConfidentialityLabel} {decision : PolicyDecision} {s : σ} {a : Append} :
    a ∈ g.noteOf label decision s ↔ ∃ log, g.pep.audit = some log ∧
      let record := AuditedPep.crossDomainRecord (guardSubject label) label g.source g.target decision
      a = ⟨.guard, record, (log.record record s).1⟩ := by
  unfold noteOf
  cases g.pep.audit <;> simp

theorem noted_traced (label : ConfidentialityLabel) (decision : PolicyDecision) (s : σ)
    (l : List Append) : g.traced.noted label decision (s, l) =
      (g.noted label decision s, l ++ g.noteOf label decision s) := by
  simp only [noted, AuditedPep.noted, traced, noteOf]
  cases g.pep.audit with
  | none => simp
  | some log => rfl

theorem evaluate_over (label : ConfidentialityLabel) :
    Effect.Over Prod.fst (g.traced.evaluate label) (g.evaluate label) := by
  refine Effect.over_bind (Effect.over_mapError ?_) fun _ => Effect.over_pure _
  refine Effect.over_bind (Effect.over_ofExcept _) fun decision => ?_
  refine Effect.over_bind (Effect.over_modify fun s => ?_) fun _ => Effect.over_pure _
  exact congrArg Prod.fst (g.noted_traced label decision s.1 s.2)

theorem evaluate_traced {label : ConfidentialityLabel} {decision : PolicyDecision}
    (decided : g.decides label = .ok decision) (s : σ) (l : List Append) :
    g.traced.evaluate label (s, l) =
      (.ok (mapDecision decision), g.noted label decision s, l ++ g.noteOf label decision s) := by
  have decided' : g.traced.decides label = .ok decision := decided
  rw [← noted_traced]
  exact evaluate_yields.mpr ⟨decision, decided', rfl, rfl⟩

end CrossDomainGuard

variable [MarkupEscape] (P : CryptoProvider) (z : ZipFormat) (readTime : TimeReader)
  (resolver : DetachedLabelResolver)

namespace CrossDomainTransfer

def appends (t : CrossDomainTransfer) (guard : CrossDomainGuard σ) (audit : AuditLog σ) (s : σ) :
    List Append :=
  (t.execute P z readTime resolver guard.traced (tracedLog .transfer audit) (s, [])).2.2

theorem release_over (t : CrossDomainTransfer) (guard : CrossDomainGuard σ) (audit : AuditLog σ)
    (result : GuardResult) : Effect.Over Prod.fst
      (t.release P z readTime resolver guard.traced (tracedLog .transfer audit) result)
      (t.release P z readTime resolver guard audit result) := by
  unfold release
  cases result.effectiveLabel with
  | none => exact Effect.over_fail _
  | some effective =>
    refine Effect.over_bind (Effect.over_ofExcept _) fun packaged => ?_
    refine Effect.over_bind (recordAudit_over _ _ _ _) fun _ => ?_
    refine Effect.over_bind (Effect.over_ofExcept _) fun manifest => ?_
    exact Effect.over_bind (Effect.over_ofExcept _) fun zip => Effect.over_pure _

theorem conclude_over (t : CrossDomainTransfer) (guard : CrossDomainGuard σ) (audit : AuditLog σ)
    (result : GuardResult) : Effect.Over Prod.fst
      (t.conclude P z readTime resolver guard.traced (tracedLog .transfer audit) result)
      (t.conclude P z readTime resolver guard audit result) := by
  unfold conclude
  cases result.decision with
  | allow => exact release_over P z readTime resolver t guard audit result
  | downgrade => exact release_over P z readTime resolver t guard audit result
  | deny => exact Effect.over_bind (recordAudit_over _ _ _ _) fun _ => Effect.over_pure _

theorem execute_over (t : CrossDomainTransfer) (guard : CrossDomainGuard σ) (audit : AuditLog σ) :
    Effect.Over Prod.fst (t.execute P z readTime resolver guard.traced (tracedLog .transfer audit))
      (t.execute P z readTime resolver guard audit) := by
  unfold execute
  refine Effect.over_bind (Effect.over_ofExcept _) fun _ => ?_
  split
  · exact Effect.over_bind (recordAudit_over _ _ _ _) fun _ => Effect.over_fail _
  · refine Effect.over_bind (Effect.over_ofExcept _) fun _ => ?_
    refine Effect.over_bind (recordAudit_over _ _ _ _) fun _ => ?_
    exact Effect.over_bind (guard.evaluate_over t.label) fun result =>
      conclude_over P z readTime resolver t guard audit result

/-- A release happens only if no append of the call failed. -/
def FailsClosed (t : CrossDomainTransfer) (guard : CrossDomainGuard σ) (audit : AuditLog σ) (s : σ) :
    Prop :=
  t.Released P z readTime resolver guard audit s →
    ∀ a ∈ t.appends P z readTime resolver guard audit s, a.outcome = .ok ()

variable {P z readTime resolver}

theorem released_appends {t : CrossDomainTransfer} {guard : CrossDomainGuard σ} {audit : AuditLog σ}
    {s : σ} (released : t.Released P z readTime resolver guard audit s) :
    ∃ decision effective, guard.decides t.label = .ok decision ∧
      let before := (audit.record (t.evaluateRecord P) s).2
      let release := t.releaseRecord P (mapDecision decision) effective
      let after := guard.noted t.label decision before
      Recorded audit (t.evaluateRecord P) guard.accredited s ∧
      Recorded audit release guard.accredited after ∧
      t.appends P z readTime resolver guard audit s =
        ⟨.transfer, t.evaluateRecord P, (audit.record (t.evaluateRecord P) s).1⟩ ::
          guard.noteOf t.label decision before ++
            [⟨.transfer, release, (audit.record release after).1⟩] := by
  obtain ⟨labelXml, payload, manifest, zip, s', yields⟩ := released
  obtain ⟨same, _⟩ := execute_over P z readTime resolver t guard audit (s, [])
  rw [yields] at same
  have traced : (t.execute P z readTime resolver guard.traced (tracedLog .transfer audit)).Yields
      (s, []) (.released labelXml payload manifest zip)
      (t.execute P z readTime resolver guard.traced (tracedLog .transfer audit) (s, [])).2 :=
    Prod.ext same rfl
  obtain ⟨decision, effective, _, _, _, admits, _, _, _, after⟩ := execute_yields_released.mp traced
  have evaluated : Recorded audit (t.evaluateRecord P) guard.accredited s := admits.evaluated
  have recorded := admits.recorded
  have first : ((tracedLog .transfer audit).record (t.evaluateRecord P) (s, [])).2 =
      ((audit.record (t.evaluateRecord P) s).2,
        [⟨.transfer, t.evaluateRecord P, (audit.record (t.evaluateRecord P) s).1⟩]) := rfl
  rw [first, CrossDomainGuard.noted_traced] at after recorded
  refine ⟨decision, effective, admits.decided, evaluated, recorded, ?_⟩
  rw [appends, after]
  rfl

theorem fails_closed_iff (t : CrossDomainTransfer) (guard : CrossDomainGuard σ) (audit : AuditLog σ)
    (s : σ) (accredited : guard.accredited = true) :
    t.FailsClosed P z readTime resolver guard audit s ↔
      (t.Admitted P z readTime resolver guard audit s →
        guard.NotesDecision t.label (audit.record (t.evaluateRecord P) s).2) := by
  constructor
  · intro closed admitted log decision configured decided
    have released := (execute_released_iff t guard audit s).mpr admitted
    obtain ⟨found, effective, decided', _, _, listed⟩ := released_appends released
    obtain rfl := Except.ok.inj (decided.symm.trans decided')
    have noted := closed released
    rw [listed] at noted
    exact noted _ (List.mem_cons_of_mem _ (List.mem_append_left _
      (guard.mem_noteOf.mpr ⟨log, configured, rfl⟩)))
  · intro notes released a member
    have admitted := (execute_released_iff t guard audit s).mp released
    obtain ⟨decision, effective, decided, evaluated, recorded, listed⟩ := released_appends released
    rw [listed] at member
    simp only [List.cons_append, List.mem_cons, List.mem_append, List.not_mem_nil, or_false] at member
    rcases member with rfl | noted | rfl
    · exact evaluated accredited
    · obtain ⟨log, configured, rfl⟩ := guard.mem_noteOf.mp noted
      exact notes admitted log decision configured decided
    · exact recorded accredited

inductive Refusal where
  | bindingMethod
  | bindingVerification
  | guardError
  | guardDeny

variable (P resolver) in
def Verifies (t : CrossDomainTransfer) : Prop :=
  t.inboundBinding.verify P t.payloadBytes (some t.nmbVerifyingKey) resolver = .ok ()

variable (P resolver) in
/-- The first check the call does not pass. -/
def RefusedFor (t : CrossDomainTransfer) (guard : CrossDomainGuard σ) (reason : Refusal) : Prop :=
  validateDomainPair t.sourceDomain t.targetDomain = .ok () ∧
    match reason with
    | .bindingMethod => t.inboundBinding.binding.method ≠ .assertion
    | .bindingVerification => t.inboundBinding.binding.method = .assertion ∧ ¬ t.Verifies P resolver
    | .guardError => t.inboundBinding.binding.method = .assertion ∧ t.Verifies P resolver ∧
        ∃ e, guard.decides t.label = .error e
    | .guardDeny => t.inboundBinding.binding.method = .assertion ∧ t.Verifies P resolver ∧
        ∃ decision, guard.decides t.label = .ok decision ∧ decision.effect = .deny

variable (P z readTime resolver) in
/-- A record of the transfer as refused has gone into the transfer's log. -/
def RefusalRecorded (t : CrossDomainTransfer) (guard : CrossDomainGuard σ) (audit : AuditLog σ)
    (s : σ) : Prop :=
  ∃ a ∈ t.appends P z readTime resolver guard audit s, a.owner = .transfer ∧ a.outcome = .ok () ∧
    a.record.decision = "deny" ∧ a.record.originalLabel = t.label ∧
    a.record.sourceDomain = some t.sourceDomain ∧ a.record.targetDomain = some t.targetDomain

section Refused

variable {t : CrossDomainTransfer} {guard : CrossDomainGuard σ} {audit : AuditLog σ}

theorem refused_not_released {reason : Refusal} (refused : t.RefusedFor P resolver guard reason)
    (s : σ) : ¬ t.Released P z readTime resolver guard audit s := by
  intro released
  obtain ⟨decision, effective, ztdf, admits⟩ := (execute_released_iff t guard audit s).mp released
  obtain ⟨_, refused⟩ := refused
  cases reason with
  | bindingMethod => exact refused admits.method
  | bindingVerification =>
    exact refused.2 ((BindingDataObject.verify_ok_iff admits.method _ _ _).mpr admits.binding)
  | guardError =>
    obtain ⟨_, _, e, failed⟩ := refused
    cases admits.decided.symm.trans failed
  | guardDeny =>
    obtain ⟨_, _, other, decided, deny⟩ := refused
    obtain rfl := Except.ok.inj (admits.decided.symm.trans decided)
    exact admits.approved deny

theorem appends_bindingMethod (refused : t.RefusedFor P resolver guard .bindingMethod) (s : σ) :
    t.appends P z readTime resolver guard audit s =
      [⟨.transfer, t.rejectRecord P, (audit.record (t.rejectRecord P) s).1⟩] := by
  obtain ⟨domains, method⟩ := refused
  have listed : (recordAudit (tracedLog .transfer audit) (t.rejectRecord P) guard.traced.accredited
      (s, [])).2 = (_, [_]) := recordAudit_appends _ _ _ _ _
  rw [appends, execute, Effect.bind_of_ok (Effect.ofExcept_run domains _), if_pos method]
  rcases ok_or_error (recordAudit (tracedLog .transfer audit) (t.rejectRecord P)
    guard.traced.accredited (s, [])).1 with goes | ⟨e, stops⟩
  · rw [Effect.bind_of_ok (Prod.ext goes listed)]
    rfl
  · rw [Effect.bind_of_error (Prod.ext stops listed)]

theorem appends_bindingVerification
    (refused : t.RefusedFor P resolver guard .bindingVerification) (s : σ) :
    t.appends P z readTime resolver guard audit s = [] := by
  obtain ⟨domains, method, unverified⟩ := refused
  rcases ok_or_error (t.inboundBinding.verify P t.payloadBytes (some t.nmbVerifyingKey) resolver)
    with verified | ⟨e, failed⟩
  · exact absurd verified unverified
  · rw [appends, execute, Effect.bind_of_ok (Effect.ofExcept_run domains _), if_neg (not_not.mpr method),
      Effect.bind_of_error (Effect.ofExcept_run failed _)]

theorem execute_evaluates (domains : validateDomainPair t.sourceDomain t.targetDomain = .ok ())
    (method : t.inboundBinding.binding.method = .assertion) (verified : t.Verifies P resolver)
    (s : σ) : t.execute P z readTime resolver guard.traced (tracedLog .transfer audit) (s, []) =
      (recordAudit (tracedLog .transfer audit) (t.evaluateRecord P) guard.traced.accredited >>=
        fun _ => guard.traced.evaluate t.label >>= fun result =>
          t.conclude P z readTime resolver guard.traced (tracedLog .transfer audit) result)
        (s, []) := by
  rw [execute, Effect.bind_of_ok (Effect.ofExcept_run domains _), if_neg (not_not.mpr method),
    Effect.bind_of_ok (Effect.ofExcept_run verified _)]

variable (P t audit) in
def evaluating (s : σ) : Append :=
  ⟨.transfer, t.evaluateRecord P, (audit.record (t.evaluateRecord P) s).1⟩

theorem execute_recorded (domains : validateDomainPair t.sourceDomain t.targetDomain = .ok ())
    (method : t.inboundBinding.binding.method = .assertion) (verified : t.Verifies P resolver)
    {s : σ} (recorded : Recorded audit (t.evaluateRecord P) guard.accredited s) :
    t.execute P z readTime resolver guard.traced (tracedLog .transfer audit) (s, []) =
      (guard.traced.evaluate t.label >>= fun result =>
        t.conclude P z readTime resolver guard.traced (tracedLog .transfer audit) result)
        ((audit.record (t.evaluateRecord P) s).2, [t.evaluating P audit s]) := by
  have passes : recordAudit (tracedLog .transfer audit) (t.evaluateRecord P) guard.traced.accredited
      (s, []) = (.ok (), _) := recordAudit_traced recorded []
  rw [execute_evaluates domains method verified, Effect.bind_of_ok passes]
  rfl

theorem appends_guardError (refused : t.RefusedFor P resolver guard .guardError) {s : σ}
    (recorded : Recorded audit (t.evaluateRecord P) guard.accredited s) :
    t.appends P z readTime resolver guard audit s = [t.evaluating P audit s] := by
  obtain ⟨domains, method, verified, e, failed⟩ := refused
  have failed' : guard.traced.decides t.label = .error e := failed
  rw [appends, execute_recorded domains method verified recorded,
    Effect.bind_of_error (CrossDomainGuard.evaluate_error failed' _)]

theorem appends_guardDeny (working : audit.Working)
    (refused : t.RefusedFor P resolver guard .guardDeny) (s : σ) :
    ∃ earlier result, t.appends P z readTime resolver guard audit s =
      earlier ++ [⟨.transfer, t.denyRecord result, .ok ()⟩] := by
  obtain ⟨domains, method, verified, decision, decided, deny⟩ := refused
  let before := (audit.record (t.evaluateRecord P) s).2
  refine ⟨t.evaluating P audit s :: guard.noteOf t.label decision before, mapDecision decision, ?_⟩
  have recorded := working.recorded (t.evaluateRecord P) guard.accredited s
  have denies : t.conclude P z readTime resolver guard.traced (tracedLog .transfer audit)
      (mapDecision decision) = (recordAudit (tracedLog .transfer audit)
        (t.denyRecord (mapDecision decision)) guard.accredited >>= fun _ =>
          pure (.denied (mapDecision decision).reason)) := by
    rw [conclude, (mapDecision_deny decision).mpr deny]
    rfl
  rw [appends, execute_recorded domains method verified recorded,
    Effect.bind_of_ok (guard.evaluate_traced decided _ _), denies,
    Effect.bind_of_ok (recordAudit_traced (working.recorded _ _ _) _), working]
  rfl

/-- Which refused calls leave a record of it. -/
theorem refusals_recorded_iff (t : CrossDomainTransfer) (guard : CrossDomainGuard σ)
    (audit : AuditLog σ) (s : σ) (working : audit.Working) :
    (∀ reason, t.RefusedFor P resolver guard reason →
        t.RefusalRecorded P z readTime resolver guard audit s) ↔
      (validateDomainPair t.sourceDomain t.targetDomain = .ok () →
        t.inboundBinding.binding.method = .assertion →
        t.Verifies P resolver ∧ ∃ decision, guard.decides t.label = .ok decision) := by
  constructor
  · intro recorded domains method
    have verified : t.Verifies P resolver := by
      by_contra unverified
      obtain ⟨a, member, _⟩ := recorded .bindingVerification ⟨domains, method, unverified⟩
      rw [appends_bindingVerification ⟨domains, method, unverified⟩] at member
      cases member
    refine ⟨verified, ?_⟩
    cases decided : guard.decides t.label with
    | ok decision => exact ⟨decision, rfl⟩
    | error e =>
      have refused : t.RefusedFor P resolver guard .guardError :=
        ⟨domains, method, verified, e, decided⟩
      obtain ⟨a, member, _, _, denied, _⟩ := recorded .guardError refused
      rw [appends_guardError refused (working.recorded _ _ _), List.mem_singleton] at member
      rw [member] at denied
      exact absurd denied (by simp [evaluating, evaluateRecord])
  · intro decides reason refused
    cases reason with
    | bindingMethod =>
      refine ⟨⟨.transfer, t.rejectRecord P, (audit.record (t.rejectRecord P) s).1⟩, ?_, rfl,
        working _ _, rfl, rfl, rfl, rfl⟩
      rw [appends_bindingMethod refused]
      exact List.mem_singleton_self _
    | bindingVerification =>
      obtain ⟨domains, method, unverified⟩ := refused
      exact absurd (decides domains method).1 unverified
    | guardError =>
      obtain ⟨domains, method, _, e, failed⟩ := refused
      obtain ⟨decision, decided⟩ := (decides domains method).2
      cases decided.symm.trans failed
    | guardDeny =>
      obtain ⟨earlier, result, listed⟩ :
          ∃ earlier result, t.appends P z readTime resolver guard audit s =
            earlier ++ [⟨.transfer, t.denyRecord result, .ok ()⟩] :=
        appends_guardDeny working refused s
      refine ⟨⟨.transfer, t.denyRecord result, .ok ()⟩, ?_, rfl, rfl, rfl, rfl, rfl, rfl⟩
      rw [listed]
      exact List.mem_concat_self

end Refused

def collecting : AuditLog (List AuditRecord) := ⟨fun r s => (.ok (), s ++ [r])⟩

omit [MarkupEscape] in
theorem collecting_working : collecting.Working := fun _ _ => rfl

def fullDisk (σ : Type) : AuditLog σ :=
  ⟨fun _ s => (.error (.io "No space left on device (os error 28)"), s)⟩

def unreadTime : TimeReader := fun s => .error s

def unresolved : DetachedLabelResolver := fun uri => .error (.parse uri)

omit [MarkupEscape] in
/-- The decision of an accredited guard could not be recorded, and the payload is released. -/
theorem unrecorded_decision_released : letI := entityEscape
    ∃ b, BindingDataObject.assertionBound echoProvider releasedSecret (utf8 "m") ⟨"nmb", [3]⟩ = .ok b ∧
      let guard := loggedGuard (some (fullDisk (List AuditRecord))) true
      guard.accredited = true ∧
      (fromHigh releasedSecret "m" b).Released echoProvider emptyZip unreadTime unresolved guard
        collecting [] ∧
      ¬ (fromHigh releasedSecret "m" b).FailsClosed echoProvider emptyZip unreadTime unresolved guard
        collecting [] := by
  let : MarkupEscape := entityEscape
  obtain ⟨b, bound, _, _, releases⟩ := fromHigh_released (List AuditRecord)
  refine ⟨b, bound, ?_⟩
  intro guard
  have released : (fromHigh releasedSecret "m" b).Released echoProvider emptyZip unreadTime
      unresolved guard collecting [] :=
    releases releasedSecret (by simp) _ true collecting _ _
      (fun record s => collecting_working.recorded record true s) []
  refine ⟨rfl, released, fun closed => ?_⟩
  obtain ⟨decision, effective, _, _, _, listed⟩ := released_appends released
  have all := closed released
  rw [listed] at all
  have noted := all _ (List.mem_cons_of_mem _ (List.mem_append_left _
    (guard.mem_noteOf.mpr ⟨fullDisk _, rfl, rfl⟩)))
  cases noted

omit [MarkupEscape] in
theorem fails_closed_fixture : letI := entityEscape
    ∃ b, BindingDataObject.assertionBound echoProvider releasedSecret (utf8 "m") ⟨"nmb", [3]⟩ = .ok b ∧
      let guard : CrossDomainGuard (List AuditRecord) := loggedGuard none true
      (fromHigh releasedSecret "m" b).Released echoProvider emptyZip unreadTime unresolved guard
        collecting [] ∧
      (fromHigh releasedSecret "m" b).FailsClosed echoProvider emptyZip unreadTime unresolved guard
        collecting [] := by
  let : MarkupEscape := entityEscape
  obtain ⟨b, bound, _, _, releases⟩ := fromHigh_released (List AuditRecord)
  refine ⟨b, bound, ?_⟩
  intro guard
  have released : (fromHigh releasedSecret "m" b).Released echoProvider emptyZip unreadTime
      unresolved guard collecting [] :=
    releases releasedSecret (by simp) _ true collecting _ _
      (fun record s => collecting_working.recorded record true s) []
  refine ⟨released, (fails_closed_iff _ guard collecting [] rfl).mpr fun _ => ?_⟩
  intro log decision configured
  cases configured

omit [MarkupEscape] in
/-- A payload other than the one bound is refused, and no log says so. -/
theorem tampered_payload_unrecorded : letI := entityEscape
    ∃ b, BindingDataObject.assertionBound echoProvider releasedSecret (utf8 "m") ⟨"nmb", [3]⟩ = .ok b ∧
      let t := fromHigh releasedSecret "n" b
      let guard := highToLow (List AuditRecord)
      collecting.Working ∧ t.RefusedFor echoProvider unresolved guard .bindingVerification ∧
        ¬ t.Released echoProvider emptyZip unreadTime unresolved guard collecting [] ∧
        ¬ t.RefusalRecorded echoProvider emptyZip unreadTime unresolved guard collecting [] := by
  let : MarkupEscape := entityEscape
  obtain ⟨b, bound, _, digest, _⟩ := fromHigh_released Unit
  obtain ⟨a, _, same⟩ := (BindingDataObject.assertionBound_ok_iff _ _ _ _).mp bound
  have method : b.binding.method = .assertion := by
    rw [same]
    rfl
  refine ⟨b, bound, ?_⟩
  intro t guard
  have other : echoProvider.sha256Base64 (utf8 "m") ≠ echoProvider.sha256Base64 (utf8 "n") := by
    decide +kernel
  have refused : t.RefusedFor echoProvider unresolved guard .bindingVerification := by
    refine ⟨highToLow_pair, method, fun verified => ?_⟩
    have accepted := (BindingDataObject.verify_ok_iff method _ _ _).mp verified
    exact other (digest.symm.trans accepted.digest)
  refine ⟨collecting_working, refused, refused_not_released refused [], ?_⟩
  rintro ⟨a, member, _⟩
  rw [appends_bindingVerification refused] at member
  cases member

omit [MarkupEscape] in
theorem refusals_recorded_fixture : letI := entityEscape
    let label := ConfidentialityLabel.new .nato .unclassified
    let t := fromHigh label "m"
      ⟨⟨.embedded, .xmlEmbedded, "header", none⟩, label, "", "", none⟩
    let guard := highToLow (List AuditRecord)
    t.RefusedFor echoProvider unresolved guard .bindingMethod ∧
      t.RefusalRecorded echoProvider emptyZip unreadTime unresolved guard collecting [] := by
  let : MarkupEscape := entityEscape
  intro label t guard
  have refused : t.RefusedFor echoProvider unresolved guard .bindingMethod :=
    ⟨highToLow_pair, by decide⟩
  refine ⟨refused, (refusals_recorded_iff t guard collecting [] collecting_working).mpr ?_ _ refused⟩
  intro _ method
  exact absurd method refused.2

end CrossDomainTransfer

end MimDcs
