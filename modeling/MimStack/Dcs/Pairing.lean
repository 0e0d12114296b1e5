import MimStack.Dcs.Records

/-!
Two pairs of domains. A transfer names one, which its records repeat, and its guard has
one, on which the decision is made.
-/
namespace MimDcs
open ByteText Fallible MarkupText MimLabeling MimPolicy MimAudit MimCrypto MimStanag MimZtdf

variable {σ : Type}

def Append.Names (a : Append) (source target : DomainId) : Prop :=
  a.record.sourceDomain = some source ∧ a.record.targetDomain = some target

def Append.NotesEvaluation (a : Append) : Prop :=
  a.outcome = .ok () ∧ a.record.eventKind = .crossDomainEvaluate

theorem recordAudit_keeps {I : List Append → Prop} {owner : LogOwner} {audit : AuditLog σ}
    {record : AuditRecord} {failClosed : Bool}
    (holds : ∀ l outcome, I l → I (l ++ [⟨owner, record, outcome⟩])) :
    Effect.Keeps (fun x : σ × List Append => I x.2)
      (recordAudit (tracedLog owner audit) record failClosed) := by
  intro x before
  rw [recordAudit_appends]
  exact holds x.2 _ before

theorem CrossDomainGuard.evaluate_keeps {I : List Append → Prop} (g : CrossDomainGuard σ)
    (label : ConfidentialityLabel) (holds : ∀ l decision s, I l → I (l ++ g.noteOf label decision s)) :
    Effect.Keeps (fun x : σ × List Append => I x.2) (g.traced.evaluate label) := by
  refine Effect.keeps_bind (Effect.keeps_mapError ?_) fun _ => Effect.keeps_pure _
  refine Effect.keeps_bind (Effect.keeps_ofExcept _) fun decision => ?_
  refine Effect.keeps_bind (Effect.keeps_modify fun x before => ?_) fun _ => Effect.keeps_pure _
  have noted := g.noted_traced label decision x.1 x.2
  simp only [CrossDomainGuard.noted] at noted
  rw [noted]
  exact holds x.2 decision x.1 before

variable [MarkupEscape] (P : CryptoProvider) (z : ZipFormat) (readTime : TimeReader)
  (resolver : DetachedLabelResolver)

namespace CrossDomainTransfer

/-- What a call passes before it records that it evaluates. -/
structure ComesToEvaluation (t : CrossDomainTransfer) : Prop where
  domains : validateDomainPair t.sourceDomain t.targetDomain = .ok ()
  method : t.inboundBinding.binding.method = .assertion
  verified : t.Verifies P resolver

/-- A log takes a record of the evaluation: the transfer's own, or else, where that stops nothing,
the one of the guard's enforcement point. -/
def Noted (t : CrossDomainTransfer) (guard : CrossDomainGuard σ) (audit : AuditLog σ) (s : σ) : Prop :=
  (audit.record (t.evaluateRecord P) s).1 = .ok () ∨
    guard.accredited = false ∧ ∃ decision, guard.decides t.label = .ok decision ∧
      ∃ a ∈ guard.noteOf t.label decision (audit.record (t.evaluateRecord P) s).2, a.outcome = .ok ()

/-- A call that releases, or that has its evaluation on record, evaluates the domains of the
transfer, and every record names these. -/
def SpeaksOfOnePair (t : CrossDomainTransfer) (guard : CrossDomainGuard σ) (audit : AuditLog σ)
    (s : σ) : Prop :=
  (t.Released P z readTime resolver guard audit s ∨
      ∃ a ∈ t.appends P z readTime resolver guard audit s, a.NotesEvaluation) →
    (guard.source.id = t.sourceDomain ∧ guard.target.id = t.targetDomain) ∧
      ∀ a ∈ t.appends P z readTime resolver guard audit s, a.Names t.sourceDomain t.targetDomain

theorem conclude_keeps {I : List Append → Prop} (t : CrossDomainTransfer)
    (guard : CrossDomainGuard σ) (audit : AuditLog σ) (result : GuardResult)
    (released : ∀ l effective outcome, I l →
      I (l ++ [⟨.transfer, t.releaseRecord P result effective, outcome⟩]))
    (denied : ∀ l outcome, I l → I (l ++ [⟨.transfer, t.denyRecord result, outcome⟩])) :
    Effect.Keeps (fun x : σ × List Append => I x.2)
      (t.conclude P z readTime resolver guard.traced (tracedLog .transfer audit) result) := by
  have releases : Effect.Keeps (fun x : σ × List Append => I x.2)
      (t.release P z readTime resolver guard.traced (tracedLog .transfer audit) result) := by
    unfold release
    cases result.effectiveLabel with
    | none => exact Effect.keeps_fail _
    | some effective =>
      refine Effect.keeps_bind (Effect.keeps_ofExcept _) fun packaged => ?_
      refine Effect.keeps_bind (recordAudit_keeps fun l => released l effective) fun _ => ?_
      refine Effect.keeps_bind (Effect.keeps_ofExcept _) fun manifest => ?_
      exact Effect.keeps_bind (Effect.keeps_ofExcept _) fun zip => Effect.keeps_pure _
  unfold conclude
  cases result.decision with
  | allow => exact releases
  | downgrade => exact releases
  | deny => exact Effect.keeps_bind (recordAudit_keeps denied) fun _ => Effect.keeps_pure _

theorem conclude_appends (t : CrossDomainTransfer) (guard : CrossDomainGuard σ)
    (audit : AuditLog σ) (result : GuardResult) (x : σ × List Append) :
    ∃ last, (t.conclude P z readTime resolver guard.traced (tracedLog .transfer audit) result x).2.2 =
        x.2 ++ last ∧ ∀ a ∈ last, a.record.eventKind = .crossDomainTransfer := by
  let Follows (l : List Append) :=
    ∃ last, l = x.2 ++ last ∧ ∀ a ∈ last, a.record.eventKind = .crossDomainTransfer
  have grows : ∀ (l : List Append) (a : Append), a.record.eventKind = .crossDomainTransfer →
      Follows l → Follows (l ++ [a]) := by
    intro l a kind earlier
    obtain ⟨last, rfl, kinds⟩ := earlier
    exact ⟨last ++ [a], List.append_assoc _ _ _,
      List.forall_mem_append.mpr ⟨kinds, List.forall_mem_singleton.mpr kind⟩⟩
  have kept : Effect.Keeps (fun y : σ × List Append => Follows y.2)
      (t.conclude P z readTime resolver guard.traced (tracedLog .transfer audit) result) :=
    conclude_keeps P z readTime resolver t guard audit result (fun l effective outcome => grows l _ rfl)
      (fun l outcome => grows l _ rfl)
  exact kept x ⟨[], (List.append_nil _).symm, fun a member => absurd member List.not_mem_nil⟩

variable {P z readTime resolver}

theorem appends_names (t : CrossDomainTransfer) (guard : CrossDomainGuard σ) (audit : AuditLog σ)
    (s : σ) : ∀ a ∈ t.appends P z readTime resolver guard audit s,
      a.Names t.sourceDomain t.targetDomain ∨ a.Names guard.source.id guard.target.id := by
  let named (a : Append) := a.Names t.sourceDomain t.targetDomain ∨
    a.Names guard.source.id guard.target.id
  have grows : ∀ (l : List Append) (a : Append), named a → (∀ b ∈ l, named b) →
      ∀ b ∈ l ++ [a], named b := by
    intro l a holds before
    exact List.forall_mem_append.mpr ⟨before, List.forall_mem_singleton.mpr holds⟩
  have kept : Effect.Keeps (fun x : σ × List Append => ∀ a ∈ x.2, named a)
      (t.execute P z readTime resolver guard.traced (tracedLog .transfer audit)) := by
    unfold execute
    refine Effect.keeps_bind (Effect.keeps_ofExcept _) fun _ => ?_
    split
    · refine Effect.keeps_bind ?_ fun _ => Effect.keeps_fail _
      exact recordAudit_keeps fun l outcome => grows l _ (.inl ⟨rfl, rfl⟩)
    · refine Effect.keeps_bind (Effect.keeps_ofExcept _) fun _ => ?_
      refine Effect.keeps_bind ?_ fun _ => Effect.keeps_bind ?_ fun result => ?_
      · exact recordAudit_keeps fun l outcome => grows l _ (.inl ⟨rfl, rfl⟩)
      · apply guard.evaluate_keeps (I := fun l => ∀ a ∈ l, named a) t.label
        intro l decision s before
        refine List.forall_mem_append.mpr ⟨before, fun a noted => ?_⟩
        obtain ⟨log, _, rfl⟩ := guard.mem_noteOf.mp noted
        exact .inr ⟨rfl, rfl⟩
      · exact conclude_keeps P z readTime resolver t guard audit result
          (fun l effective outcome => grows l _ (.inl ⟨rfl, rfl⟩))
          (fun l outcome => grows l _ (.inl ⟨rfl, rfl⟩))
  exact kept (s, []) fun a member => absurd member List.not_mem_nil

section Evaluation

variable {t : CrossDomainTransfer} {guard : CrossDomainGuard σ} {audit : AuditLog σ} {s : σ}

theorem appends_unrecorded (comes : t.ComesToEvaluation P resolver)
    (lost : ¬ Recorded audit (t.evaluateRecord P) guard.accredited s) :
    t.appends P z readTime resolver guard audit s = [t.evaluating P audit s] := by
  have listed : (recordAudit (tracedLog .transfer audit) (t.evaluateRecord P)
      guard.traced.accredited (s, [])).2 =
        ((audit.record (t.evaluateRecord P) s).2, [t.evaluating P audit s]) :=
    recordAudit_appends _ _ _ _ _
  rw [appends, execute_evaluates comes.domains comes.method comes.verified]
  rcases ok_or_error (recordAudit (tracedLog .transfer audit) (t.evaluateRecord P)
    guard.traced.accredited (s, [])).1 with goes | ⟨e, stops⟩
  · have yields : (recordAudit (tracedLog .transfer audit) (t.evaluateRecord P)
        guard.traced.accredited).Yields (s, []) () _ := Prod.ext goes rfl
    exact absurd (recordAudit_yields.mp yields).1 lost
  · rw [Effect.bind_of_error (Prod.ext stops listed)]

variable (z readTime) in
theorem appends_decided (comes : t.ComesToEvaluation P resolver)
    (recorded : Recorded audit (t.evaluateRecord P) guard.accredited s)
    {decision : PolicyDecision} (decided : guard.decides t.label = .ok decision) :
    ∃ last, t.appends P z readTime resolver guard audit s = t.evaluating P audit s ::
        guard.noteOf t.label decision (audit.record (t.evaluateRecord P) s).2 ++ last ∧
      ∀ a ∈ last, a.record.eventKind = .crossDomainTransfer := by
  let before := (audit.record (t.evaluateRecord P) s).2
  let noted := guard.noteOf t.label decision before
  obtain ⟨last, same, kinds⟩ := conclude_appends P z readTime resolver t guard audit
    (mapDecision decision) (guard.noted t.label decision before, t.evaluating P audit s :: noted)
  refine ⟨last, ?_, kinds⟩
  rw [appends, execute_recorded comes.domains comes.method comes.verified recorded,
    Effect.bind_of_ok (guard.evaluate_traced decided _ _)]
  exact same

omit [MarkupEscape] in
theorem evaluating_notes : (∃ a ∈ [t.evaluating P audit s], a.NotesEvaluation) ↔
    (audit.record (t.evaluateRecord P) s).1 = .ok () := by
  simp [Append.NotesEvaluation, evaluating, evaluateRecord]

theorem notes_iff_noted (comes : t.ComesToEvaluation P resolver) :
    (∃ a ∈ t.appends P z readTime resolver guard audit s, a.NotesEvaluation) ↔
      t.Noted P guard audit s := by
  by_cases recorded : Recorded audit (t.evaluateRecord P) guard.accredited s
  · cases decided : guard.decides t.label with
    | error e =>
      have refused : t.RefusedFor P resolver guard .guardError :=
        ⟨comes.domains, comes.method, comes.verified, e, decided⟩
      rw [appends_guardError refused recorded, evaluating_notes]
      constructor
      · intro taken
        exact .inl taken
      · intro noted
        rcases noted with taken | ⟨_, decision, decided', _⟩
        · exact taken
        · cases decided.symm.trans decided'
    | ok decision =>
      obtain ⟨last, listed, kinds⟩ := appends_decided z readTime comes recorded decided
      rw [listed]
      constructor
      · intro noted
        obtain ⟨a, member, taken, kind⟩ := noted
        simp only [List.cons_append, List.mem_cons, List.mem_append] at member
        rcases member with rfl | note | after
        · exact .inl taken
        · cases strict : guard.accredited with
          | true => exact .inl (recorded strict)
          | false => exact .inr ⟨strict, decision, decided, a, note, taken⟩
        · exact absurd (kind.symm.trans (kinds a after)) (by decide)
      · intro noted
        rcases noted with taken | ⟨_, decision', decided', a, note, taken⟩
        · exact ⟨_, List.mem_cons_self, taken, rfl⟩
        · obtain rfl := Except.ok.inj (decided.symm.trans decided')
          obtain ⟨log, _, same⟩ := guard.mem_noteOf.mp note
          exact ⟨a, List.mem_cons_of_mem _ (List.mem_append_left _ note), taken, same ▸ rfl⟩
  · rw [appends_unrecorded comes recorded, evaluating_notes]
    constructor
    · intro taken
      exact .inl taken
    · intro noted
      rcases noted with taken | ⟨lenient, _⟩
      · exact taken
      · exact absurd (fun strict => absurd (strict.symm.trans lenient) (by decide)) recorded

end Evaluation

theorem refused_appends {t : CrossDomainTransfer} (refused : ¬ t.ComesToEvaluation P resolver)
    (guard : CrossDomainGuard σ) (audit : AuditLog σ) (s : σ) :
    ∀ a ∈ t.appends P z readTime resolver guard audit s,
      a.record.eventKind ≠ .crossDomainEvaluate := by
  intro a member
  rcases ok_or_error (validateDomainPair t.sourceDomain t.targetDomain) with domains | ⟨e, unpaired⟩
  · by_cases method : t.inboundBinding.binding.method = .assertion
    · have unverified : ¬ t.Verifies P resolver :=
        fun verified => refused ⟨domains, method, verified⟩
      rw [appends_bindingVerification ⟨domains, method, unverified⟩] at member
      cases member
    · have rejected : t.RefusedFor P resolver guard .bindingMethod := ⟨domains, method⟩
      rw [appends_bindingMethod rejected] at member
      rw [List.mem_singleton.mp member]
      simp [rejectRecord]
  · rw [appends, execute, Effect.bind_of_error (Effect.ofExcept_run unpaired _)] at member
    cases member

theorem notesEvaluation_iff (t : CrossDomainTransfer) (guard : CrossDomainGuard σ)
    (audit : AuditLog σ) (s : σ) :
    (∃ a ∈ t.appends P z readTime resolver guard audit s, a.NotesEvaluation) ↔
      t.ComesToEvaluation P resolver ∧ t.Noted P guard audit s := by
  by_cases comes : t.ComesToEvaluation P resolver
  · rw [notes_iff_noted comes, and_iff_right comes]
  · constructor
    · intro noted
      obtain ⟨a, member, _, kind⟩ := noted
      exact absurd kind (refused_appends comes guard audit s a member)
    · intro noted
      exact absurd noted.1 comes

theorem one_pair_iff (t : CrossDomainTransfer) (guard : CrossDomainGuard σ) (audit : AuditLog σ)
    (s : σ) : t.SpeaksOfOnePair P z readTime resolver guard audit s ↔
      (guard.source.id = t.sourceDomain ∧ guard.target.id = t.targetDomain) ∨
        ¬ t.ComesToEvaluation P resolver ∨
          ¬ t.Noted P guard audit s ∧ ¬ t.Admitted P z readTime resolver guard audit s := by
  unfold SpeaksOfOnePair
  rw [execute_released_iff, notesEvaluation_iff]
  constructor
  · intro speaks
    by_cases comes : t.ComesToEvaluation P resolver
    · by_cases silent : ¬ t.Noted P guard audit s ∧ ¬ t.Admitted P z readTime resolver guard audit s
      · exact .inr (.inr silent)
      · refine .inl (speaks ?_).1
        by_cases noted : t.Noted P guard audit s
        · exact .inr ⟨comes, noted⟩
        · exact .inl (not_not.mp fun withheld => silent ⟨noted, withheld⟩)
    · exact .inr (.inl comes)
  · intro condition speaks
    rcases condition with ⟨source, target⟩ | refused | ⟨unnoted, withheld⟩
    · refine ⟨⟨source, target⟩, fun a member => ?_⟩
      rcases appends_names t guard audit s a member with own | guards
      · exact own
      · rw [source, target] at guards
        exact guards
    · rcases speaks with ⟨decision, effective, ztdf, admits⟩ | noted
      · exact absurd ⟨admits.domains, admits.method,
          (BindingDataObject.verify_ok_iff admits.method _ _ _).mpr admits.binding⟩ refused
      · exact absurd noted.1 refused
    · rcases speaks with admitted | noted
      · exact absurd admitted withheld
      · exact absurd noted.2 unnoted

omit [MarkupEscape] in
/-- The guard decides on the way from high to low, and what it lets pass goes elsewhere. -/
theorem misaddressed_transfer_released : letI := entityEscape
    ∃ b, BindingDataObject.assertionBound echoProvider releasedSecret (utf8 "m") ⟨"nmb", [3]⟩ = .ok b ∧
      let t := { fromHigh releasedSecret "m" b with
        sourceDomain := ⟨"NATIONAL"⟩, targetDomain := ⟨"PUBLIC"⟩ }
      let guard : CrossDomainGuard (List AuditRecord) := loggedGuard none true
      t.Released echoProvider emptyZip unreadTime unresolved guard collecting [] ∧
        ¬ t.SpeaksOfOnePair echoProvider emptyZip unreadTime unresolved guard collecting [] := by
  let : MarkupEscape := entityEscape
  obtain ⟨b, bound, _, _, releases⟩ := readdressed_released (List AuditRecord)
  refine ⟨b, bound, ?_⟩
  intro t guard
  have paired : validateDomainPair ⟨"NATIONAL"⟩ ⟨"PUBLIC"⟩ = .ok () := by decide +kernel
  have released : t.Released echoProvider emptyZip unreadTime unresolved guard collecting [] :=
    releases releasedSecret (by simp) _ _ paired _ true collecting _ _
      (fun record s => collecting_working.recorded record true s) []
  refine ⟨released, fun speaks => ?_⟩
  have source : (⟨"HIGH"⟩ : DomainId) = ⟨"NATIONAL"⟩ := (speaks (.inl released)).1.1
  exact absurd source (by decide)

end CrossDomainTransfer

end MimDcs
