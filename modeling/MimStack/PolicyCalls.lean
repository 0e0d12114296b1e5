import MimStack.SpifAdmin
import MimStack.Lib.Outcome

/-!
The calls that change a policy store, as they run on it in place, and what any sequence of
them keeps.
-/
namespace MimPolicy
open RustText IndexedMap IndexedMap.IndexMap Fallible MimLabeling MimSpif

inductive StoreCall where
  | insertDomain (domain : SecurityDomain)
  | insertCrossDomainPolicy (policy : CrossDomainPolicy)
  | removeCrossDomainPolicy (id : String)
  | registerSpifPolicy (policy : SpifPolicy)

namespace StoreCall

def refuseIf (refused : Bool) (e : PolicyError) : Except PolicyError Unit :=
  if refused then .error e else .ok ()

def insertDomainInPlace (d : SecurityDomain) : Effect PolicyError PolicyStore Unit := do
  .ofExcept ((SecurityDomain.validateId d.id.text).mapError .fromLabel)
  .modify fun s => { s with domains := s.domains.insert d.id.text d }

def insertCrossDomainPolicyInPlace (p : CrossDomainPolicy) :
    Effect PolicyError PolicyStore Unit := do
  .ofExcept (refuseIf (isEmpty p.id) (.invalid "policy id must not be empty"))
  .observe fun s => refuseIf (s.domain p.sourceDomain).isNone
    (.notFound ("source domain '" ++ p.sourceDomain.text ++ "' not registered"))
  .observe fun s => refuseIf (s.domain p.targetDomain).isNone
    (.notFound ("target domain '" ++ p.targetDomain.text ++ "' not registered"))
  .observe fun s => refuseIf (s.crossDomainPolicies.any fun existing => existing.id == p.id)
    (.invalid ("policy '" ++ p.id ++ "' already exists"))
  .modify fun s => { s with crossDomainPolicies := s.crossDomainPolicies ++ [p] }

/-- Yields the policy that is removed. -/
def removeCrossDomainPolicyInPlace (id : String) :
    Effect PolicyError PolicyStore CrossDomainPolicy := do
  let policies ← .observe fun s => .ok s.crossDomainPolicies
  match policies.findFinIdx? fun policy => policy.id == id with
  | none => Effect.fail (.notFound ("policy '" ++ id ++ "' not found"))
  | some position =>
    .modify fun s =>
      { s with crossDomainPolicies := s.crossDomainPolicies.eraseIdx position.val }
    return policies.get position

def registerSpifPolicyInPlace (policy : SpifPolicy) : Effect PolicyError PolicyStore Unit := do
  .observe fun s => refuseIf (s.spifPolicies.any fun p => p.policyId == policy.policyId)
    (.invalid ("SPIF policy '" ++ policy.policyId ++ "' already registered"))
  .modify fun s => { s with spifPolicies := s.spifPolicies ++ [policy] }

def perform : StoreCall → Effect PolicyError PolicyStore (Option CrossDomainPolicy)
  | .insertDomain d => do
    insertDomainInPlace d
    return none
  | .insertCrossDomainPolicy p => do
    insertCrossDomainPolicyInPlace p
    return none
  | .removeCrossDomainPolicy id => do
    let removed ← removeCrossDomainPolicyInPlace id
    return some removed
  | .registerSpifPolicy p => do
    registerSpifPolicyInPlace p
    return none

end StoreCall

def afterCalls (s : PolicyStore) (calls : List StoreCall) : PolicyStore :=
  calls.foldl (fun s call => (call.perform s).2) s

structure PolicyStore.Consistent (s : PolicyStore) : Prop where
  keyed : s.Keyed
  domainsNamed : ∀ id d, s.domains.get id = some d → isEmpty id = false
  endpoints : ∀ p ∈ s.crossDomainPolicies,
    (s.domain p.sourceDomain).isSome ∧ (s.domain p.targetDomain).isSome
  policiesNamed : ∀ p ∈ s.crossDomainPolicies, isEmpty p.id = false
  policiesDistinct : (s.crossDomainPolicies.map (·.id)).Nodup
  filesDistinct : (s.spifPolicies.map (·.policyId)).Nodup

/-- The outcome of a call that yields nothing, as far as the store goes. -/
def settled (outcome : Except PolicyError PolicyStore) (s : PolicyStore) :
    Except PolicyError Unit × PolicyStore :=
  match outcome with
  | .ok t => (.ok (), t)
  | .error e => (.error e, s)

theorem insertDomainInPlace_run (d : SecurityDomain) (s : PolicyStore) :
    StoreCall.insertDomainInPlace d s = settled (s.insertDomain d) s := by
  unfold PolicyStore.insertDomain StoreCall.insertDomainInPlace
  cases SecurityDomain.validateId d.id.text <;> rfl

theorem refuseIf_run {α : Type} (refused : Bool) (e : PolicyError)
    (rest : Effect PolicyError PolicyStore α) (s : PolicyStore) :
    (Effect.ofExcept (StoreCall.refuseIf refused e) >>= fun _ => rest) s =
      if refused = true then (.error e, s) else rest s := by
  cases refused <;> rfl

theorem observed_refuseIf_run {α : Type} (refused : PolicyStore → Bool) (e : PolicyError)
    (rest : Effect PolicyError PolicyStore α) (s : PolicyStore) :
    ((Effect.observe fun t => StoreCall.refuseIf (refused t) e) >>= fun _ => rest) s =
      if refused s = true then (.error e, s) else rest s :=
  refuseIf_run (refused s) e rest s

theorem insertCrossDomainPolicyInPlace_run (p : CrossDomainPolicy) (s : PolicyStore) :
    StoreCall.insertCrossDomainPolicyInPlace p s = settled (s.insertCrossDomainPolicy p) s := by
  simp only [PolicyStore.insertCrossDomainPolicy, StoreCall.insertCrossDomainPolicyInPlace,
    refuseIf_run, observed_refuseIf_run, Effect.modify]
  split_ifs <;> rfl

theorem registerSpifPolicyInPlace_run (p : SpifPolicy) (s : PolicyStore) :
    StoreCall.registerSpifPolicyInPlace p s = settled (s.registerSpifPolicy p) s := by
  simp only [PolicyStore.registerSpifPolicy, StoreCall.registerSpifPolicyInPlace,
    observed_refuseIf_run, Effect.modify]
  split_ifs <;> rfl

inductive Changes (s : PolicyStore) : PolicyStore → Prop
  | domainInserted (d : SecurityDomain) (named : isEmpty d.id.text = false) :
      Changes s { s with domains := s.domains.insert d.id.text d }
  | policyInserted (p : CrossDomainPolicy) (named : isEmpty p.id = false)
      (source : (s.domain p.sourceDomain).isSome = true)
      (target : (s.domain p.targetDomain).isSome = true)
      (fresh : p.id ∉ s.crossDomainPolicies.map (·.id)) :
      Changes s { s with crossDomainPolicies := s.crossDomainPolicies ++ [p] }
  | policyRemoved (position : Nat) :
      Changes s { s with crossDomainPolicies := s.crossDomainPolicies.eraseIdx position }
  | fileRegistered (p : SpifPolicy) (fresh : p.policyId ∉ s.spifPolicies.map (·.policyId)) :
      Changes s { s with spifPolicies := s.spifPolicies ++ [p] }

theorem insertDomain_changes {s t : PolicyStore} {d : SecurityDomain}
    (inserted : s.insertDomain d = .ok t) : Changes s t := by
  obtain rfl := insertDomain_ok inserted
  apply Changes.domainInserted
  cases unnamed : isEmpty d.id.text with
  | false => rfl
  | true =>
    rw [PolicyStore.insertDomain, SecurityDomain.validateId, if_pos unnamed] at inserted
    cases inserted

theorem insertCrossDomainPolicy_changes {s t : PolicyStore} {p : CrossDomainPolicy}
    (inserted : s.insertCrossDomainPolicy p = .ok t) : Changes s t := by
  unfold PolicyStore.insertCrossDomainPolicy at inserted
  split_ifs at inserted with unnamed noSource noTarget present
  obtain rfl := Except.ok.inj inserted
  apply Changes.policyInserted
  · simpa using unnamed
  · simpa [Option.isSome_iff_ne_none] using noSource
  · simpa [Option.isSome_iff_ne_none] using noTarget
  · simpa [List.any_eq_true] using present

theorem removeCrossDomainPolicyInPlace_run (id : String) (s : PolicyStore) :
    (StoreCall.removeCrossDomainPolicyInPlace id s =
        (.error (.notFound ("policy '" ++ id ++ "' not found")), s)) ∨
      ∃ removed position, StoreCall.removeCrossDomainPolicyInPlace id s =
        (.ok removed, { s with crossDomainPolicies := s.crossDomainPolicies.eraseIdx position }) := by
  simp only [StoreCall.removeCrossDomainPolicyInPlace, Effect.bind_run, Effect.observe]
  cases s.crossDomainPolicies.findFinIdx? fun policy => policy.id == id with
  | none => exact Or.inl rfl
  | some position => exact Or.inr ⟨s.crossDomainPolicies.get position, position.val, rfl⟩

theorem registerSpifPolicy_changes {s t : PolicyStore} {p : SpifPolicy}
    (registered : s.registerSpifPolicy p = .ok t) : Changes s t := by
  unfold PolicyStore.registerSpifPolicy at registered
  split_ifs at registered with present
  obtain rfl := Except.ok.inj registered
  apply Changes.fileRegistered
  simpa [List.any_eq_true] using present

theorem settled_cases {outcome : Except PolicyError PolicyStore} {s : PolicyStore}
    (changes : ∀ t, outcome = .ok t → Changes s t) :
    (∃ e, settled outcome s = (.error e, s)) ∨
      ∃ t, settled outcome s = (.ok (), t) ∧ Changes s t := by
  cases outcome with
  | error e => exact Or.inl ⟨e, rfl⟩
  | ok t => exact Or.inr ⟨t, rfl, changes t rfl⟩

theorem perform_cases (call : StoreCall) (s : PolicyStore) :
    (∃ e, call.perform s = (.error e, s)) ∨
      ∃ reply t, call.perform s = (.ok reply, t) ∧ Changes s t := by
  have yieldsNothing : ∀ {x : Effect PolicyError PolicyStore Unit},
      ((∃ e, x s = (.error e, s)) ∨ ∃ t, x s = (.ok (), t) ∧ Changes s t) →
      (∃ e, (x >>= fun _ => pure (none : Option CrossDomainPolicy)) s = (.error e, s)) ∨
        ∃ reply t, (x >>= fun _ => pure (none : Option CrossDomainPolicy)) s = (.ok reply, t) ∧
          Changes s t := by
    intro x outcome
    rcases outcome with failed | done
    · obtain ⟨e, failed⟩ := failed
      exact Or.inl ⟨e, Effect.bind_of_error failed⟩
    · obtain ⟨t, done, changed⟩ := done
      exact Or.inr ⟨none, t, Effect.bind_of_ok done, changed⟩
  cases call with
  | insertDomain d =>
    apply yieldsNothing
    rw [insertDomainInPlace_run]
    exact settled_cases fun t => insertDomain_changes
  | insertCrossDomainPolicy p =>
    apply yieldsNothing
    rw [insertCrossDomainPolicyInPlace_run]
    exact settled_cases fun t => insertCrossDomainPolicy_changes
  | removeCrossDomainPolicy id =>
    rcases removeCrossDomainPolicyInPlace_run id s with failed | done
    · exact Or.inl ⟨_, Effect.bind_of_error failed⟩
    · obtain ⟨removed, position, done⟩ := done
      exact Or.inr ⟨some removed, _, Effect.bind_of_ok done, .policyRemoved position⟩
  | registerSpifPolicy p =>
    apply yieldsNothing
    rw [registerSpifPolicyInPlace_run]
    exact settled_cases fun t => registerSpifPolicy_changes

theorem new_consistent (downgrade : DowngradeConfig) :
    PolicyStore.Consistent { PolicyStore.new with downgrade } := by
  constructor <;> simp [PolicyStore.new, PolicyStore.Keyed]

theorem nodup_concat_of_fresh {α β : Type} {f : α → β} {items : List α} {a : α}
    (distinct : (items.map f).Nodup) (fresh : f a ∉ items.map f) :
    ((items ++ [a]).map f).Nodup := by
  rw [List.map_append]
  exact List.nodup_append.mpr ⟨distinct, List.nodup_singleton _, by simpa using fresh⟩

theorem changes_consistent {s t : PolicyStore} (consistent : s.Consistent) (changed : Changes s t) :
    t.Consistent := by
  cases changed with
  | domainInserted d named =>
    have found : ∀ id other, (s.domains.insert d.id.text d).get id = some other →
        (d.id.text = id ∧ d = other) ∨ s.domains.get id = some other := by
      intro id other found
      rw [get_insert] at found
      split at found
      · rename_i own
        exact Or.inl ⟨own.symm, Option.some.inj found⟩
      · exact Or.inr found
    have kept : ∀ id : DomainId, (s.domain id).isSome = true →
        ((s.domains.insert d.id.text d).get id.text).isSome = true := by
      intro id registered
      rw [get_insert]
      split
      · rfl
      · exact registered
    refine { consistent with keyed := ?_, domainsNamed := ?_, endpoints := ?_ }
    · intro id other present
      rcases found id other present with ⟨own, rfl⟩ | earlier
      · exact own
      · exact consistent.keyed id other earlier
    · intro id other present
      rcases found id other present with ⟨rfl, _⟩ | earlier
      · exact named
      · exact consistent.domainsNamed id other earlier
    · intro p listed
      obtain ⟨source, target⟩ := consistent.endpoints p listed
      exact ⟨kept _ source, kept _ target⟩
  | policyInserted p named source target fresh =>
    refine { consistent with endpoints := ?_, policiesNamed := ?_, policiesDistinct := ?_ }
    · intro q listed
      rcases List.mem_append.mp listed with earlier | added
      · exact consistent.endpoints q earlier
      · obtain rfl := List.mem_singleton.mp added
        exact ⟨source, target⟩
    · intro q listed
      rcases List.mem_append.mp listed with earlier | added
      · exact consistent.policiesNamed q earlier
      · obtain rfl := List.mem_singleton.mp added
        exact named
    · exact nodup_concat_of_fresh consistent.policiesDistinct fresh
  | policyRemoved position =>
    have fewer := s.crossDomainPolicies.eraseIdx_sublist position
    exact { consistent with
      endpoints := fun p listed => consistent.endpoints p (fewer.subset listed)
      policiesNamed := fun p listed => consistent.policiesNamed p (fewer.subset listed)
      policiesDistinct := consistent.policiesDistinct.sublist (fewer.map _) }
  | fileRegistered p fresh =>
    exact { consistent with filesDistinct := nodup_concat_of_fresh consistent.filesDistinct fresh }

theorem perform_consistent {s : PolicyStore} (consistent : s.Consistent) (call : StoreCall) :
    (call.perform s).2.Consistent := by
  rcases perform_cases call s with failed | done
  · obtain ⟨e, failed⟩ := failed
    rw [failed]
    exact consistent
  · obtain ⟨reply, t, done, changed⟩ := done
    rw [done]
    exact changes_consistent consistent changed

theorem afterCalls_consistent {s : PolicyStore} (consistent : s.Consistent)
    (calls : List StoreCall) : (afterCalls s calls).Consistent := by
  induction calls generalizing s with
  | nil => exact consistent
  | cons call rest ih => exact ih (perform_consistent consistent call)

theorem perform_error {call : StoreCall} {s : PolicyStore} {e : PolicyError}
    (failed : (call.perform s).1 = .error e) : (call.perform s).2 = s := by
  rcases perform_cases call s with untouched | done
  · obtain ⟨e', untouched⟩ := untouched
    rw [untouched]
  · obtain ⟨reply, t, done, _⟩ := done
    rw [done] at failed
    cases failed

section NotFound
open PolicyDecisionPoint

variable {s : PolicyStore} {context : PolicyContext}

theorem fromLabel_not_notFound (e : LabelError) (message : String) :
    PolicyError.fromLabel e ≠ .notFound message := by
  cases e <;> simp [PolicyError.fromLabel]

theorem releaseInto_not_notFound (target : SecurityDomain) (message : String) :
    releaseInto s context target ≠ .error (.notFound message) := by
  unfold releaseInto
  split_ifs
  · split
    · intro failed
      exact fromLabel_not_notFound _ message (Except.error.inj failed)
    · simp
  · simp
  · simp

theorem policyForPair_none_iff (source target : DomainId) : s.policyForPair source target = none ↔
    ∀ p ∈ s.crossDomainPolicies, ¬ (p.sourceDomain = source ∧ p.targetDomain = target) := by
  simp [PolicyStore.policyForPair, List.find?_eq_none]

theorem requireDomain_of_isSome {id : DomainId} (registered : (s.domain id).isSome = true) :
    ∃ d, requireDomain s id = .ok d := by
  obtain ⟨d, found⟩ := Option.isSome_iff_exists.mp registered
  exact ⟨d, by rw [requireDomain, found]⟩

theorem evaluateCrossDomain_found {target : DomainId} {p : CrossDomainPolicy}
    (consistent : s.Consistent) (asked : context.environment.targetDomain = some target)
    (found : s.policyForPair context.environment.sourceDomain target = some p) (message : String) :
    evaluateCrossDomain s context ≠ .error (.notFound message) := by
  have listed := List.mem_of_find?_eq_some found
  have ends : p.sourceDomain = context.environment.sourceDomain ∧ p.targetDomain = target := by
    simpa using List.find?_some found
  have registered := consistent.endpoints p listed
  rw [ends.1, ends.2] at registered
  obtain ⟨source, sourceFound⟩ := requireDomain_of_isSome registered.1
  obtain ⟨into, targetFound⟩ := requireDomain_of_isSome registered.2
  unfold evaluateCrossDomain
  simp only [asked, found, sourceFound, targetFound]
  split
  · simp
  · split
    · simp
    · split
      · simp
      · exact releaseInto_not_notFound into message

theorem evaluateCrossDomain_notFound_iff (consistent : s.Consistent) :
    (∃ message, evaluateCrossDomain s context = .error (.notFound message)) ↔
      ∃ target, context.environment.targetDomain = some target ∧
        ∀ p ∈ s.crossDomainPolicies,
          ¬ (p.sourceDomain = context.environment.sourceDomain ∧ p.targetDomain = target) := by
  cases asked : context.environment.targetDomain with
  | none => simp [evaluateCrossDomain, asked]
  | some target =>
    simp only [Option.some.injEq, exists_eq_left', ← policyForPair_none_iff]
    cases found : s.policyForPair context.environment.sourceDomain target with
    | none => simp [evaluateCrossDomain, asked, found]
    | some p =>
      simp only [reduceCtorEq, iff_false, not_exists]
      exact evaluateCrossDomain_found consistent asked found

end NotFound

theorem store_calls_consistent (downgrade : DowngradeConfig) (calls : List StoreCall) :
    let store := afterCalls { PolicyStore.new with downgrade } calls
    store.Consistent ∧
      (∀ (call : StoreCall) (e : PolicyError), (call.perform store).1 = .error e →
        (call.perform store).2 = store) ∧
      ∀ context : PolicyContext,
        (∃ message, PolicyDecisionPoint.evaluateCrossDomain store context =
            .error (.notFound message)) ↔
          ∃ target, context.environment.targetDomain = some target ∧
            ∀ p ∈ store.crossDomainPolicies,
              ¬ (p.sourceDomain = context.environment.sourceDomain ∧ p.targetDomain = target) := by
  intro store
  have consistent := afterCalls_consistent (new_consistent downgrade) calls
  exact ⟨consistent, fun call e failed => perform_error failed,
    fun context => evaluateCrossDomain_notFound_iff consistent⟩

end MimPolicy
