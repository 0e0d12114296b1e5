import MimStack.PolicyCalls
import MimStack.Spif.Loading
import MimStack.Lib.Ledgers

/-!
The administration point over whole histories: which rules and which definitions of domains are
in force after any calls, and what the decision point can answer from them.
-/
namespace MimPolicy
open RustText IndexedMap IndexedMap.IndexMap Fallible MimLabeling MimSpif Ledgers StoreCall

abbrev PolicyAdministrationPoint := PolicyStore

section Loading

def syncDomainReleasabilityInPlace (spif : SpifPolicy) : Effect PolicyError PolicyStore Unit :=
  if spif.policyId ≠ "NATO" then pure ()
  else if (releasableValues spif).isEmpty then pure ()
  else do
    let domains ← .observe fun s => .ok s.domains.values
    domains.forM fun domain => insertDomainInPlace (domain.withReleasableTo (releasableValues spif))

def applySpifToStoreInPlace (registry : SpifRegistry) : Effect PolicyError PolicyStore Unit :=
  registry.policies.values.forM syncDomainReleasabilityInPlace

variable (reader : SpifReader)

def PolicyAdministrationPoint.loadSpifXml (xml : String) :
    Effect PolicyError PolicyAdministrationPoint Unit := do
  let registry ← .ofExcept ((reader.loadXml ⟨IndexMap.empty⟩ xml).mapError .invalid)
  registry.policies.values.forM registerSpifPolicyInPlace
  applySpifToStoreInPlace registry

def refreshed (policy : SpifPolicy) (d : SecurityDomain) : SecurityDomain :=
  if policy.policyId = "NATO" then released (releasableValues policy) d else d

variable {reader}

theorem forM_settled {α : Type} {g : α → Effect PolicyError PolicyStore Unit}
    {f : PolicyStore → α → Except PolicyError PolicyStore}
    (inPlace : ∀ a s t, f s a = .ok t → g a s = (.ok (), t)) (items : List α) {s t : PolicyStore}
    (ran : items.foldlM f s = .ok t) : items.forM g s = (.ok (), t) := by
  induction items generalizing s with
  | nil =>
    obtain rfl := Except.ok.inj ran
    rfl
  | cons a items ih =>
    rw [List.foldlM_cons] at ran
    obtain ⟨next, first, rest⟩ := bind_ok.mp ran
    have unfolded : (a :: items).forM g = (g a >>= fun _ => items.forM g) := rfl
    rw [unfolded, Effect.bind_of_ok (inPlace a s next first)]
    exact ih rest

theorem sync_run {spif : SpifPolicy} {s t : PolicyStore}
    (synced : syncDomainReleasability s spif = .ok t) :
    syncDomainReleasabilityInPlace spif s = (.ok (), t) := by
  unfold syncDomainReleasability at synced
  unfold syncDomainReleasabilityInPlace
  split at synced
  · rename_i other
    obtain rfl := Except.ok.inj synced
    rw [if_pos other]
    rfl
  · rename_i nato
    dsimp only at synced
    rw [if_neg nato]
    split at synced
    · rename_i none
      obtain rfl := Except.ok.inj synced
      rw [if_pos none]
      rfl
    · rename_i listed
      rw [if_neg listed]
      have inPlace : ∀ (d : SecurityDomain) (u v : PolicyStore),
          u.insertDomain (d.withReleasableTo (releasableValues spif)) = .ok v →
          insertDomainInPlace (d.withReleasableTo (releasableValues spif)) u = (.ok (), v) := by
        intro d u v inserted
        rw [insertDomainInPlace_run, inserted]
        rfl
      exact forM_settled inPlace s.domains.values synced

theorem sync_inserts {spif : SpifPolicy} {P : PolicyStore → Prop} {s t : PolicyStore}
    (inserted : ∀ (d : SecurityDomain) (u v : PolicyStore), P u → u.insertDomain d = .ok v → P v)
    (synced : syncDomainReleasability s spif = .ok t) (first : P s) : P t := by
  unfold syncDomainReleasability at synced
  split at synced
  · exact Except.ok.inj synced ▸ first
  · dsimp only at synced
    split at synced
    · exact Except.ok.inj synced ▸ first
    · exact foldlM_invariant (fun u d v held added => inserted _ u v held added) _ first synced

theorem sync_rest {spif : SpifPolicy} {s t : PolicyStore}
    (synced : syncDomainReleasability s spif = .ok t) : t = { s with domains := t.domains } := by
  apply sync_inserts (P := fun u => u = { s with domains := u.domains }) _ synced rfl
  intro d u v same inserted
  obtain rfl := insertDomain_ok inserted
  rw [same]

theorem sync_consistent {spif : SpifPolicy} {s t : PolicyStore} (consistent : s.Consistent)
    (synced : syncDomainReleasability s spif = .ok t) : t.Consistent :=
  sync_inserts (fun _ _ _ held inserted => changes_consistent held (insertDomain_changes inserted))
    synced consistent

theorem validateId_named {id : String} (named : isEmpty id = false) :
    SecurityDomain.validateId id = .ok () := by
  rw [SecurityDomain.validateId, named]
  rfl

theorem sync_succeeds {s : PolicyStore} (consistent : s.Consistent) (spif : SpifPolicy) :
    ∃ t, syncDomainReleasability s spif = .ok t := by
  unfold syncDomainReleasability
  split
  · exact ⟨s, rfl⟩
  · dsimp only
    split
    · exact ⟨s, rfl⟩
    · apply foldlM_succeeds
      intro u d stored
      obtain ⟨entry, listed, rfl⟩ := List.mem_map.mp stored
      have found := s.domains.get_of_mem entry listed
      have named : isEmpty entry.2.id.text = false := by
        rw [consistent.keyed _ _ found]
        exact consistent.domainsNamed _ _ found
      have valid : SecurityDomain.validateId
          (entry.2.withReleasableTo (releasableValues spif)).id.text = .ok () :=
        validateId_named named
      rw [PolicyStore.insertDomain, valid]
      exact ⟨_, rfl⟩

theorem sync_refreshed {s t : PolicyStore} {policy : SpifPolicy} (consistent : s.Consistent)
    (synced : syncDomainReleasability s policy = .ok t) (id : String) :
    t.domains.get id = (s.domains.get id).map (refreshed policy) := by
  by_cases nato : policy.policyId = "NATO"
  · rw [sync_domains consistent.keyed nato synced]
    congr 1
    funext d
    rw [refreshed, if_pos nato]
  · rw [syncDomainReleasability, if_pos nato] at synced
    obtain rfl := Except.ok.inj synced
    have same : refreshed policy = fun d => d := by
      funext d
      exact if_neg nato
    rw [same]
    exact (congrFun Option.map_id _).symm

structure Loaded (policy : SpifPolicy) (s t : PolicyStore) : Prop where
  fresh : policy.policyId ∉ s.spifPolicies.map (·.policyId)
  synced : syncDomainReleasability { s with spifPolicies := s.spifPolicies ++ [policy] } policy =
    .ok t

theorem fresh_of_not_any {s : PolicyStore} {policy : SpifPolicy}
    (absent : ¬ (s.spifPolicies.any fun p => p.policyId == policy.policyId) = true) :
    policy.policyId ∉ s.spifPolicies.map (·.policyId) := by
  simpa [List.any_eq_true] using absent

variable (reader) in
theorem loadSpifXml_cases {s : PolicyStore} (consistent : s.Consistent) (xml : String) :
    (∃ e, PolicyAdministrationPoint.loadSpifXml reader xml s = (.error e, s)) ∨
      ∃ policy t, reader.parseSpifXml xml = .ok policy ∧ Loaded policy s t ∧
        PolicyAdministrationPoint.loadSpifXml reader xml s = (.ok (), t) := by
  unfold PolicyAdministrationPoint.loadSpifXml
  rw [SpifReader.loadXml_fresh]
  cases read : reader.parseSpifXml xml with
  | error e => exact Or.inl ⟨.invalid e, rfl⟩
  | ok policy =>
    have register := registerSpifPolicyInPlace_run policy s
    unfold PolicyStore.registerSpifPolicy at register
    by_cases present : (s.spifPolicies.any fun p => p.policyId == policy.policyId) = true
    · left
      rw [if_pos present] at register
      have refused : [policy].forM registerSpifPolicyInPlace s = (_, s) :=
        Effect.bind_of_error register
      have stopped := Effect.bind_of_error (f := fun _ =>
        [policy].forM syncDomainReleasabilityInPlace) refused
      exact ⟨_, stopped⟩
    · right
      have fresh := fresh_of_not_any present
      rw [if_neg present] at register
      have filed : PolicyStore.Consistent { s with spifPolicies := s.spifPolicies ++ [policy] } :=
        changes_consistent consistent (.fileRegistered policy fresh)
      obtain ⟨t, synced⟩ := sync_succeeds filed policy
      refine ⟨policy, t, rfl, ⟨fresh, synced⟩, ?_⟩
      have registered : [policy].forM registerSpifPolicyInPlace s = (.ok (), _) :=
        Effect.bind_of_ok register
      have applied : [policy].forM syncDomainReleasabilityInPlace
          { s with spifPolicies := s.spifPolicies ++ [policy] } = (.ok (), t) :=
        Effect.bind_of_ok (sync_run synced)
      have next := Effect.bind_of_ok (f := fun _ =>
        [policy].forM syncDomainReleasabilityInPlace) registered
      exact next.trans applied

end Loading

section Histories

inductive AdminCall where
  | onStore (call : StoreCall)
  | loadSpifXml (xml : String)

/-- A change that was acknowledged; a rule is struck out as the rule it was. -/
inductive Administered where
  | domain (d : SecurityDomain)
  | rule (entry : Entry CrossDomainPolicy)
  | filed (policy : SpifPolicy)
  | loaded (policy : SpifPolicy)
  deriving DecidableEq

namespace Administered

def ruleEntry : Administered → Option (Entry CrossDomainPolicy)
  | .rule entry => some entry
  | _ => none

def file : Administered → Option SpifPolicy
  | .filed policy => some policy
  | .loaded policy => some policy
  | _ => none

def setting (id : DomainId) : Administered → Option SecurityDomain
  | .domain d => if d.id = id then some d else none
  | _ => none

def revise (d : SecurityDomain) : Administered → SecurityDomain
  | .loaded policy => refreshed policy d
  | _ => d

end Administered

def domainInForce (id : DomainId) (log : List Administered) : Option SecurityDomain :=
  reading (Administered.setting id) Administered.revise log

def rulesInForce (log : List Administered) : List CrossDomainPolicy :=
  standing (log.filterMap Administered.ruleEntry)

variable (reader : SpifReader)

def AdminCall.perform : AdminCall →
    Effect PolicyError PolicyAdministrationPoint (Option CrossDomainPolicy)
  | .onStore call => call.perform
  | .loadSpifXml xml => do
    PolicyAdministrationPoint.loadSpifXml reader xml
    return none

/-- What a call has changed, by the reply to it. -/
def AdminCall.changes : AdminCall → Option CrossDomainPolicy → List Administered
  | .onStore (.insertDomain d), _ => [.domain d]
  | .onStore (.insertCrossDomainPolicy p), _ => [.rule (.entered p)]
  | .onStore (.removeCrossDomainPolicy _), removed => removed.toList.map fun p => .rule (.struck p)
  | .onStore (.registerSpifPolicy p), _ => [.filed p]
  | .loadSpifXml xml, _ => ((reader.parseSpifXml xml).toOption.map .loaded).toList

def AdminCall.acknowledged (call : AdminCall) (s : PolicyAdministrationPoint) : List Administered :=
  match (call.perform reader s).1 with
  | .ok reply => call.changes reader reply
  | .error _ => []

def afterAdmin (s : PolicyAdministrationPoint) (calls : List AdminCall) :
    PolicyAdministrationPoint :=
  calls.foldl (fun s call => (call.perform reader s).2) s

def adminLog : PolicyAdministrationPoint → List AdminCall → List Administered
  | _, [] => []
  | s, call :: calls => call.acknowledged reader s ++ adminLog (call.perform reader s).2 calls

/-- A log of changes and the store they have left. -/
structure InForce (downgrade : DowngradeConfig) (log : List Administered) (s : PolicyStore) :
    Prop where
  configured : s.downgrade = downgrade
  consistent : s.Consistent
  rules : s.crossDomainPolicies = rulesInForce log
  domains : ∀ id, s.domain id = domainInForce id log
  files : s.spifPolicies = log.filterMap Administered.file

variable {reader} {downgrade : DowngradeConfig} {log : List Administered} {s t : PolicyStore}

theorem rulesInForce_snoc (log : List Administered) (entry : Entry CrossDomainPolicy) :
    rulesInForce (log ++ [.rule entry]) =
      standing (log.filterMap Administered.ruleEntry ++ [entry]) := by
  simp [rulesInForce, Administered.ruleEntry]

theorem rulesInForce_other (log : List Administered) {change : Administered}
    (other : change.ruleEntry = none) : rulesInForce (log ++ [change]) = rulesInForce log := by
  simp [rulesInForce, other]

theorem files_other (log : List Administered) {change : Administered} (other : change.file = none) :
    (log ++ [change]).filterMap Administered.file = log.filterMap Administered.file := by
  simp [other]

theorem domainId_ext {a b : DomainId} (texts : a.text = b.text) : a = b := by
  cases a
  cases b
  exact congrArg DomainId.mk texts

theorem domainInForce_kept {change : Administered} (held : ∀ id, s.domain id = domainInForce id log)
    (registers : ∀ d, change ≠ .domain d) (id : DomainId) :
    (s.domain id).map (fun d => change.revise d) = domainInForce id (log ++ [change]) := by
  have unset : change.setting id = none := by
    cases change with
    | domain d => exact absurd rfl (registers d)
    | rule entry => rfl
    | filed policy => rfl
    | loaded policy => rfl
  rw [domainInForce, reading_amend _ _ log unset, held]
  rfl

theorem domainInForce_same {change : Administered} (held : ∀ id, s.domain id = domainInForce id log)
    (registers : ∀ d, change ≠ .domain d) (revises : ∀ d, change.revise d = d) (id : DomainId) :
    s.domain id = domainInForce id (log ++ [change]) := by
  rw [← domainInForce_kept held registers]
  simp only [revises]
  exact (congrFun Option.map_id _).symm

theorem inForce_domain (held : InForce downgrade log s) {d : SecurityDomain}
    (named : isEmpty d.id.text = false) :
    InForce downgrade (log ++ [.domain d]) { s with domains := s.domains.insert d.id.text d } where
  configured := held.configured
  consistent := changes_consistent held.consistent (.domainInserted d named)
  rules := held.rules.trans (rulesInForce_other log rfl).symm
  domains := by
    intro id
    rw [domainInForce, PolicyStore.domain, get_insert]
    by_cases same : d.id = id
    · have set : Administered.setting id (.domain d) = some d := if_pos same
      rw [reading_set _ _ log set, if_pos (congrArg DomainId.text same).symm]
    · have unset : Administered.setting id (.domain d) = none := if_neg same
      have apart : ¬ id.text = d.id.text := fun texts => same (domainId_ext texts).symm
      rw [reading_amend _ _ log unset, if_neg apart]
      exact (held.domains id).trans (congrFun Option.map_id _).symm
  files := held.files.trans (files_other log rfl).symm

theorem inForce_entered (held : InForce downgrade log s) {p : CrossDomainPolicy}
    (named : isEmpty p.id = false) (source : (s.domain p.sourceDomain).isSome = true)
    (target : (s.domain p.targetDomain).isSome = true)
    (fresh : p.id ∉ s.crossDomainPolicies.map (·.id)) :
    InForce downgrade (log ++ [.rule (.entered p)])
      { s with crossDomainPolicies := s.crossDomainPolicies ++ [p] } where
  configured := held.configured
  consistent := changes_consistent held.consistent (.policyInserted p named source target fresh)
  rules := by
    rw [rulesInForce_snoc, standing_enter, held.rules]
    rfl
  domains := domainInForce_same held.domains (by simp) (fun _ => rfl)
  files := held.files.trans (files_other log rfl).symm

theorem inForce_struck (held : InForce downgrade log s) (position : Nat)
    (inside : position < s.crossDomainPolicies.length) :
    InForce downgrade (log ++ [.rule (.struck s.crossDomainPolicies[position])])
      { s with crossDomainPolicies := s.crossDomainPolicies.eraseIdx position } where
  configured := held.configured
  consistent := changes_consistent held.consistent (.policyRemoved position)
  rules := by
    have distinct := List.Nodup.of_map _ held.consistent.policiesDistinct
    rw [rulesInForce_snoc, standing_strike, nodup_eraseIdx distinct inside]
    exact congrArg (List.filter _) held.rules
  domains := domainInForce_same held.domains (by simp) (fun _ => rfl)
  files := held.files.trans (files_other log rfl).symm

theorem inForce_filed (held : InForce downgrade log s) {policy : SpifPolicy}
    (fresh : policy.policyId ∉ s.spifPolicies.map (·.policyId)) :
    InForce downgrade (log ++ [.filed policy])
      { s with spifPolicies := s.spifPolicies ++ [policy] } where
  configured := held.configured
  consistent := changes_consistent held.consistent (.fileRegistered policy fresh)
  rules := held.rules.trans (rulesInForce_other log rfl).symm
  domains := domainInForce_same held.domains (by simp) (fun _ => rfl)
  files := by simp [Administered.file, held.files]

theorem inForce_loaded (held : InForce downgrade log s) {policy : SpifPolicy}
    (loaded : Loaded policy s t) : InForce downgrade (log ++ [.loaded policy]) t := by
  have filed := inForce_filed held loaded.fresh
  have rest := sync_rest loaded.synced
  constructor
  · rw [rest]
    exact held.configured
  · exact sync_consistent filed.consistent loaded.synced
  · rw [rest, rulesInForce_other log rfl]
    exact held.rules
  · intro id
    rw [← domainInForce_kept held.domains (by simp)]
    exact sync_refreshed filed.consistent loaded.synced id.text
  · rw [rest]
    simp [Administered.file, held.files]

theorem removed_run (id : String) (s : PolicyStore) :
    (∃ e, StoreCall.perform (.removeCrossDomainPolicy id) s = (.error e, s)) ∨
      ∃ position, ∃ inside : position < s.crossDomainPolicies.length,
        StoreCall.perform (.removeCrossDomainPolicy id) s =
          (.ok (some s.crossDomainPolicies[position]),
            { s with crossDomainPolicies := s.crossDomainPolicies.eraseIdx position }) := by
  simp only [StoreCall.perform, removeCrossDomainPolicyInPlace, Effect.bind_run, Effect.observe]
  cases s.crossDomainPolicies.findFinIdx? fun policy => policy.id == id with
  | none => exact Or.inl ⟨_, rfl⟩
  | some position => exact Or.inr ⟨position.val, position.isLt, rfl⟩

theorem refused_inForce (held : InForce downgrade log s) {call : AdminCall} {e : PolicyError}
    (failed : call.perform reader s = (.error e, s)) :
    InForce downgrade (log ++ call.acknowledged reader s) (call.perform reader s).2 := by
  simpa [AdminCall.acknowledged, failed] using held

theorem done_inForce {call : AdminCall} {reply : Option CrossDomainPolicy}
    (done : call.perform reader s = (.ok reply, t))
    (after : InForce downgrade (log ++ call.changes reader reply) t) :
    InForce downgrade (log ++ call.acknowledged reader s) (call.perform reader s).2 := by
  simpa [AdminCall.acknowledged, done] using after

theorem settled_run {x : Effect PolicyError PolicyStore Unit}
    {outcome : Except PolicyError PolicyStore} (runs : x s = settled outcome s) :
    (∃ e, (x >>= fun _ => pure (none : Option CrossDomainPolicy)) s = (.error e, s)) ∨
      ∃ t, outcome = .ok t ∧
        (x >>= fun _ => pure (none : Option CrossDomainPolicy)) s = (.ok none, t) := by
  cases outcome with
  | error e => exact Or.inl ⟨e, Effect.bind_of_error runs⟩
  | ok t => exact Or.inr ⟨t, rfl, Effect.bind_of_ok runs⟩

theorem domain_named {d : SecurityDomain} (inserted : s.insertDomain d = .ok t) :
    isEmpty d.id.text = false := by
  cases unnamed : isEmpty d.id.text with
  | false => rfl
  | true =>
    rw [PolicyStore.insertDomain, SecurityDomain.validateId, if_pos unnamed] at inserted
    cases inserted

theorem inserted_inForce (held : InForce downgrade log s) {p : CrossDomainPolicy}
    (inserted : s.insertCrossDomainPolicy p = .ok t) :
    InForce downgrade (log ++ [.rule (.entered p)]) t := by
  unfold PolicyStore.insertCrossDomainPolicy at inserted
  split_ifs at inserted with unnamed noSource noTarget present
  obtain rfl := Except.ok.inj inserted
  apply inForce_entered held
  · simpa using unnamed
  · simpa [Option.isSome_iff_ne_none] using noSource
  · simpa [Option.isSome_iff_ne_none] using noTarget
  · simpa [List.any_eq_true] using present

theorem registered_inForce (held : InForce downgrade log s) {policy : SpifPolicy}
    (registered : s.registerSpifPolicy policy = .ok t) :
    InForce downgrade (log ++ [.filed policy]) t := by
  unfold PolicyStore.registerSpifPolicy at registered
  split_ifs at registered with present
  obtain rfl := Except.ok.inj registered
  exact inForce_filed held (fresh_of_not_any present)

variable (reader) in
theorem perform_inForce (held : InForce downgrade log s) (call : AdminCall) :
    InForce downgrade (log ++ call.acknowledged reader s) (call.perform reader s).2 := by
  cases call with
  | loadSpifXml xml =>
    rcases loadSpifXml_cases reader held.consistent xml with failed | loads
    · obtain ⟨e, failed⟩ := failed
      exact refused_inForce held (Effect.bind_of_error failed)
    · obtain ⟨policy, t, read, loaded, done⟩ := loads
      apply done_inForce (Effect.bind_of_ok done)
      simpa [AdminCall.changes, read, Except.toOption] using inForce_loaded held loaded
  | onStore call =>
    cases call with
    | insertDomain d =>
      rcases settled_run (insertDomainInPlace_run d s) with failed | done
      · obtain ⟨e, failed⟩ := failed
        exact refused_inForce held failed
      · obtain ⟨t, inserted, done⟩ := done
        have named := domain_named inserted
        obtain rfl := insertDomain_ok inserted
        exact done_inForce done (inForce_domain held named)
    | insertCrossDomainPolicy p =>
      rcases settled_run (insertCrossDomainPolicyInPlace_run p s) with failed | done
      · obtain ⟨e, failed⟩ := failed
        exact refused_inForce held failed
      · obtain ⟨t, inserted, done⟩ := done
        exact done_inForce done (inserted_inForce held inserted)
    | removeCrossDomainPolicy id =>
      rcases removed_run id s with failed | done
      · obtain ⟨e, failed⟩ := failed
        exact refused_inForce held failed
      · obtain ⟨position, inside, done⟩ := done
        exact done_inForce done (inForce_struck held position inside)
    | registerSpifPolicy policy =>
      rcases settled_run (registerSpifPolicyInPlace_run policy s) with failed | done
      · obtain ⟨e, failed⟩ := failed
        exact refused_inForce held failed
      · obtain ⟨t, registered, done⟩ := done
        exact done_inForce done (registered_inForce held registered)

theorem new_inForce (downgrade : DowngradeConfig) :
    InForce downgrade [] { PolicyStore.new with downgrade } where
  configured := rfl
  consistent := new_consistent downgrade
  rules := rfl
  domains := fun _ => rfl
  files := rfl

variable (reader) in
theorem afterAdmin_inForce (held : InForce downgrade log s) (calls : List AdminCall) :
    InForce downgrade (log ++ adminLog reader s calls) (afterAdmin reader s calls) := by
  induction calls generalizing log s with
  | nil => simpa [adminLog, afterAdmin] using held
  | cons call calls ih =>
    have next := ih (perform_inForce reader held call)
    rwa [List.append_assoc] at next

def refreshes : Administered → Bool
  | .loaded policy => policy.policyId == "NATO"
  | _ => false

theorem refreshes_count (log : List Administered) : log.countP refreshes ≤
    ((log.filterMap Administered.file).map (·.policyId)).count "NATO" := by
  induction log with
  | nil => simp
  | cons change log ih =>
    cases change with
    | domain d => exact ih
    | rule entry => exact ih
    | filed policy =>
      have listed : ((Administered.filed policy :: log).filterMap Administered.file).map (·.policyId) =
          policy.policyId :: (log.filterMap Administered.file).map (·.policyId) := rfl
      have uncounted : (Administered.filed policy :: log).countP refreshes = log.countP refreshes := rfl
      rw [listed, uncounted, List.count_cons]
      omega
    | loaded policy =>
      have listed : ((Administered.loaded policy :: log).filterMap Administered.file).map (·.policyId) =
          policy.policyId :: (log.filterMap Administered.file).map (·.policyId) := rfl
      rw [listed]
      by_cases nato : policy.policyId = "NATO"
      · have counted : refreshes (.loaded policy) = true := beq_iff_eq.mpr nato
        rw [List.countP_cons_of_pos counted, nato, List.count_cons_self]
        omega
      · have uncounted : ¬ refreshes (.loaded policy) = true := fun same => nato (beq_iff_eq.mp same)
        rw [List.countP_cons_of_neg uncounted, List.count_cons_of_ne nato]
        exact ih

theorem refreshed_once (held : InForce downgrade log s) : log.countP refreshes ≤ 1 := by
  have once := List.nodup_iff_count_le_one.mp held.consistent.filesDistinct "NATO"
  have counted := refreshes_count log
  rw [held.files] at once
  omega

theorem refreshes_first (held : InForce downgrade log s) {before after : List Administered}
    {change : Administered} {d : SecurityDomain} (split : log = before ++ change :: after)
    (revises : change.revise d ≠ d) :
    ∃ policy, change = .loaded policy ∧ policy.policyId = "NATO" ∧
      ∀ earlier ∈ before, ∀ other, earlier.file = some other → other.policyId ≠ "NATO" := by
  cases change with
  | domain own => exact absurd rfl revises
  | rule entry => exact absurd rfl revises
  | filed policy => exact absurd rfl revises
  | loaded policy =>
    have nato : policy.policyId = "NATO" := by
      by_contra other
      exact revises (if_neg other)
    refine ⟨policy, rfl, nato, ?_⟩
    intro earlier mem other filed same
    have distinct := held.consistent.filesDistinct
    have listed : ((before ++ .loaded policy :: after).filterMap Administered.file).map (·.policyId) =
        (before.filterMap Administered.file).map (·.policyId) ++
          policy.policyId :: (after.filterMap Administered.file).map (·.policyId) := by
      simp [Administered.file]
    rw [held.files, split, listed, nato] at distinct
    have inBefore : "NATO" ∈ (before.filterMap Administered.file).map (·.policyId) :=
      List.mem_map.mpr ⟨other, List.mem_filterMap.mpr ⟨earlier, mem, filed⟩, same⟩
    exact (List.nodup_append.mp distinct).2.2 _ inBefore _ List.mem_cons_self rfl

theorem rule_in_force_iff (held : InForce downgrade log s) (source target : DomainId) :
    (s.policyForPair source target).isSome = true ↔
      ∃ before p after, log = before ++ .rule (.entered p) :: after ∧
        .rule (.struck p) ∉ after ∧ p.sourceDomain = source ∧ p.targetDomain = target := by
  have entries : ∀ (change : Administered) (entry : Entry CrossDomainPolicy),
      change.ruleEntry = some entry → change = .rule entry := by
    intro change entry same
    cases change with
    | rule own => exact congrArg Administered.rule (Option.some.inj same)
    | domain d => cases same
    | filed policy => cases same
    | loaded policy => cases same
  rw [PolicyStore.policyForPair, held.rules, List.find?_isSome]
  constructor
  · intro found
    obtain ⟨p, stands, pair⟩ := found
    obtain ⟨before, change, after, split, isEntry, kept⟩ := (mem_standing_within _).mp stands
    obtain rfl := entries change _ isEntry
    refine ⟨before, p, after, split, fun struck => kept _ struck rfl, ?_⟩
    simpa using pair
  · intro entered
    obtain ⟨before, p, after, split, kept, starts, into⟩ := entered
    refine ⟨p, ?_, by simp [starts, into]⟩
    apply (mem_standing_within _).mpr
    refine ⟨before, _, after, split, rfl, ?_⟩
    intro change mem struck
    exact kept (entries change _ struck ▸ mem)

theorem domain_in_force_iff (held : InForce downgrade log s) (id : DomainId) (d : SecurityDomain) :
    s.domain id = some d ↔ ∃ before own after, log = before ++ .domain own :: after ∧
      own.id = id ∧ (∀ other, .domain other ∈ after → other.id ≠ id) ∧
        after.foldl Administered.revise own = d := by
  rw [held.domains, domainInForce, reading_iff]
  constructor
  · intro set
    obtain ⟨before, change, own, after, split, isSet, unset, value⟩ := set
    cases change with
    | domain registered =>
      rw [Administered.setting] at isSet
      split at isSet
      · rename_i named
        obtain rfl := Option.some.inj isSet
        refine ⟨before, registered, after, split, named, ?_, value⟩
        intro other mem same
        have := unset _ mem
        rw [Administered.setting, if_pos same] at this
        cases this
      · cases isSet
    | rule entry => cases isSet
    | filed policy => cases isSet
    | loaded policy => cases isSet
  · intro registered
    obtain ⟨before, own, after, split, named, later, value⟩ := registered
    refine ⟨before, _, own, after, split, if_pos named, ?_, value⟩
    intro change mem
    cases change with
    | domain other => exact if_neg (later other mem)
    | rule entry => rfl
    | filed policy => rfl
    | loaded policy => rfl

/-- After any calls, a rule covers a flow when one was added for it and not removed since, a domain
is as it was last registered and refreshed since, and at most one load refreshes anything: that of
the first NATO policy. -/
theorem administration_in_force (reader : SpifReader) (downgrade : DowngradeConfig)
    (calls : List AdminCall) :
    let start : PolicyAdministrationPoint := { PolicyStore.new with downgrade }
    let s := afterAdmin reader start calls
    let log := adminLog reader start calls
    (∀ source target, (s.policyForPair source target).isSome = true ↔
      ∃ before p after, log = before ++ .rule (.entered p) :: after ∧
        .rule (.struck p) ∉ after ∧ p.sourceDomain = source ∧ p.targetDomain = target) ∧
    (∀ id d, s.domain id = some d ↔ ∃ before own after, log = before ++ .domain own :: after ∧
      own.id = id ∧ (∀ other, .domain other ∈ after → other.id ≠ id) ∧
        after.foldl Administered.revise own = d) ∧
    log.countP refreshes ≤ 1 ∧
    ∀ before change after d, log = before ++ change :: after → change.revise d ≠ d →
      ∃ policy, change = .loaded policy ∧ policy.policyId = "NATO" ∧
        ∀ earlier ∈ before, ∀ other, earlier.file = some other → other.policyId ≠ "NATO" := by
  have held := afterAdmin_inForce reader (new_inForce downgrade) calls
  exact ⟨rule_in_force_iff held, domain_in_force_iff held, refreshed_once held,
    fun _ _ _ _ => refreshes_first held⟩

end Histories

section Flows

variable {downgrade : DowngradeConfig} {log : List Administered} {s t : PolicyStore}
  {context : PolicyContext}

def covers (context : PolicyContext) (p : CrossDomainPolicy) : Bool :=
  p.sourceDomain == context.environment.sourceDomain &&
    context.environment.targetDomain == some p.targetDomain

def concerns (context : PolicyContext) : Administered → Bool
  | .domain d => d.id == context.environment.sourceDomain ||
      context.environment.targetDomain == some d.id
  | .rule entry => covers context entry.item
  | .filed _ => false
  | .loaded policy => policy.policyId == "NATO"

theorem domainInForce_concerned {id : DomainId}
    (asked : id = context.environment.sourceDomain ∨ context.environment.targetDomain = some id)
    (log : List Administered) :
    domainInForce id (log.filter (concerns context)) = domainInForce id log := by
  apply reading_filter
  intro change apart
  cases change with
  | domain d =>
    simp only [concerns, Bool.or_eq_false_iff, beq_eq_false_iff_ne] at apart
    have other : d.id ≠ id := by
      rintro rfl
      rcases asked with source | target
      · exact apart.1 source
      · exact apart.2 target
    exact ⟨if_neg other, fun _ => rfl⟩
  | rule entry => exact ⟨rfl, fun _ => rfl⟩
  | filed policy => exact ⟨rfl, fun _ => rfl⟩
  | loaded policy =>
    refine ⟨rfl, fun d => if_neg ?_⟩
    simpa [concerns] using apart

theorem rulesInForce_concerned (log : List Administered) :
    rulesInForce (log.filter (concerns context)) = (rulesInForce log).filter (covers context) := by
  unfold rulesInForce
  rw [← standing_kind]
  congr 1
  induction log with
  | nil => rfl
  | cons change log ih =>
    cases change with
    | domain d =>
      rw [List.filter_cons]
      split
      · exact ih
      · exact ih
    | filed policy => exact ih
    | loaded policy =>
      rw [List.filter_cons]
      split
      · exact ih
      · exact ih
    | rule entry =>
      have entries : (Administered.rule entry :: log).filterMap Administered.ruleEntry =
          entry :: log.filterMap Administered.ruleEntry := rfl
      rw [entries, List.filter_cons, List.filter_cons]
      cases covered : covers context entry.item with
      | true =>
        have concerned : concerns context (.rule entry) = true := covered
        rw [if_pos rfl, if_pos concerned, ← ih]
        rfl
      | false =>
        have apart : ¬ concerns context (.rule entry) = true := by simp [concerns, covered]
        rw [if_neg Bool.false_ne_true, if_neg apart, ih]

theorem policyForPair_concerned (held : InForce downgrade log s) {target : DomainId}
    (asked : context.environment.targetDomain = some target) :
    s.policyForPair context.environment.sourceDomain target =
      (rulesInForce (log.filter (concerns context))).head? := by
  rw [PolicyStore.policyForPair, held.rules, rulesInForce_concerned, List.head?_filter]
  congr 1
  funext p
  rw [covers, asked]
  simp [Bool.beq_eq_decide_eq, eq_comm]

theorem evaluate_alike (downgrades : s.downgrade = t.downgrade)
    (source : s.domain context.environment.sourceDomain = t.domain context.environment.sourceDomain)
    (flow : ∀ target, context.environment.targetDomain = some target →
      s.domain target = t.domain target ∧
        s.policyForPair context.environment.sourceDomain target =
          t.policyForPair context.environment.sourceDomain target) :
    PolicyDecisionPoint.evaluate s context = PolicyDecisionPoint.evaluate t context := by
  have access : PolicyDecisionPoint.evaluateAccess s context =
      PolicyDecisionPoint.evaluateAccess t context := by
    unfold PolicyDecisionPoint.evaluateAccess PolicyDecisionPoint.requireDomain
    rw [source]
  have crossing : PolicyDecisionPoint.evaluateCrossDomain s context =
      PolicyDecisionPoint.evaluateCrossDomain t context := by
    unfold PolicyDecisionPoint.evaluateCrossDomain
    cases asked : context.environment.targetDomain with
    | none => rfl
    | some target =>
      obtain ⟨into, rules⟩ := flow target asked
      simp only [rules, PolicyDecisionPoint.requireDomain, source, into,
        PolicyDecisionPoint.releaseInto, downgrades]
  unfold PolicyDecisionPoint.evaluate
  cases context.environment.operation with
  | crossDomainTransfer => exact crossing
  | read => exact access
  | write => exact access
  | delete => exact access

/-- Two histories that agree on the changes a request can be decided by answer it alike. -/
theorem separate_flows (reader : SpifReader) (downgrade : DowngradeConfig)
    {first second : List AdminCall} (context : PolicyContext)
    (agree : let start : PolicyAdministrationPoint := { PolicyStore.new with downgrade }
      (adminLog reader start first).filter (concerns context) =
        (adminLog reader start second).filter (concerns context)) :
    let start : PolicyAdministrationPoint := { PolicyStore.new with downgrade }
    PolicyDecisionPoint.evaluate (afterAdmin reader start first) context =
      PolicyDecisionPoint.evaluate (afterAdmin reader start second) context := by
  intro start
  have heldFirst := afterAdmin_inForce reader (new_inForce downgrade) first
  have heldSecond := afterAdmin_inForce reader (new_inForce downgrade) second
  rw [List.nil_append] at heldFirst heldSecond
  have domains : ∀ id, id = context.environment.sourceDomain ∨
      context.environment.targetDomain = some id →
      (afterAdmin reader start first).domain id = (afterAdmin reader start second).domain id := by
    intro id asked
    rw [heldFirst.domains, heldSecond.domains, ← domainInForce_concerned asked, agree,
      domainInForce_concerned asked]
  apply evaluate_alike
  · rw [heldFirst.configured, heldSecond.configured]
  · exact domains _ (Or.inl rfl)
  · intro target asked
    refine ⟨domains target (Or.inr asked), ?_⟩
    rw [policyForPair_concerned heldFirst asked, policyForPair_concerned heldSecond asked, agree]

end Flows

section SpifPoint

def guardDomainsFromSpif (registry : SpifRegistry) (sourceId targetId : String) :
    Except PolicyError (SecurityDomain × SecurityDomain) :=
  match registry.policies.get "NATO" with
  | none => .error (.notFound "NATO SPIF policy required for cross-domain guard")
  | some nato =>
    let listed := releasableValues nato
    let releasable := if listed.isEmpty then ["USA", "GBR"] else listed
    .ok ({ id := ⟨sourceId⟩, name := "High Side (SPIF-administered)", maxClassification := .secret,
           releasableTo := releasable },
         { id := ⟨targetId⟩, name := "Low Side (SPIF-administered)", maxClassification := .restricted,
           releasableTo := releasable })

def crossDomainPolicyFromSpif (source target : DomainId) (spif : SpifPolicy) : CrossDomainPolicy where
  id := "spif-" ++ spif.policyId ++ "-" ++ source.text ++ "-to-" ++ target.text
  description := "SPIF policy " ++ spif.policyId ++ " cross-domain release rule"
  sourceDomain := source
  targetDomain := target

def addSpifRule (registry : SpifRegistry) (source target : DomainId) (store : PolicyStore) :
    Except PolicyError PolicyStore :=
  match registry.policies.get "NATO" with
  | some nato => store.insertCrossDomainPolicy (crossDomainPolicyFromSpif source target nato)
  | none => .ok store

def PolicyAdministrationPoint.withSpifRegistry (registry : SpifRegistry) :
    Except PolicyError PolicyAdministrationPoint := do
  let (source, target) ← guardDomainsFromSpif registry "DOMAIN-HIGH" "DOMAIN-LOW"
  let store ← PolicyStore.new.insertDomain source
  let store ← store.insertDomain target
  let store ← addSpifRule registry source.id target.id store
  let store ← registry.policies.values.foldlM PolicyStore.registerSpifPolicy store
  applySpifToStore store registry

variable {registry : SpifRegistry} {s t : PolicyStore}

theorem registerAll_files (items : List SpifPolicy)
    (registered : items.foldlM PolicyStore.registerSpifPolicy s = .ok t) :
    t.spifPolicies = s.spifPolicies ++ items := by
  induction items generalizing s with
  | nil =>
    obtain rfl := Except.ok.inj registered
    simp
  | cons policy items ih =>
    rw [List.foldlM_cons] at registered
    obtain ⟨next, first, rest⟩ := bind_ok.mp registered
    unfold PolicyStore.registerSpifPolicy at first
    split_ifs at first
    obtain rfl := Except.ok.inj first
    simpa using ih rest

theorem registerAll_consistent (items : List SpifPolicy) (consistent : s.Consistent)
    (registered : items.foldlM PolicyStore.registerSpifPolicy s = .ok t) : t.Consistent :=
  foldlM_invariant (fun _ _ _ held added =>
    changes_consistent held (registerSpifPolicy_changes added)) items consistent registered

theorem applied_consistent (consistent : s.Consistent)
    (applied : applySpifToStore s registry = .ok t) : t.Consistent :=
  foldlM_invariant (fun _ _ _ held synced => sync_consistent held synced) _ consistent applied

theorem applied_files (applied : applySpifToStore s registry = .ok t) :
    t.spifPolicies = s.spifPolicies := by
  apply foldlM_invariant (p := fun u => u.spifPolicies = s.spifPolicies) _ _ rfl applied
  intro u policy v same synced
  rw [sync_rest synced]
  exact same

structure NatoHeld (s : PolicyStore) : Prop where
  consistent : s.Consistent
  held : "NATO" ∈ s.spifPolicies.map (·.policyId)

theorem withSpifRegistry_nato (registered : Registered registry)
    (made : PolicyAdministrationPoint.withSpifRegistry registry = .ok s) : NatoHeld s := by
  obtain ⟨ends, derived, made⟩ := bind_ok.mp made
  obtain ⟨withSource, first, made⟩ := bind_ok.mp made
  obtain ⟨withTarget, second, made⟩ := bind_ok.mp made
  obtain ⟨ruled, third, made⟩ := bind_ok.mp made
  obtain ⟨filed, fourth, applied⟩ := bind_ok.mp made
  have start : PolicyStore.new.Consistent := new_consistent {}
  have domains := changes_consistent (changes_consistent start (insertDomain_changes first))
    (insertDomain_changes second)
  unfold guardDomainsFromSpif at derived
  cases nato : registry.policies.get "NATO" with
  | none =>
    rw [nato] at derived
    cases derived
  | some policy =>
    rw [addSpifRule, nato] at third
    have rules := changes_consistent domains (insertCrossDomainPolicy_changes third)
    have files := registerAll_files _ fourth
    constructor
    · exact applied_consistent (registerAll_consistent _ rules fourth) applied
    · rw [applied_files applied, files]
      have stored := List.mem_map_of_mem (f := Prod.snd) (registry.policies.mem_of_get _ _ nato)
      exact List.mem_map.mpr ⟨policy, List.mem_append_right _ stored, registered _ _ nato⟩

variable {reader : SpifReader}

theorem changes_files (changed : Changes s t) : s.spifPolicies <+: t.spifPolicies := by
  cases changed with
  | fileRegistered policy fresh => exact List.prefix_append _ _
  | domainInserted d named => exact List.prefix_rfl
  | policyInserted p named source target fresh => exact List.prefix_rfl
  | policyRemoved position => exact List.prefix_rfl

theorem natoHeld_grown (held : NatoHeld s) (consistent : t.Consistent)
    (grown : s.spifPolicies <+: t.spifPolicies) : NatoHeld t :=
  ⟨consistent, List.map_subset _ grown.subset held.held⟩

variable (reader) in
theorem load_leaves (held : NatoHeld s) (xml : String) :
    ∃ files, s.spifPolicies <+: files ∧
      (PolicyAdministrationPoint.loadSpifXml reader xml s).2 = { s with spifPolicies := files } := by
  rcases loadSpifXml_cases reader held.consistent xml with failed | loads
  · obtain ⟨e, failed⟩ := failed
    rw [failed]
    exact ⟨s.spifPolicies, List.prefix_rfl, rfl⟩
  · obtain ⟨policy, t, _, loaded, done⟩ := loads
    have other : policy.policyId ≠ "NATO" := by
      intro nato
      exact loaded.fresh (nato ▸ held.held)
    have synced := loaded.synced
    rw [syncDomainReleasability, if_pos other] at synced
    obtain rfl := Except.ok.inj synced
    rw [done]
    exact ⟨s.spifPolicies ++ [policy], List.prefix_append _ _, rfl⟩

theorem then_pure_state {ε σ α β : Type} (x : Effect ε σ α) (b : β) (s : σ) :
    ((x >>= fun _ => pure b) s).2 = (x s).2 := by
  rw [Effect.bind_run]
  split
  · rename_i done
    rw [done]
    rfl
  · rename_i failed
    rw [failed]

theorem natoHeld_perform (held : NatoHeld s) (call : AdminCall) :
    NatoHeld (call.perform reader s).2 := by
  cases call with
  | onStore call =>
    have consistent := perform_consistent held.consistent call
    have performed : (AdminCall.perform reader (.onStore call) s).2 = (call.perform s).2 := rfl
    rw [performed]
    rcases perform_cases call s with failed | done
    · obtain ⟨e, failed⟩ := failed
      rw [failed]
      exact held
    · obtain ⟨reply, t, done, changed⟩ := done
      rw [done] at consistent ⊢
      exact natoHeld_grown held consistent (changes_files changed)
  | loadSpifXml xml =>
    obtain ⟨files, grown, left⟩ := load_leaves reader held xml
    have performed : (AdminCall.perform reader (.loadSpifXml xml) s).2 =
        (PolicyAdministrationPoint.loadSpifXml reader xml s).2 := then_pure_state _ _ _
    have consistent : (PolicyAdministrationPoint.loadSpifXml reader xml s).2.Consistent := by
      rcases loadSpifXml_cases reader held.consistent xml with failed | loads
      · obtain ⟨e, failed⟩ := failed
        rw [failed]
        exact held.consistent
      · obtain ⟨policy, t, _, loaded, done⟩ := loads
        rw [done]
        exact sync_consistent (changes_consistent held.consistent (.fileRegistered policy loaded.fresh))
          loaded.synced
    rw [performed]
    apply natoHeld_grown held consistent
    rw [left]
    exact grown

theorem natoHeld_afterAdmin (held : NatoHeld s) (calls : List AdminCall) :
    NatoHeld (afterAdmin reader s calls) := by
  induction calls generalizing s with
  | nil => exact held
  | cons call calls ih => exact ih (natoHeld_perform held call)

/-- A point made from a registry is never refreshed: whatever has been administered since, no file
that is loaded changes a domain, a rule or an answer. -/
theorem spif_point_never_refreshed (reader : SpifReader) (registered : Registered registry)
    (made : PolicyAdministrationPoint.withSpifRegistry registry = .ok s) (calls : List AdminCall)
    (xml : String) :
    let before := afterAdmin reader s calls
    let after := (PolicyAdministrationPoint.loadSpifXml reader xml before).2
    after.domains = before.domains ∧ after.crossDomainPolicies = before.crossDomainPolicies ∧
      ∀ context, PolicyDecisionPoint.evaluate after context =
        PolicyDecisionPoint.evaluate before context := by
  intro before after
  have held : NatoHeld before := natoHeld_afterAdmin (withSpifRegistry_nato registered made) calls
  obtain ⟨files, _, left⟩ := load_leaves reader held xml
  have left : after = { before with spifPolicies := files } := left
  rw [left]
  exact ⟨rfl, rfl, fun context => evaluate_alike rfl rfl fun _ _ => ⟨rfl, rfl⟩⟩

end SpifPoint

def natoReader : SpifReader where
  xmllint := fun _ _ => .error "xmllint not available"
  pull := fun _ => ([.start "identifier" [], .text "NATO", .finish "identifier",
    .start "securityCategory" [], .start "name" [], .text "Releasable To", .finish "name",
    .start "value" [], .text "USA", .finish "value", .finish "securityCategory"], none)

def natoXml : String := "<spif><securityPolicyId/><classification><identifier>"

def sideDomain (id : String) : SecurityDomain where
  id := ⟨id⟩
  name := id
  maxClassification := .secret
  releasableTo := ["DEU"]

def flowRule (id source target : String) : CrossDomainPolicy where
  id := id
  sourceDomain := ⟨source⟩
  targetDomain := ⟨target⟩

def flowContext : PolicyContext where
  subject := { subjectId := "operator", clearance := .secret }
  resource := .fromLabel (.new .nato .secret)
  environment := ⟨.crossDomainTransfer, ⟨"A"⟩, some ⟨"B"⟩, none⟩
  label := .new .nato .secret

def plainHistory : List AdminCall := [.onStore (.insertDomain (sideDomain "A")),
  .onStore (.insertDomain (sideDomain "B")), .loadSpifXml natoXml,
  .onStore (.insertCrossDomainPolicy (flowRule "r" "A" "B"))]

def busyHistory : List AdminCall := [.onStore (.insertDomain (sideDomain "A")),
  .onStore (.insertDomain (sideDomain "C")), .onStore (.insertCrossDomainPolicy (flowRule "r" "A" "C")),
  .onStore (.insertDomain (sideDomain "B")), .loadSpifXml natoXml, .loadSpifXml natoXml,
  .onStore (.removeCrossDomainPolicy "r"),
  .onStore (.insertCrossDomainPolicy (flowRule "r" "A" "B")),
  .onStore (.insertCrossDomainPolicy (flowRule "s" "C" "B"))]

theorem separate_flows_fixture :
    PolicyDecisionPoint.evaluate (afterAdmin natoReader { PolicyStore.new with downgrade := {} }
      plainHistory) flowContext =
    PolicyDecisionPoint.evaluate (afterAdmin natoReader { PolicyStore.new with downgrade := {} }
      busyHistory) flowContext :=
  separate_flows natoReader {} flowContext (by decide +kernel)

theorem withDefaults_registered : Registered SpifRegistry.withDefaults := by
  intro id policy found
  have listed := SpifRegistry.withDefaults.policies.mem_of_get id policy found
  have named : ∀ e ∈ SpifRegistry.withDefaults.policies.entries, e.2.policyId = e.1 := by
    decide +kernel
  exact named _ listed

theorem spif_point_never_refreshed_fixture :
    ∃ s, PolicyAdministrationPoint.withSpifRegistry .withDefaults = .ok s ∧
      let before := afterAdmin natoReader s plainHistory
      (PolicyAdministrationPoint.loadSpifXml natoReader natoXml before).2.domains = before.domains := by
  have makes : (PolicyAdministrationPoint.withSpifRegistry .withDefaults).isOk = true := by
    decide +kernel
  obtain ⟨s, made⟩ := isOk_iff.mp makes
  exact ⟨s, made,
    (spif_point_never_refreshed natoReader withDefaults_registered made plainHistory natoXml).1⟩

end MimPolicy
