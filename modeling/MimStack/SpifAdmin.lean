import MimStack.Policy

/-!
Administration by security policy files: the domains of a policy store take over
the release list of the NATO policy among the files loaded.
-/
namespace MimPolicy
open RustText IndexedMap IndexedMap.IndexMap Fallible MimLabeling MimSpif

def releasableValues (spif : SpifPolicy) : List String :=
  ((spif.categories.find? fun c => eqIgnoreAsciiCase c.name "Releasable To").map
    (·.allowedValues)).getD []

def syncDomainReleasability (store : PolicyStore) (spif : SpifPolicy) :
    Except PolicyError PolicyStore :=
  if spif.policyId ≠ "NATO" then .ok store
  else
    let releasable := releasableValues spif
    if releasable.isEmpty then .ok store
    else store.domains.values.foldlM
      (fun s domain => s.insertDomain (domain.withReleasableTo releasable)) store

/-- The order of the policies is the registry's own; one at most has the identifier that counts. -/
def applySpifToStore (store : PolicyStore) (registry : SpifRegistry) :
    Except PolicyError PolicyStore :=
  registry.policies.values.foldlM syncDomainReleasability store

def PolicyStore.Keyed (s : PolicyStore) : Prop :=
  ∀ id d, s.domains.get id = some d → d.id.text = id

def Registered (r : SpifRegistry) : Prop :=
  ∀ id policy, r.policies.get id = some policy → policy.policyId = id

theorem insertDomain_ok {s t : PolicyStore} {d : SecurityDomain} (inserted : s.insertDomain d = .ok t) :
    t = { s with domains := s.domains.insert d.id.text d } := by
  unfold PolicyStore.insertDomain at inserted
  split at inserted
  · cases inserted
  · exact (Except.ok.inj inserted).symm

theorem insertDomain_keyed {s t : PolicyStore} {d : SecurityDomain} (keyed : s.Keyed)
    (inserted : s.insertDomain d = .ok t) : t.Keyed := by
  obtain rfl := insertDomain_ok inserted
  exact get_insert_own (fun d : SecurityDomain => d.id.text) keyed d

theorem insertCrossDomainPolicy_domains {s t : PolicyStore} {p : CrossDomainPolicy}
    (inserted : s.insertCrossDomainPolicy p = .ok t) : t.domains = s.domains := by
  unfold PolicyStore.insertCrossDomainPolicy at inserted
  split_ifs at inserted
  exact (Except.ok.inj inserted) ▸ rfl

theorem registerSpifPolicy_domains {s t : PolicyStore} {p : SpifPolicy}
    (registered : s.registerSpifPolicy p = .ok t) : t.domains = s.domains := by
  unfold PolicyStore.registerSpifPolicy at registered
  split at registered
  · cases registered
  · exact (Except.ok.inj registered) ▸ rfl

theorem register_registered {r after : SpifRegistry} {policy : SpifPolicy} (registered : Registered r)
    (added : r.register policy = .ok after) : Registered after := by
  unfold SpifRegistry.register at added
  split at added
  · cases added
  · obtain rfl := Except.ok.inj added
    exact get_insert_own SpifPolicy.policyId registered policy

theorem insertDomains_domains (f : SecurityDomain → SecurityDomain) (items : List SecurityDomain)
    {s t : PolicyStore} (inserted : items.foldlM (fun s d => s.insertDomain (f d)) s = .ok t) :
    t.domains = s.domains.insertAll (items.map fun d => ((f d).id.text, f d)) := by
  induction items generalizing s with
  | nil => exact (Except.ok.inj inserted) ▸ rfl
  | cons d rest ih =>
    rw [List.foldlM_cons] at inserted
    obtain ⟨next, first, inserted⟩ := bind_ok.mp inserted
    rw [ih inserted, insertDomain_ok first]
    rfl

/-- What a release list does to a domain. -/
def released (countries : List String) (d : SecurityDomain) : SecurityDomain :=
  if countries.isEmpty then d else d.withReleasableTo countries

theorem sync_domains {store after : PolicyStore} {spif : SpifPolicy} (keyed : store.Keyed)
    (nato : spif.policyId = "NATO") (synced : syncDomainReleasability store spif = .ok after)
    (id : String) :
    after.domains.get id = (store.domains.get id).map (released (releasableValues spif)) := by
  rw [syncDomainReleasability, if_neg (not_not.mpr nato)] at synced
  dsimp only at synced
  by_cases empty : (releasableValues spif).isEmpty = true
  · rw [if_pos empty] at synced
    have same : released (releasableValues spif) = fun d => d := by
      funext d
      exact if_pos empty
    rw [same, Except.ok.inj synced]
    exact (congrFun Option.map_id _).symm
  · rw [if_neg empty] at synced
    have entries : store.domains.values.map (fun d => (d.id.text, released (releasableValues spif) d)) =
        store.domains.entries.map fun e => (e.1, released (releasableValues spif) e.2) := by
      rw [IndexMap.values, List.map_map]
      refine List.map_congr_left fun e mem => ?_
      exact congrArg (·, released _ e.2) (keyed e.1 e.2 (store.domains.get_of_mem e mem))
    have same : ∀ d : SecurityDomain, d.withReleasableTo (releasableValues spif) =
        released (releasableValues spif) d := fun d => (if_neg empty).symm
    rw [insertDomains_domains _ _ synced, ← get_insertAll_entries, ← entries]
    simp only [SecurityDomain.withReleasableTo, ← same]

theorem sync_others (items : List SpifPolicy) (others : ∀ p ∈ items, p.policyId ≠ "NATO")
    (store : PolicyStore) : items.foldlM syncDomainReleasability store = .ok store := by
  induction items generalizing store with
  | nil => rfl
  | cons p rest ih =>
    have passed : syncDomainReleasability store p = .ok store :=
      if_pos (others p List.mem_cons_self)
    rw [List.foldlM_cons, passed]
    exact ih (fun q mem => others q (List.mem_cons_of_mem _ mem)) store

def natoReleasable (registry : SpifRegistry) : List String :=
  ((registry.policies.get "NATO").map releasableValues).getD []

theorem applySpif_domains {store after : PolicyStore} {registry : SpifRegistry}
    (keyed : store.Keyed) (registered : Registered registry)
    (applied : applySpifToStore store registry = .ok after) (id : String) :
    after.domains.get id = (store.domains.get id).map (released (natoReleasable registry)) := by
  have named : ∀ e ∈ registry.policies.entries, e.2.policyId = e.1 := fun e mem =>
    registered e.1 e.2 (registry.policies.get_of_mem e mem)
  unfold applySpifToStore natoReleasable IndexMap.values at *
  cases found : registry.policies.get "NATO" with
  | none =>
    rw [sync_others] at applied
    · rw [Except.ok.inj applied]
      exact (congrFun Option.map_id _).symm
    · intro p mem nato
      obtain ⟨e, stored, rfl⟩ := List.mem_map.mp mem
      have here := registry.policies.get_of_mem e stored
      rw [← named e stored, nato, found] at here
      cases here
  | some spif =>
    obtain ⟨before, later, split, apartBefore, apartLater⟩ := registry.policies.entries_around found
    rw [split] at applied named
    have others : ∀ part : List (String × SpifPolicy), (∀ e ∈ part, e.1 ≠ "NATO") →
        (∀ e ∈ part, e.2.policyId = e.1) → ∀ p ∈ part.map Prod.snd, p.policyId ≠ "NATO" := by
      intro part apart own p mem
      obtain ⟨e, stored, rfl⟩ := List.mem_map.mp mem
      exact own e stored ▸ apart e stored
    rw [List.map_append, List.map_cons, List.foldlM_append,
      sync_others _ (others before apartBefore fun e mem => named e (List.mem_append_left _ mem))]
      at applied
    have applied : (spif :: later.map Prod.snd).foldlM syncDomainReleasability store = .ok after :=
      applied
    rw [List.foldlM_cons] at applied
    obtain ⟨synced, first, rest⟩ := bind_ok.mp applied
    rw [sync_others _ (others later apartLater fun e mem =>
      named e (List.mem_append_right _ (List.mem_cons_of_mem _ mem)))] at rest
    obtain rfl := Except.ok.inj rest
    exact sync_domains keyed (registered _ _ found) first id

theorem released_accepts (countries : List String) (d : SecurityDomain) (country : String) :
    (released countries d).acceptsCountry country =
      if countries.isEmpty then d.acceptsCountry country
      else d.admitsNationality country && countries.any (eqIgnoreAsciiCase · country) := by
  unfold released
  split
  · rfl
  · rename_i listed
    rw [acceptsCountry_eq]
    simp [SecurityDomain.withReleasableTo, SecurityDomain.admitsNationality, listed]

end MimPolicy
