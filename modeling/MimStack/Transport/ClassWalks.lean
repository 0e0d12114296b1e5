import MimStack.Transport.Broker

/-!
Validation and puts follow the parent links of a class. A registry that was
loaded can still hold links that lead back to where they started.
-/
namespace MimTransport
open SuccessorWalk IndexedMap RustText MimCore MimModel MimRuntime ExchangeBroker

theorem ancestorsOf_isSome_iff (r : ModelRegistry) (className : String) :
    (r.ancestorsOf className).isSome ↔
      ∃ fuel path, walk r.parentOf fuel (r.parentOf className) = some path := by
  constructor
  · intro returned
    obtain ⟨path, ended⟩ := Option.isSome_iff_exists.mp returned
    exact ⟨_, path, ended⟩
  · rintro ⟨fuel, path, ended⟩
    rw [ancestorsOf_some r className path fuel ended]
    rfl

theorem validateInstance_isSome {r : ModelRegistry} {i : MimInstance}
    (returned : (r.ancestorsOf i.className).isSome) : (validateInstance r i).isSome := by
  unfold validateInstance
  split
  · rfl
  · rw [Option.isSome_map, validateRequiredAttributes, Option.isSome_map]
    exact returned

theorem putObject_isSome {b : ExchangeBroker} {request : PutObjectRequest}
    (returned : (validateInstance b.registry request.inst).isSome) :
    (b.putObject request).isSome := by
  have validated : (validatePut b.registry request.inst).isSome := by
    unfold validatePut
    split
    · rfl
    · rw [Option.isSome_map]
      exact returned
  unfold ExchangeBroker.putObject
  split
  · rename_i stuck
    rw [stuck] at validated
    cases validated
  · rfl
  · rfl

/-- The walk from every class ends, and so do validation and puts of every instance. -/
structure WalksEnd (r : ModelRegistry) : Prop where
  ancestors : ∀ className, ∃ fuel path, walk r.parentOf fuel (r.parentOf className) = some path
  validates : ∀ i, (validateInstance r i).isSome
  puts : ∀ b : ExchangeBroker, b.registry = r → ∀ request, (b.putObject request).isSome

/-- In a loaded registry every walk ends when no class of the manifest is its own ancestor. -/
theorem class_walks_end_iff {manifest : MimManifest} {r : ModelRegistry}
    (loaded : ModelRegistry.fromManifest manifest = .ok r) :
    WalksEnd r ↔ ∀ className,
      ¬ Relation.TransGen (Follows manifest.parentOf) className className := by
  rw [← parentOf_fromManifest loaded, ← walks_end_iff r.parentOf r.knownNames (parentOf_known r)]
  constructor
  · intro ends
    exact ends.ancestors
  · intro ends
    have returned : ∀ className, (r.ancestorsOf className).isSome := fun className =>
      (ancestorsOf_isSome_iff r className).mpr (ends className)
    refine ⟨ends, fun i => validateInstance_isSome (returned i.className), ?_⟩
    rintro b rfl request
    exact putObject_isSome (validateInstance_isSome (returned request.inst.className))

def nodeUnder (name : String) (parent : Option String) : TaxonomyNode where
  name := name
  parent := parent

def wireUnder (parent : Option String) : MimManifest where
  taxonomy := [nodeUnder "Object" none, nodeUnder "Wire" parent]
  elements := []
  codeLists := []

def wireUnderRegistry (parent : Option String) : ModelRegistry where
  taxonomyByName := IndexMap.ofList
    [("Object", nodeUnder "Object" none), ("Wire", nodeUnder "Wire" parent)]
  elementsBySemanticId := IndexMap.ofList []
  elementsByName := IndexMap.ofList []
  codeListsByName := IndexMap.ofList []

/-- A class that is its own parent is loaded, and no put of an instance of it returns. -/
theorem own_parent_never_put :
    let r := wireUnderRegistry (some "Wire")
    ModelRegistry.fromManifest (wireUnder (some "Wire")) = .ok r ∧
      (∀ fuel, walk r.parentOf fuel (r.parentOf "Wire") = none) ∧
      validateInstance r (wireInstance "a" {}) = none ∧
      (ExchangeBroker.new r).putObject ⟨wireInstance "a" {}⟩ = none ∧ ¬ WalksEnd r := by
  intro r
  have stuck : ∀ fuel, walk r.parentOf fuel (r.parentOf "Wire") = none :=
    ancestorsOf_none r "Wire" (by decide +kernel)
  have unvalidated : validateInstance r (wireInstance "a" {}) = none := by decide +kernel
  refine ⟨rfl, stuck, unvalidated, ?_, fun ends => ?_⟩
  · rw [ExchangeBroker.putObject, validatePut, wireInstance_structural "a" {} (by decide),
      show (ExchangeBroker.new r).registry = r from rfl, unvalidated]
    rfl
  · obtain ⟨fuel, path, ended⟩ := ends.ancestors "Wire"
    rw [stuck fuel] at ended
    cases ended

theorem class_walks_end_fixture : WalksEnd (wireUnderRegistry (some "Object")) := by
  have loaded : ModelRegistry.fromManifest (wireUnder (some "Object")) =
      .ok (wireUnderRegistry (some "Object")) := rfl
  refine (class_walks_end_iff loaded).mpr fun className cycle => ?_
  have one_link : ∀ a b, Follows (wireUnder (some "Object")).parentOf a b →
      a = "Wire" ∧ b = "Object" := by
    intro a b linked
    by_cases wire : a = "Wire"
    · subst wire
      exact ⟨rfl, (Option.some.inj linked).symm⟩
    · by_cases object : a = "Object"
      · subst object
        cases linked
      · simp [Follows, MimManifest.parentOf, wireUnder, nodeUnder, Ne.symm wire, Ne.symm object] at linked
  obtain ⟨parent, first, _⟩ := Relation.TransGen.head'_iff.mp cycle
  obtain ⟨child, _, last⟩ := Relation.TransGen.tail'_iff.mp cycle
  have wire := (one_link _ _ first).1
  have object := (one_link _ _ last).2
  exact absurd (wire.symm.trans object) (by decide)

end MimTransport
