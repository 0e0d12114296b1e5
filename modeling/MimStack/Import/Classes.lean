import MimStack.Import.Owl

/-!
The class hierarchy of an ontology, walked up and walked down. A step goes from a
declared class to one of its parents, which need not be declared. The two walks
follow the same steps in opposite directions.
-/
namespace MimImport.OwlModel
open SortedStore Saturation Relation

/-- `name` is a declared class and `parent` one of its parents. -/
def ParentStep (owl : OwlModel) (name parent : String) : Prop :=
  ∃ c, owl.classes.get name = some c ∧ parent ∈ c.parents

theorem mem_parentsOf_iff (owl : OwlModel) (name parent : String) :
    parent ∈ owl.parentsOf name ↔ owl.ParentStep name parent := by
  unfold parentsOf ParentStep
  cases owl.classes.get name with
  | none => simp
  | some c => simp

theorem mem_children_iff (owl : OwlModel) (name child : String) :
    child ∈ owl.children name ↔ owl.ParentStep child name :=
  owl.mem_children child name

theorem parentStep_declared {owl : OwlModel} {name parent : String}
    (step : owl.ParentStep name parent) : name ∈ owl.classNames := by
  obtain ⟨c, found, _⟩ := step
  exact List.mem_map_of_mem (owl.classes.mem_of_get name c found)

theorem path_declared {owl : OwlModel} {name ancestor : String}
    (path : TransGen owl.ParentStep name ancestor) : name ∈ owl.classNames := by
  obtain ⟨parent, step, _⟩ := TransGen.head'_iff.mp path
  exact parentStep_declared step

theorem mem_ancestorsOf_path (owl : OwlModel) (className name : String) :
    name ∈ owl.ancestorsOf className ↔
      name ≠ className ∧ TransGen owl.ParentStep className name := by
  have distinct := (List.nodup_cons.mp (owl.ancestorsOf_ends className).2).1
  have steps : (fun a b => b ∈ owl.parentsOf a) = owl.ParentStep := by
    funext a b
    exact propext (owl.mem_parentsOf_iff a b)
  have walk := owl.mem_ancestorsOf_iff className name
  rw [steps, reflTransGen_iff_eq_or_transGen] at walk
  constructor
  · intro mem
    have other : name ≠ className := fun same => distinct (same ▸ mem)
    exact ⟨other, (walk.mp (.inr mem)).resolve_left other⟩
  · intro found
    exact (walk.mpr (.inr found.2)).resolve_left found.1

theorem mem_descendantsOf_path (owl : OwlModel) (root name : String) :
    name ∈ owl.descendantsOf root ↔ TransGen owl.ParentStep name root := by
  have steps : (fun a b => b ∈ owl.children a) = Function.swap owl.ParentStep := by
    funext a b
    exact propext (owl.mem_children_iff a b)
  rw [mem_descendantsOf_iff, steps, transGen_swap]

/-- Both walks end, find exactly what is reachable, and are converse to each other. -/
theorem class_reachability_exact (owl : OwlModel) :
    (∀ className,
      saturate owl.parentsOf ((owl.classes.values.flatMap (·.parents)).length + 1)
          ⟨[className], [className]⟩ = some (className :: owl.ancestorsOf className) ∧
        (owl.ancestorsOf className).Nodup ∧
        ∀ name, name ∈ owl.ancestorsOf className ↔
          name ≠ className ∧ TransGen owl.ParentStep className name) ∧
    (∀ root,
      saturate owl.children (owl.classes.size + 1) ⟨[], [root]⟩ =
          some (owl.descendantsOf root) ∧
        ∀ name, name ∈ owl.descendantsOf root ↔
          name ∈ owl.classNames ∧ TransGen owl.ParentStep name root) ∧
    ∀ a ∈ owl.classNames, ∀ r, a ≠ r → (a ∈ owl.descendantsOf r ↔ r ∈ owl.ancestorsOf a) := by
  refine ⟨?_, ?_, ?_⟩
  · intro className
    obtain ⟨ended, distinct⟩ := owl.ancestorsOf_ends className
    exact ⟨ended, (List.nodup_cons.mp distinct).2, owl.mem_ancestorsOf_path className⟩
  · intro root
    apply And.intro (owl.descendantsOf_ends root).1
    intro name
    rw [mem_descendantsOf_path]
    exact ⟨fun path => ⟨path_declared path, path⟩, fun both => both.2⟩
  · intro a _ r other
    rw [mem_descendantsOf_path, mem_ancestorsOf_path]
    exact ⟨fun path => ⟨other.symm, path⟩, fun both => both.2⟩

def cyclicClasses : OwlModel where
  classes := .ofList [
    ("A", { name := "A", parents := ["B", "Thing"] }),
    ("B", { name := "B", parents := ["A"] }),
    ("C", { name := "C", parents := ["B"] })]

example : cyclicClasses.ancestorsOf "C" = ["B", "A", "Thing"] := by decide
example : cyclicClasses.descendantsOf "A" = ["B", "A", "C"] := by decide

end MimImport.OwlModel
