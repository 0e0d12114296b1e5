import Mathlib.Logic.Relation

/-!
Runs of a deterministic transition function. `none` marks a label that cannot be
taken in the state it is offered in, so a run records completed steps only.
-/
namespace StepRuns

variable {S L : Type}

def run (step : S → L → Option S) (s : S) (labels : List L) : Option S := labels.foldlM step s

@[simp] theorem run_nil (step : S → L → Option S) (s : S) : run step s [] = some s := rfl

@[simp] theorem run_cons (step : S → L → Option S) (s : S) (l : L) (labels : List L) :
    run step s (l :: labels) = (step s l).bind fun mid => run step mid labels := by
  simp [run]

theorem run_append (step : S → L → Option S) (s : S) (before after : List L) :
    run step s (before ++ after) = (run step s before).bind fun mid => run step mid after := by
  simp [run]

/-- Every step the run takes is one that `good` allows. -/
def EveryStep (step : S → L → Option S) (good : S → L → S → Prop) : S → List L → Prop
  | _, [] => True
  | s, l :: labels => ∀ mid, step s l = some mid → good s l mid ∧ EveryStep step good mid labels

theorem everyStep_cons {step : S → L → Option S} {good : S → L → S → Prop} {s mid : S} {l : L}
    {labels : List L} (taken : step s l = some mid) :
    EveryStep step good s (l :: labels) ↔ good s l mid ∧ EveryStep step good mid labels := by
  constructor
  · intro all
    exact all mid taken
  · intro both other taken'
    obtain rfl := Option.some.inj (taken.symm.trans taken')
    exact both

theorem everyStep_iff_within (step : S → L → Option S) (inv : S → Prop)
    (admissible good guard : S → L → S → Prop)
    (exact' : ∀ s l mid, inv s → step s l = some mid → admissible s l mid →
      (good s l mid ↔ guard s l mid) ∧ (good s l mid → inv mid)) :
    ∀ labels s, inv s → EveryStep step admissible s labels →
      (EveryStep step good s labels ↔ EveryStep step guard s labels) := by
  intro labels
  induction labels with
  | nil => exact fun _ _ _ => Iff.rfl
  | cons l labels ih =>
    intro s here allowed
    constructor
    · intro all mid taken
      obtain ⟨good', rest⟩ := all mid taken
      obtain ⟨same, kept⟩ := exact' s l mid here taken (allowed mid taken).1
      exact ⟨same.mp good', (ih mid (kept good') (allowed mid taken).2).mp rest⟩
    · intro all mid taken
      obtain ⟨guard', rest⟩ := all mid taken
      obtain ⟨same, kept⟩ := exact' s l mid here taken (allowed mid taken).1
      have good' := same.mpr guard'
      exact ⟨good', (ih mid (kept good') (allowed mid taken).2).mpr rest⟩

theorem everyStep_of_forall (step : S → L → Option S) (good : S → L → S → Prop)
    (all : ∀ s l mid, step s l = some mid → good s l mid) :
    ∀ labels s, EveryStep step good s labels := by
  intro labels
  induction labels with
  | nil => exact fun _ => trivial
  | cons l labels ih => exact fun s mid taken => ⟨all s l mid taken, ih mid⟩

theorem everyStep_iff (step : S → L → Option S) (good : S → L → S → Prop) (guard : S → L → Prop)
    (exact' : ∀ s l mid, step s l = some mid → (good s l mid ↔ guard s l)) (labels : List L)
    (s : S) : EveryStep step good s labels ↔ EveryStep step (fun s l _ => guard s l) s labels :=
  everyStep_iff_within step (fun _ => True) (fun _ _ _ => True) good (fun s l _ => guard s l)
    (fun s l mid _ taken _ => ⟨exact' s l mid taken, fun _ => trivial⟩) labels s trivial
    (everyStep_of_forall step _ (fun _ _ _ _ => trivial) labels s)

theorem everyStep_kept (step : S → L → Option S) (good : S → L → S → Prop) (holds : S → Prop)
    (gives : ∀ s l next, holds s → step s l = some next → good s l next → holds next) :
    ∀ labels s final, holds s → EveryStep step good s labels → run step s labels = some final →
      holds final := by
  intro labels
  induction labels with
  | nil =>
    intro s final start _ reached
    simp only [run_nil, Option.some.injEq] at reached
    exact reached ▸ start
  | cons l labels ih =>
    intro s final start all reached
    rw [run_cons, Option.bind_eq_some_iff] at reached
    obtain ⟨mid, taken, rest⟩ := reached
    obtain ⟨here, later⟩ := all mid taken
    exact ih mid final (gives s l mid start taken here) later rest

theorem everyStep_reached (step : S → L → Option S) (good : S → L → S → Prop) (holds : S → Prop)
    (gives : ∀ s l next, holds s → good s l next → holds next) :
    ∀ labels s final, holds s → EveryStep step good s labels → run step s labels = some final →
      holds final :=
  everyStep_kept step good holds fun s l next here _ good' => gives s l next here good'

theorem everyStep_of_final (step : S → L → Option S) (label : L → Prop) (holds : S → Prop)
    (earlier : ∀ s l next, step s l = some next → holds next → holds s) :
    ∀ labels s final, (∀ l ∈ labels, label l) → run step s labels = some final → holds final →
      holds s ∧ EveryStep step (fun _ l next => label l ∧ holds next) s labels := by
  intro labels
  induction labels with
  | nil =>
    intro s final _ reached last
    simp only [run_nil, Option.some.injEq] at reached
    exact ⟨reached ▸ last, trivial⟩
  | cons l labels ih =>
    intro s final allowed reached last
    rw [run_cons, Option.bind_eq_some_iff] at reached
    obtain ⟨mid, taken, rest⟩ := reached
    obtain ⟨here, later⟩ := ih mid final (fun k mem => allowed k (List.mem_cons_of_mem _ mem)) rest
      last
    refine ⟨earlier s l mid taken here, fun other taken' => ?_⟩
    obtain rfl := Option.some.inj (taken.symm.trans taken')
    exact ⟨⟨allowed l List.mem_cons_self, here⟩, later⟩

theorem invariant (step : S → L → Option S) (inv : S → Prop)
    (preserved : ∀ s l next, inv s → step s l = some next → inv next)
    (labels : List L) (s final : S) (start : inv s) (reached : run step s labels = some final) :
    inv final :=
  everyStep_kept step (fun _ _ _ => True) inv (fun s l next here taken _ => preserved s l next here taken)
    labels s final start (everyStep_of_forall step _ (fun _ _ _ _ => trivial) labels s) reached

end StepRuns
