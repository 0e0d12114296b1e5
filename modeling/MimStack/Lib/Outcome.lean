import Mathlib.Init

/-!
Fallible computations, alone and over a state that survives a failure. What a
sequence of steps needs in order to succeed is read off step by step.
-/
namespace Fallible

variable {ε ε' σ α β : Type}

theorem bind_ok {x : Except ε α} {f : α → Except ε β} {b : β} :
    (x >>= f) = .ok b ↔ ∃ a, x = .ok a ∧ f a = .ok b := by
  constructor
  · intro result
    cases x with
    | error e => cases result
    | ok a => exact ⟨a, rfl, result⟩
  · rintro ⟨a, rfl, result⟩
    exact result

theorem check_ok {x : Except ε Unit} {y : Except ε β} {b : β} :
    (x >>= fun _ => y) = .ok b ↔ x = .ok () ∧ y = .ok b := by
  constructor
  · intro result
    obtain ⟨_, passed, rest⟩ := bind_ok.mp result
    exact ⟨passed, rest⟩
  · rintro ⟨passed, rest⟩
    exact bind_ok.mpr ⟨(), passed, rest⟩

theorem pure_ok {a b : α} : (pure a : Except ε α) = .ok b ↔ a = b :=
  ⟨Except.ok.inj, congrArg Except.ok⟩

theorem bind_pure_ok {x : Except ε α} {f : α → β} :
    (∃ b, (x >>= fun a => pure (f a)) = .ok b) ↔ ∃ a, x = .ok a := by
  constructor
  · rintro ⟨b, result⟩
    obtain ⟨a, passed, _⟩ := bind_ok.mp result
    exact ⟨a, passed⟩
  · rintro ⟨a, passed⟩
    exact ⟨f a, bind_ok.mpr ⟨a, passed, rfl⟩⟩

theorem mapError_ok (x : Except ε α) (f : ε → ε') (a : α) :
    x.mapError f = .ok a ↔ x = .ok a := by
  cases x with
  | error e => exact ⟨nofun, nofun⟩
  | ok b => exact ⟨fun same => congrArg _ (Except.ok.inj same),
      fun same => congrArg _ (Except.ok.inj same)⟩

theorem map_ok {x : Except ε α} {f : α → β} {b : β} :
    x.map f = .ok b ↔ ∃ a, x = .ok a ∧ f a = b := by
  cases x with
  | error e => simp [Except.map]
  | ok a => simp [Except.map]

theorem throw_ok {e : ε} {b : α} : ¬ (throw e : Except ε α) = .ok b := by
  intro same
  cases same

theorem ok_or_error (x : Except ε Unit) : x = .ok () ∨ ∃ e, x = .error e := by
  cases x with
  | error e => exact .inr ⟨e, rfl⟩
  | ok _ => exact .inl rfl

theorem isOk_iff {x : Except ε α} : x.isOk = true ↔ ∃ a, x = .ok a := by
  cases x with
  | error e => exact ⟨nofun, nofun⟩
  | ok a => exact ⟨fun _ => ⟨a, rfl⟩, fun _ => rfl⟩

theorem ok_of_isOk {x : Except ε Unit} (passed : x.isOk = true) : x = .ok () := by
  obtain ⟨_, same⟩ := isOk_iff.mp passed
  exact same

theorem ok_of_any {x : Except ε α} {f : α → Except ε' β} {p : β → Bool}
    (passes : (x.toOption.bind fun a => (f a).toOption).any p = true) :
    ∃ a b, x = .ok a ∧ f a = .ok b ∧ p b = true := by
  cases x with
  | error e => cases passes
  | ok a =>
    cases second : f a with
    | error e =>
      simp only [Except.toOption, Option.bind_some, second, Option.any_none] at passes
      cases passes
    | ok b =>
      simp only [Except.toOption, Option.bind_some, second, Option.any_some] at passes
      exact ⟨a, b, rfl, second, passes⟩

theorem foldlM_invariant {f : σ → α → Except ε σ} {p : σ → Prop}
    (kept : ∀ s a t, p s → f s a = .ok t → p t) (items : List α) {s t : σ} (first : p s)
    (ran : items.foldlM f s = .ok t) : p t := by
  induction items generalizing s with
  | nil => exact Except.ok.inj ran ▸ first
  | cons a rest ih =>
    rw [List.foldlM_cons] at ran
    obtain ⟨next, step, ran⟩ := bind_ok.mp ran
    exact ih (kept s a next first step) ran

theorem foldlM_succeeds {f : σ → α → Except ε σ} (items : List α)
    (steps : ∀ s, ∀ a ∈ items, ∃ t, f s a = .ok t) (s : σ) : ∃ t, items.foldlM f s = .ok t := by
  induction items generalizing s with
  | nil => exact ⟨s, rfl⟩
  | cons a items ih =>
    obtain ⟨next, first⟩ := steps s a List.mem_cons_self
    obtain ⟨t, rest⟩ := ih (fun s b mem => steps s b (List.mem_cons_of_mem a mem)) next
    rw [List.foldlM_cons]
    exact ⟨t, bind_ok.mpr ⟨next, first, rest⟩⟩

theorem mapM_succeeds {f : α → Except ε β} {g : α → β} (items : List α)
    (steps : ∀ a ∈ items, f a = .ok (g a)) : items.mapM f = .ok (items.map g) := by
  induction items with
  | nil => rfl
  | cons a items ih =>
    have rest := ih fun b mem => steps b (List.mem_cons_of_mem a mem)
    rw [List.mapM_cons, steps a List.mem_cons_self]
    exact bind_ok.mpr ⟨g a, rfl, bind_ok.mpr ⟨items.map g, rest, rfl⟩⟩

/-- A computation that may fail and changes a state either way. -/
def Effect (ε σ α : Type) := σ → Except ε α × σ

namespace Effect

instance : Monad (Effect ε σ) where
  pure a := fun s => (.ok a, s)
  bind x f := fun s =>
    match x s with
    | (.ok a, t) => f a t
    | (.error e, t) => (.error e, t)

def fail (e : ε) : Effect ε σ α := fun s => (.error e, s)

def ofExcept (x : Except ε α) : Effect ε σ α := fun s => (x, s)

theorem ofExcept_run {x r : Except ε α} (result : x = r) (s : σ) : ofExcept x s = (r, s) :=
  Prod.ext result rfl

def observe (f : σ → Except ε α) : Effect ε σ α := fun s => (f s, s)

def modify (f : σ → σ) : Effect ε σ Unit := fun s => (.ok (), f s)

/-- Renames the error of a computation. -/
def mapError (f : ε → ε') (x : Effect ε σ α) : Effect ε' σ α :=
  fun s => ((x s).1.mapError f, (x s).2)

/-- From `s` the computation succeeds with `a` and ends in `t`. -/
def Yields (x : Effect ε σ α) (s : σ) (a : α) (t : σ) : Prop := x s = (.ok a, t)

variable {s t u : σ} {a : α} {b : β}

theorem bind_run (x : Effect ε σ α) (f : α → Effect ε σ β) (s : σ) :
    (x >>= f) s =
      match x s with
      | (.ok a, t) => f a t
      | (.error e, t) => (.error e, t) := rfl

theorem bind_of_ok {x : Effect ε σ α} {f : α → Effect ε σ β} (first : x s = (.ok a, t)) :
    (x >>= f) s = f a t := by
  rw [bind_run, first]

theorem bind_of_error {x : Effect ε σ α} {f : α → Effect ε σ β} {e : ε}
    (first : x s = (.error e, t)) : (x >>= f) s = (.error e, t) := by
  rw [bind_run, first]

theorem yields_bind {x : Effect ε σ α} {f : α → Effect ε σ β} :
    (x >>= f).Yields s b u ↔ ∃ a t, x.Yields s a t ∧ (f a).Yields t b u := by
  unfold Yields
  cases outcome : (x s).1 with
  | error e =>
    have failed : x s = (.error e, (x s).2) := Prod.ext outcome rfl
    rw [bind_of_error failed, failed]
    simp
  | ok a =>
    have done : x s = (.ok a, (x s).2) := Prod.ext outcome rfl
    rw [bind_of_ok done, done]
    constructor
    · intro rest
      exact ⟨a, (x s).2, rfl, rest⟩
    · rintro ⟨a, t, same, rest⟩
      cases same
      exact rest

theorem yields_then {x : Effect ε σ Unit} {y : Effect ε σ β} :
    (x >>= fun _ => y).Yields s b u ↔ ∃ t, x.Yields s () t ∧ y.Yields t b u := by
  rw [yields_bind]
  exact ⟨fun ⟨_, t, first, rest⟩ => ⟨t, first, rest⟩, fun ⟨t, first, rest⟩ => ⟨(), t, first, rest⟩⟩

theorem yields_ofExcept {x : Except ε α} : (ofExcept x).Yields s a t ↔ x = .ok a ∧ t = s := by
  simp only [Yields, ofExcept, Prod.mk.injEq, @eq_comm _ s]

theorem yields_observe {f : σ → Except ε α} :
    (observe f).Yields s a t ↔ f s = .ok a ∧ t = s := by
  simp only [Yields, observe, Prod.mk.injEq, @eq_comm _ s]

theorem yields_modify {f : σ → σ} : (modify f : Effect ε σ Unit).Yields s () t ↔ t = f s := by
  simp only [Yields, modify, Prod.mk.injEq, true_and, @eq_comm _ (f s)]

theorem yields_pure {c : α} : (pure c : Effect ε σ α).Yields s a t ↔ c = a ∧ t = s := by
  have unfolded : (pure c : Effect ε σ α) s = (.ok c, s) := rfl
  rw [Yields, unfolded, Prod.mk.injEq, Except.ok.injEq, @eq_comm _ s]

theorem yields_fail {e : ε} : ¬ (fail e : Effect ε σ α).Yields s a t := by
  intro result
  cases result

theorem yields_noted {x : Except ε α} {note : α → σ → σ} {f : α → Effect ε σ β} :
    (ofExcept x >>= fun a => modify (note a) >>= fun _ => f a).Yields s b t ↔
      ∃ a, x = .ok a ∧ (f a).Yields (note a s) b t := by
  rw [yields_bind]
  constructor
  · rintro ⟨a, _, first, rest⟩
    obtain ⟨result, rfl⟩ := yields_ofExcept.mp first
    obtain ⟨_, noted, rest⟩ := yields_then.mp rest
    exact ⟨a, result, yields_modify.mp noted ▸ rest⟩
  · rintro ⟨a, result, rest⟩
    exact ⟨a, s, yields_ofExcept.mpr ⟨result, rfl⟩,
      yields_then.mpr ⟨_, yields_modify.mpr rfl, rest⟩⟩

def Over {τ : Type} (π : τ → σ) (x : Effect ε τ α) (y : Effect ε σ α) : Prop :=
  ∀ s, (x s).1 = (y (π s)).1 ∧ π (x s).2 = (y (π s)).2

theorem over_bind {τ : Type} {π : τ → σ} {x : Effect ε τ α} {y : Effect ε σ α}
    {f : α → Effect ε τ β} {g : α → Effect ε σ β} (first : Over π x y)
    (rest : ∀ a, Over π (f a) (g a)) : Over π (x >>= f) (y >>= g) := by
  intro s
  obtain ⟨result, state⟩ := first s
  rw [bind_run, bind_run]
  rcases plain : y (π s) with ⟨outcome, after⟩
  rcases rich : x s with ⟨outcome', after'⟩
  rw [plain, rich] at result state
  obtain rfl : outcome' = outcome := result
  obtain rfl : π after' = after := state
  cases outcome' with
  | error e => exact ⟨rfl, rfl⟩
  | ok a => exact rest a after'

theorem over_ofExcept {τ : Type} {π : τ → σ} (x : Except ε α) :
    Over π (ofExcept x) (ofExcept x : Effect ε σ α) := fun _ => ⟨rfl, rfl⟩

theorem over_fail {τ : Type} {π : τ → σ} (e : ε) :
    Over π (fail e) (fail e : Effect ε σ α) := fun _ => ⟨rfl, rfl⟩

theorem over_pure {τ : Type} {π : τ → σ} (a : α) :
    Over π (pure a) (pure a : Effect ε σ α) := fun _ => ⟨rfl, rfl⟩

theorem over_modify {τ : Type} {π : τ → σ} {f : τ → τ} {g : σ → σ} (same : ∀ s, π (f s) = g (π s)) :
    Over π (modify f) (modify g : Effect ε σ Unit) := fun s => ⟨rfl, same s⟩

theorem over_mapError {τ : Type} {π : τ → σ} {f : ε → ε'} {x : Effect ε τ α} {y : Effect ε σ α}
    (inner : Over π x y) : Over π (x.mapError f) (y.mapError f) :=
  fun s => ⟨congrArg (Except.mapError f) (inner s).1, (inner s).2⟩

/-- What holds of the state before the computation holds after it, failed or not. -/
def Keeps (I : σ → Prop) (x : Effect ε σ α) : Prop := ∀ s, I s → I (x s).2

theorem keeps_bind {I : σ → Prop} {x : Effect ε σ α} {f : α → Effect ε σ β} (first : Keeps I x)
    (rest : ∀ a, Keeps I (f a)) : Keeps I (x >>= f) := by
  intro s before
  have between := first s before
  rw [bind_run]
  rcases outcome : x s with ⟨e | a, t⟩
  · rw [outcome] at between
    exact between
  · rw [outcome] at between
    exact rest a t between

theorem keeps_ofExcept {I : σ → Prop} (x : Except ε α) : Keeps I (ofExcept x) :=
  fun _ before => before

theorem keeps_fail {I : σ → Prop} (e : ε) : Keeps I (fail e : Effect ε σ α) :=
  fun _ before => before

theorem keeps_pure {I : σ → Prop} (a : α) : Keeps I (pure a : Effect ε σ α) :=
  fun _ before => before

theorem keeps_modify {I : σ → Prop} {f : σ → σ} (kept : ∀ s, I s → I (f s)) :
    Keeps I (modify f : Effect ε σ Unit) := kept

theorem keeps_mapError {I : σ → Prop} {f : ε → ε'} {x : Effect ε σ α} (kept : Keeps I x) :
    Keeps I (x.mapError f) := kept

theorem yields_mapError {f : ε → ε'} {x : Effect ε σ α} :
    (x.mapError f).Yields s a t ↔ x.Yields s a t := by
  simp only [Yields, mapError, Prod.ext_iff, Fallible.mapError_ok]

end Effect

end Fallible
