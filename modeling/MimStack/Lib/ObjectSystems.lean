import Mathlib.Data.List.Basic

/-!
Services that hold many objects. Each call concerns one object, named by a key;
where the answer to a call and its effect depend on that object alone, the whole
service is the product of one machine per object, and what a client sees of an
object follows from the calls on it, in whatever order calls on others came.
-/
namespace ObjectSystems

abbrev Service (S C A : Type) := S → C → Option (A × S)

section Serving

variable {S C A : Type}

/-- The answers to a sequence of calls, with the state they leave. -/
def serve (step : Service S C A) : S → List C → Option (List A × S)
  | s, [] => some ([], s)
  | s, c :: rest =>
    (step s c).bind fun first => (serve step first.2 rest).map fun r => (first.1 :: r.1, r.2)

theorem serve_cons {step : Service S C A} {s : S} {c : C} {rest : List C} {answers : List A}
    {final : S} : serve step s (c :: rest) = some (answers, final) ↔
      ∃ a mid more, step s c = some (a, mid) ∧ serve step mid rest = some (more, final) ∧
        answers = a :: more := by
  constructor
  · intro ran
    rw [serve, Option.bind_eq_some_iff] at ran
    obtain ⟨⟨a, mid⟩, first, ran⟩ := ran
    obtain ⟨⟨more, last⟩, later, same⟩ := Option.map_eq_some_iff.mp ran
    rw [Prod.mk.injEq] at same
    obtain ⟨rfl, rfl⟩ := same
    exact ⟨a, mid, more, first, later, rfl⟩
  · rintro ⟨a, mid, more, first, later, rfl⟩
    rw [serve, first, Option.bind_some, later, Option.map_some]

theorem serve_length {step : Service S C A} {s final : S} {calls : List C} {answers : List A}
    (ran : serve step s calls = some (answers, final)) : answers.length = calls.length := by
  induction calls generalizing s answers with
  | nil =>
    rw [serve, Option.some.injEq, Prod.mk.injEq] at ran
    rw [← ran.1]
    rfl
  | cons c rest ih =>
    obtain ⟨a, mid, more, _, later, rfl⟩ := serve_cons.mp ran
    rw [List.length_cons, List.length_cons, ih later]

theorem serve_append {step : Service S C A} {s final : S} {before after : List C}
    {answers : List A} (ran : serve step s (before ++ after) = some (answers, final)) :
    ∃ first mid second, serve step s before = some (first, mid) ∧
      serve step mid after = some (second, final) ∧ answers = first ++ second := by
  induction before generalizing s answers with
  | nil => exact ⟨[], s, answers, rfl, ran, rfl⟩
  | cons c rest ih =>
    rw [List.cons_append] at ran
    obtain ⟨a, next, more, one, later, rfl⟩ := serve_cons.mp ran
    obtain ⟨first, mid, second, ranFirst, ranSecond, rfl⟩ := ih later
    exact ⟨a :: first, mid, second, serve_cons.mpr ⟨a, next, first, one, ranFirst, rfl⟩, ranSecond,
      rfl⟩

theorem serve_keeps {step : Service S C A} {holds : S → Prop}
    (kept : ∀ s c a next, holds s → step s c = some (a, next) → holds next) {s final : S}
    {calls : List C} {answers : List A} (start : holds s)
    (ran : serve step s calls = some (answers, final)) : holds final := by
  induction calls generalizing s answers with
  | nil =>
    rw [serve, Option.some.injEq, Prod.mk.injEq] at ran
    exact ran.2 ▸ start
  | cons c rest ih =>
    obtain ⟨a, mid, more, first, later, rfl⟩ := serve_cons.mp ran
    exact ih (kept s c a mid start first) later

end Serving

section Objects

variable {S K V C A : Type} {key : C → K}

structure Separated (step : Service S C A) (object : Service V C A) (key : C → K)
    (view : S → K → V) (inv : S → Prop) : Prop where
  own : ∀ s c, inv s → (step s c).map (fun r => (r.1, view r.2 (key c))) = object (view s (key c)) c
  others : ∀ s c a next, inv s → step s c = some (a, next) →
    ∀ k, k ≠ key c → view next k = view s k
  kept : ∀ s c a next, inv s → step s c = some (a, next) → inv next

variable {step : Service S C A} {object : Service V C A} {view : S → K → V} {inv : S → Prop}

theorem object_answers (separated : Separated step object key view inv) {s next : S} {c : C} {a : A}
    (here : inv s) (ran : step s c = some (a, next)) :
    object (view s (key c)) c = some (a, view next (key c)) := by
  rw [← separated.own s c here, ran]
  rfl

variable [DecidableEq K]

def callsOn (key : C → K) (k : K) (calls : List C) : List C :=
  calls.filter fun c => decide (key c = k)

/-- The answers to the calls on one object, in their order. -/
def answersOn (key : C → K) (k : K) (calls : List C) (answers : List A) : List A :=
  ((calls.zip answers).filter fun p => decide (key p.1 = k)).map Prod.snd

theorem callsOn_zip (key : C → K) (k : K) {calls : List C} {answers : List A}
    (paired : answers.length = calls.length) :
    (callsOn key k calls).zip (answersOn key k calls answers) =
      (calls.zip answers).filter fun p => decide (key p.1 = k) := by
  induction calls generalizing answers with
  | nil => rfl
  | cons c rest ih =>
    cases answers with
    | nil => cases paired
    | cons a more =>
      have tail := ih (Nat.succ.inj paired)
      unfold callsOn answersOn at *
      by_cases same : key c = k
      · simp only [List.zip_cons_cons, List.filter_cons, same, decide_true, if_true, List.map_cons,
          tail]
      · simp only [List.zip_cons_cons, List.filter_cons, same, decide_false, Bool.false_eq_true,
          if_false, tail]

/-- One object's machine, offered the calls on it, gives the answers the service gave them. -/
theorem object_serves (separated : Separated step object key view inv) (k : K) {calls : List C}
    {s final : S} {answers : List A} (here : inv s)
    (ran : serve step s calls = some (answers, final)) :
    serve object (view s k) (callsOn key k calls) =
      some (answersOn key k calls answers, view final k) := by
  induction calls generalizing s answers with
  | nil =>
    rw [serve, Option.some.injEq, Prod.mk.injEq] at ran
    obtain ⟨rfl, rfl⟩ := ran
    rfl
  | cons c rest ih =>
    obtain ⟨a, mid, more, first, later, rfl⟩ := serve_cons.mp ran
    have tail := ih (separated.kept s c a mid here first) later
    by_cases same : key c = k
    · subst same
      have mine : callsOn key (key c) (c :: rest) = c :: callsOn key (key c) rest := by
        simp [callsOn]
      have told : answersOn key (key c) (c :: rest) (a :: more) =
          a :: answersOn key (key c) rest more := by
        simp [answersOn]
      rw [mine, told]
      exact serve_cons.mpr ⟨a, view mid (key c), _, object_answers separated here first, tail, rfl⟩
    · have notMine : callsOn key k (c :: rest) = callsOn key k rest := by
        simp [callsOn, same]
      have notTold : answersOn key k (c :: rest) (a :: more) = answersOn key k rest more := by
        simp [answersOn, same]
      rw [notMine, notTold, ← separated.others s c a mid here first k (fun h => same h.symm)]
      exact tail

theorem serves_of_objects (separated : Separated step object key view inv) {calls : List C} {s : S}
    (here : inv s)
    (each : ∀ k, (serve object (view s k) (callsOn key k calls)).isSome = true) :
    ∃ answers final, serve step s calls = some (answers, final) := by
  induction calls generalizing s with
  | nil => exact ⟨[], s, rfl⟩
  | cons c rest ih =>
    have mine : callsOn key (key c) (c :: rest) = c :: callsOn key (key c) rest := by
      simp [callsOn]
    have first := each (key c)
    rw [mine, serve, ← separated.own s c here] at first
    cases taken : step s c with
    | none =>
      rw [taken] at first
      cases first
    | some r =>
      obtain ⟨a, mid⟩ := r
      rw [taken, Option.map_some, Option.bind_some, Option.isSome_map] at first
      have rests : ∀ k, (serve object (view mid k) (callsOn key k rest)).isSome = true := by
        intro k
        by_cases same : key c = k
        · exact same ▸ first
        · have notMine : callsOn key k (c :: rest) = callsOn key k rest := by
            simp [callsOn, same]
          rw [separated.others s c a mid here taken k (fun h => same h.symm), ← notMine]
          exact each k
      obtain ⟨more, final, later⟩ := ih (separated.kept s c a mid here taken) rests
      exact ⟨a :: more, final, serve_cons.mpr ⟨a, mid, more, taken, later, rfl⟩⟩

/-- Two sequences that agree on the calls on each object and on their order. -/
def SameOnEach (key : C → K) (calls others : List C) : Prop :=
  ∀ k, callsOn key k calls = callsOn key k others

theorem reordered (separated : Separated step object key view inv) {calls others : List C}
    (same : SameOnEach key calls others) {s final : S} {answers : List A} (here : inv s)
    (ran : serve step s calls = some (answers, final)) :
    ∃ otherAnswers otherFinal, serve step s others = some (otherAnswers, otherFinal) ∧
      ∀ k, answersOn key k others otherAnswers = answersOn key k calls answers ∧
        view otherFinal k = view final k := by
  have each : ∀ k, (serve object (view s k) (callsOn key k others)).isSome = true := by
    intro k
    rw [← same k, object_serves separated k here ran]
    rfl
  obtain ⟨otherAnswers, otherFinal, ranOther⟩ := serves_of_objects separated here each
  refine ⟨otherAnswers, otherFinal, ranOther, fun k => ?_⟩
  have one := object_serves separated k here ran
  have two := object_serves separated k here ranOther
  rw [← same k, one, Option.some.injEq, Prod.mk.injEq] at two
  exact ⟨two.1.symm, two.2.symm⟩

theorem alone (separated : Separated step object key view inv) {calls mine : List C} {k : K}
    (all : callsOn key k calls = callsOn key k mine) {s final : S} {answers : List A} (here : inv s)
    (ran : serve step s calls = some (answers, final)) {ownAnswers : List A} {ownFinal : S}
    (ranAlone : serve step s mine = some (ownAnswers, ownFinal)) :
    answersOn key k calls answers = answersOn key k mine ownAnswers ∧
      view final k = view ownFinal k := by
  have one := object_serves separated k here ran
  have two := object_serves separated k here ranAlone
  rw [← all, one, Option.some.injEq, Prod.mk.injEq] at two
  exact two

end Objects

end ObjectSystems
