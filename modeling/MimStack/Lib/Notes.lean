import MimStack.Lib.Outcome

/-!
Computations that leave notes. The state takes every note somehow, and nothing is
ever read back from it; so the result is that of a plain computation, and the state
is the old one with the notes taken in their order.
-/
namespace Fallible.Effect

variable {ε ε' σ α β N : Type}

/-- The state after a sequence of notes. -/
def noteAll (note : N → σ → σ) (notes : List N) (s : σ) : σ := notes.foldl (fun t n => note n t) s

def Leaves (note : N → σ → σ) (x : Effect ε σ α) (plain : Except ε α) (notes : List N) : Prop :=
  ∀ s, x s = (plain, noteAll note notes s)

variable {note : N → σ → σ}

theorem leaves_of_eq {x : Effect ε σ α} {plain same : Except ε α} {notes : List N}
    (leaves : Leaves note x plain notes) (equal : plain = same) : Leaves note x same notes :=
  equal ▸ leaves

theorem noteAll_append (before after : List N) (s : σ) :
    noteAll note (before ++ after) s = noteAll note after (noteAll note before s) :=
  List.foldl_append

theorem leaves_ofExcept (x : Except ε α) : Leaves note (ofExcept x) x [] := fun _ => rfl

theorem leaves_pure (a : α) : Leaves note (pure a : Effect ε σ α) (.ok a) [] := fun _ => rfl

theorem leaves_fail (e : ε) : Leaves note (fail e : Effect ε σ α) (.error e) [] := fun _ => rfl

theorem leaves_note (n : N) : Leaves note (modify (note n) : Effect ε σ Unit) (.ok ()) [n] :=
  fun _ => rfl

theorem leaves_bind {x : Effect ε σ α} {f : α → Effect ε σ β} {a : α} {plain : Except ε β}
    {before after : List N} (first : Leaves note x (.ok a) before)
    (rest : Leaves note (f a) plain after) : Leaves note (x >>= f) plain (before ++ after) := by
  intro s
  rw [bind_of_ok (first s), rest, noteAll_append]

theorem leaves_after {x : Effect ε σ α} {f : α → Effect ε σ β} {a : α} {plain : Except ε β}
    {notes : List N} (first : Leaves note x (.ok a) []) (rest : Leaves note (f a) plain notes) :
    Leaves note (x >>= f) plain notes := leaves_bind first rest

theorem leaves_before {x : Effect ε σ α} {f : α → Effect ε σ β} {a : α} {plain : Except ε β}
    {notes : List N} (first : Leaves note x (.ok a) notes) (rest : Leaves note (f a) plain []) :
    Leaves note (x >>= f) plain notes := by
  have both := leaves_bind first rest
  rwa [List.append_nil] at both

theorem leaves_bind_error {x : Effect ε σ α} {f : α → Effect ε σ β} {e : ε} {before : List N}
    (first : Leaves note x (.error e) before) : Leaves note (x >>= f) (.error e) before :=
  fun s => bind_of_error (first s)

theorem leaves_mapError {x : Effect ε σ α} {plain : Except ε α} {notes : List N} (f : ε → ε')
    (inner : Leaves note x plain notes) : Leaves note (x.mapError f) (plain.mapError f) notes := by
  intro s
  unfold mapError
  rw [inner s]

def succeeds (x : Effect ε σ α) : Effect ε' σ Bool := fun s => (.ok (x s).1.isOk, (x s).2)

theorem leaves_succeeds {x : Effect ε σ α} {plain : Except ε α} {notes : List N}
    (inner : Leaves note x plain notes) :
    Leaves note (succeeds x : Effect ε' σ Bool) (.ok plain.isOk) notes := by
  intro s
  unfold succeeds
  rw [inner s]

end Fallible.Effect
