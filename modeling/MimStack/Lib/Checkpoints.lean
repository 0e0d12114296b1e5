import MimStack.Lib.ObjectSystems

/-!
Services that keep their state in a file. A node serves calls from the state in memory, is saved
now and then, and starts again from what it was last saved as. What it answers is decided by the
calls that survive: those up to the save it last started from, and those since.
-/
namespace Checkpoints
open ObjectSystems

inductive Event (C : Type) where
  | call (c : C)
  | save
  | restart

/-- How a state is written over a file, and what is read from one. -/
structure Disk (S F : Type) where
  write : S → F → F
  read : F → Option S

structure Node (S F : Type) where
  live : S
  file : F

variable {S F C A : Type}

/-- A node answers calls only; it does not come up from a file that cannot be read. -/
def node (step : Service S C A) (disk : Disk S F) : Service (Node S F) (Event C) (Option A) :=
  fun n event =>
    match event with
    | .call c => (step n.live c).map fun r => (some r.1, { n with live := r.2 })
    | .save => some (none, { n with file := disk.write n.live n.file })
    | .restart => (disk.read n.file).map fun s => (none, { n with live := s })

def savedAt (n : Node S F) : Event C → List (Node S F)
  | .save => [n]
  | .call _ => []
  | .restart => []

/-- The node wherever it is saved. -/
def saved (step : Service S C A) (disk : Disk S F) : Node S F → List (Event C) → List (Node S F)
  | _, [] => []
  | n, event :: rest =>
    savedAt n event ++
      match node step disk n event with
      | some r => saved step disk r.2 rest
      | none => []

structure Surviving (C : Type) where
  saved : List C := []
  live : List C := []

def Surviving.after (k : Surviving C) : Event C → Surviving C
  | .call c => { k with live := k.live ++ [c] }
  | .save => { k with saved := k.live }
  | .restart => { k with live := k.saved }

def surviving (events : List (Event C)) : Surviving C := events.foldl Surviving.after {}

structure Alike (step : Service S C A) (same : S → S → Prop) : Prop where
  refl : ∀ s, same s s
  trans : ∀ {s t u}, same s t → same t u → same s u
  step : ∀ {s t c a next}, same s t → step s c = some (a, next) →
    ∃ other, step t c = some (a, other) ∧ same next other

variable {step : Service S C A} {disk : Disk S F} {same : S → S → Prop} {start : S}

theorem node_call {n : Node S F} {c : C} {a : A} {s : S} (taken : step n.live c = some (a, s)) :
    node step disk n (.call c) = some (some a, { n with live := s }) := by
  simp only [node, taken, Option.map_some]

theorem node_restart {n : Node S F} {s : S} (read : disk.read n.file = some s) :
    node step disk n .restart = some (none, { n with live := s }) := by
  simp only [node, read, Option.map_some]

theorem serve_snoc {s mid final : S} {calls : List C} {c : C} {answers : List A} {a : A}
    (before : serve step s calls = some (answers, mid)) (last : step mid c = some (a, final)) :
    serve step s (calls ++ [c]) = some (answers ++ [a], final) := by
  induction calls generalizing s answers with
  | nil =>
    rw [serve, Option.some.injEq, Prod.mk.injEq] at before
    obtain ⟨rfl, rfl⟩ := before
    exact serve_cons.mpr ⟨a, final, [], last, rfl, rfl⟩
  | cons d rest ih =>
    obtain ⟨b, next, more, first, later, rfl⟩ := serve_cons.mp before
    exact serve_cons.mpr ⟨b, next, more ++ [a], first, ih later, rfl⟩

def StandsFor (step : Service S C A) (same : S → S → Prop) (start s : S) (calls : List C) : Prop :=
  ∃ answers t, serve step start calls = some (answers, t) ∧ same s t

structure Tracks (step : Service S C A) (disk : Disk S F) (same : S → S → Prop) (start : S)
    (k : Surviving C) (n : Node S F) : Prop where
  live : StandsFor step same start n.live k.live
  file : ∃ s, disk.read n.file = some s ∧ StandsFor step same start s k.saved

/-- What a save writes is read as a state like the one saved. -/
def ReadsBack (disk : Disk S F) (same : S → S → Prop) (n : Node S F) : Prop :=
  ∃ s, disk.read (disk.write n.live n.file) = some s ∧ same s n.live

theorem standsFor_like (alike : Alike step same) {s t : S} {calls : List C} (like : same s t)
    (stands : StandsFor step same start t calls) : StandsFor step same start s calls := by
  obtain ⟨answers, u, ran, close⟩ := stands
  exact ⟨answers, u, ran, alike.trans like close⟩

theorem standsFor_step (alike : Alike step same) {s next : S} {calls : List C} {c : C} {a : A}
    (stands : StandsFor step same start s calls) (taken : step s c = some (a, next)) :
    StandsFor step same start next (calls ++ [c]) := by
  obtain ⟨answers, t, ran, close⟩ := stands
  obtain ⟨other, there, like⟩ := alike.step close taken
  exact ⟨_, other, serve_snoc ran there, like⟩

theorem tracks_step (alike : Alike step same) {k : Surviving C} {n next : Node S F} {event : Event C}
    {answer : Option A} (tracks : Tracks step disk same start k n)
    (reads : event = .save → ReadsBack disk same n)
    (taken : node step disk n event = some (answer, next)) :
    Tracks step disk same start (k.after event) next := by
  cases event with
  | call c =>
    obtain ⟨⟨a, s⟩, ran, made⟩ := Option.map_eq_some_iff.mp taken
    obtain ⟨_, rfl⟩ := Prod.mk.inj made
    exact ⟨standsFor_step alike tracks.live ran, tracks.file⟩
  | save =>
    obtain ⟨_, rfl⟩ := Prod.mk.inj (Option.some.inj taken)
    obtain ⟨s, read, like⟩ := reads rfl
    exact ⟨tracks.live, s, read, standsFor_like alike like tracks.live⟩
  | restart =>
    obtain ⟨s, read, made⟩ := Option.map_eq_some_iff.mp taken
    obtain ⟨_, rfl⟩ := Prod.mk.inj made
    obtain ⟨other, there, stands⟩ := tracks.file
    obtain rfl := Option.some.inj (there.symm.trans read)
    exact ⟨stands, tracks.file⟩

theorem saved_cons_call {n next : Node S F} {event : Event C} {answer : Option A}
    {rest : List (Event C)} (taken : node step disk n event = some (answer, next)) :
    saved step disk n (event :: rest) =
      savedAt n event ++ saved step disk next rest := by
  rw [saved, taken]

theorem saved_keeps {holds : Node S F → Prop}
    (kept : ∀ n event answer next, holds n → node step disk n event = some (answer, next) →
      holds next) (events : List (Event C)) {n : Node S F} (start : holds n) :
    ∀ m ∈ saved step disk n events, holds m := by
  induction events generalizing n with
  | nil =>
    intro m mem
    cases mem
  | cons event rest ih =>
    intro m mem
    rw [saved] at mem
    rcases List.mem_append.mp mem with here | later
    · cases event with
      | call c => cases here
      | restart => cases here
      | save =>
        rw [List.mem_singleton.mp here]
        exact start
    · cases taken : node step disk n event with
      | none =>
        rw [taken] at later
        cases later
      | some r =>
        rw [taken] at later
        exact ih (kept n event r.1 r.2 start taken) m later

/-- However calls, saves and restarts follow each other, memory and file stand for the calls that
survive. -/
theorem tracks_run (alike : Alike step same) (events : List (Event C)) {k : Surviving C}
    {n final : Node S F} {answers : List (Option A)} (tracks : Tracks step disk same start k n)
    (reads : ∀ m ∈ saved step disk n events, ReadsBack disk same m)
    (ran : serve (node step disk) n events = some (answers, final)) :
    Tracks step disk same start (events.foldl Surviving.after k) final := by
  induction events generalizing k n answers with
  | nil =>
    rw [serve, Option.some.injEq, Prod.mk.injEq] at ran
    exact ran.2 ▸ tracks
  | cons event rest ih =>
    obtain ⟨answer, next, more, first, later, rfl⟩ := serve_cons.mp ran
    rw [saved_cons_call first] at reads
    refine ih (tracks_step alike tracks ?_ first)
      (fun m mem => reads m (List.mem_append_right _ mem)) later
    intro isSave
    subst isSave
    exact reads n List.mem_cons_self

end Checkpoints
