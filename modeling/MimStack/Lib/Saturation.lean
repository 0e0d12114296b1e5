import Mathlib.Data.Finset.Card
import Mathlib.Logic.Relation
import Mathlib.Logic.Function.Iterate

/-!
Two loops that run until nothing is left to do: a worklist that visits what can be
reached, each point once, and a step that is repeated until a count stays the same.
Over a finite set of points both end, and the bounds below are enough for that.
-/
namespace Saturation

section Worklist

variable {X : Type} [DecidableEq X]

/-- The points found so far and those of them whose successors are still to be looked at. -/
structure Frontier (X : Type) where
  seen : List X
  queue : List X

def visit (s : Frontier X) (y : X) : Frontier X :=
  if y ∈ s.seen then s else ⟨s.seen ++ [y], y :: s.queue⟩

/-- `none` when the queue is not empty after `fuel` of its points. -/
def saturate (next : X → List X) : Nat → Frontier X → Option (List X)
  | _, ⟨seen, []⟩ => some seen
  | 0, ⟨_, _ :: _⟩ => none
  | fuel + 1, ⟨seen, x :: queue⟩ => saturate next fuel ((next x).foldl visit ⟨seen, queue⟩)

theorem mem_visitAll_seen (ys : List X) (s : Frontier X) (x : X) :
    x ∈ (ys.foldl visit s).seen ↔ x ∈ s.seen ∨ x ∈ ys := by
  induction ys generalizing s with
  | nil => simp
  | cons y ys ih =>
    rw [List.foldl_cons, ih, visit]
    split
    · rename_i known
      rw [List.mem_cons]
      constructor
      · rintro (old | later)
        · exact .inl old
        · exact .inr (.inr later)
      · rintro (old | rfl | later)
        · exact .inl old
        · exact .inl known
        · exact .inr later
    · simp only [List.mem_append, List.mem_cons, List.not_mem_nil, or_false, or_assoc]

theorem mem_visitAll_queue (ys : List X) (s : Frontier X) (x : X) :
    x ∈ (ys.foldl visit s).queue ↔ x ∈ s.queue ∨ x ∈ ys ∧ x ∉ s.seen := by
  induction ys generalizing s with
  | nil => simp
  | cons y ys ih =>
    rw [List.foldl_cons, ih, visit]
    split
    · rename_i known
      rw [List.mem_cons]
      constructor
      · rintro (old | ⟨later, fresh⟩)
        · exact .inl old
        · exact .inr ⟨.inr later, fresh⟩
      · rintro (old | ⟨rfl | later, fresh⟩)
        · exact .inl old
        · exact absurd known fresh
        · exact .inr ⟨later, fresh⟩
    · rename_i unknown
      simp only [List.mem_cons, List.mem_append, List.not_mem_nil, or_false, not_or]
      by_cases same : x = y
      · subst same
        simp [unknown]
      · simp [same]

/-- What holds of a frontier on the way from `root`: only reachable points are found, and the
successors of every point that is no longer queued are among them. -/
structure Sweep (next : X → List X) (known : List X) (root : X) (s : Frontier X) : Prop where
  kept : ∀ x ∈ known, x ∈ s.seen
  found : ∀ x ∈ s.seen, x ∈ known ∨ Relation.TransGen (fun a b => b ∈ next a) root x
  queued : ∀ x ∈ s.queue, x = root ∨ x ∈ s.seen
  closed : ∀ x, x = root ∨ x ∈ s.seen → x ∈ s.queue ∨ ∀ y ∈ next x, y ∈ s.seen

theorem sweep_step {next : X → List X} {known seen queue : List X} {root x : X}
    (start : ∀ y ∈ known, y = root) (sweep : Sweep next known root ⟨seen, x :: queue⟩) :
    Sweep next known root ((next x).foldl visit ⟨seen, queue⟩) where
  kept y mem := (mem_visitAll_seen ..).mpr (.inl (sweep.kept y mem))
  found y mem := by
    rcases (mem_visitAll_seen ..).mp mem with old | fresh
    · exact sweep.found y old
    · have rooted : x = root ∨ Relation.TransGen (fun a b => b ∈ next a) root x := by
        rcases sweep.queued x List.mem_cons_self with here | there
        · exact .inl here
        · exact (sweep.found x there).imp_left (start x)
      rcases rooted with rfl | path
      · exact .inr (.single fresh)
      · exact .inr (path.tail fresh)
  queued y mem := by
    rw [mem_visitAll_seen]
    rcases (mem_visitAll_queue ..).mp mem with old | ⟨fresh, _⟩
    · exact (sweep.queued y (List.mem_cons_of_mem _ old)).imp_right .inl
    · exact .inr (.inr fresh)
  closed y here := by
    simp only [mem_visitAll_seen, mem_visitAll_queue] at here ⊢
    by_cases known : y = root ∨ y ∈ seen
    · rcases sweep.closed y known with waiting | done
      · rcases List.mem_cons.mp waiting with rfl | later
        · exact .inr fun z mem => .inr mem
        · exact .inl (.inl later)
      · exact .inr fun z mem => .inl (done z mem)
    · obtain ⟨notRoot, unseen⟩ := not_or.mp known
      rcases here with root | old | fresh
      · exact absurd root notRoot
      · exact absurd old unseen
      · exact .inl (.inr ⟨fresh, unseen⟩)

theorem sweep_run {next : X → List X} {known found : List X} {root : X}
    (start : ∀ y ∈ known, y = root) (fuel : Nat) (s : Frontier X)
    (sweep : Sweep next known root s) (ended : saturate next fuel s = some found) :
    Sweep next known root ⟨found, []⟩ := by
  induction fuel generalizing s with
  | zero =>
    obtain ⟨seen, queue⟩ := s
    cases queue with
    | nil => exact Option.some.inj ended ▸ sweep
    | cons x queue => cases ended
  | succ fuel ih =>
    obtain ⟨seen, queue⟩ := s
    cases queue with
    | nil => exact Option.some.inj ended ▸ sweep
    | cons x queue => exact ih _ (sweep_step start sweep) ended

theorem mem_saturate_iff {next : X → List X} {known found : List X} {root : X} {fuel : Nat}
    (start : ∀ y ∈ known, y = root) (ended : saturate next fuel ⟨known, [root]⟩ = some found)
    (x : X) : x ∈ found ↔ x ∈ known ∨ Relation.TransGen (fun a b => b ∈ next a) root x := by
  have first : Sweep next known root ⟨known, [root]⟩ := by
    refine ⟨fun y mem => mem, fun y mem => .inl mem, fun y mem => .inl (List.mem_singleton.mp mem),
      fun y here => .inl (List.mem_singleton.mpr ?_)⟩
    exact here.elim id (start y)
  have sweep := sweep_run start fuel _ first ended
  have closed : ∀ y, y = root ∨ y ∈ found → ∀ z ∈ next y, z ∈ found := by
    intro y here
    exact (sweep.closed y here).resolve_left List.not_mem_nil
  constructor
  · exact sweep.found x
  · rintro (mem | path)
    · exact sweep.kept x mem
    · induction path with
      | single edge => exact closed root (.inl rfl) _ edge
      | tail _ edge ih => exact closed _ (.inr ih) _ edge

theorem saturate_prefix {next : X → List X} {found : List X} (fuel : Nat) (s : Frontier X)
    (ended : saturate next fuel s = some found) : s.seen <+: found := by
  have visited : ∀ (ys : List X) (s : Frontier X), s.seen <+: (ys.foldl visit s).seen := by
    intro ys
    induction ys with
    | nil => exact fun s => List.prefix_refl _
    | cons y ys ih =>
      intro s
      refine List.IsPrefix.trans ?_ (ih (visit s y))
      unfold visit
      split
      · exact List.prefix_refl _
      · exact List.prefix_append _ _
  induction fuel generalizing s with
  | zero =>
    obtain ⟨seen, queue⟩ := s
    cases queue with
    | nil => exact Option.some.inj ended ▸ List.prefix_refl _
    | cons x queue => cases ended
  | succ fuel ih =>
    obtain ⟨seen, queue⟩ := s
    cases queue with
    | nil => exact Option.some.inj ended ▸ List.prefix_refl _
    | cons x queue => exact (visited (next x) ⟨seen, queue⟩).trans (ih _ ended)

theorem saturate_nodup {next : X → List X} {found : List X} (fuel : Nat) (s : Frontier X)
    (distinct : s.seen.Nodup) (ended : saturate next fuel s = some found) : found.Nodup := by
  have visited : ∀ (ys : List X) (s : Frontier X), s.seen.Nodup →
      (ys.foldl visit s).seen.Nodup := by
    intro ys
    induction ys with
    | nil => exact fun s distinct => distinct
    | cons y ys ih =>
      intro s distinct
      apply ih (visit s y)
      unfold visit
      split
      · exact distinct
      · rename_i fresh
        exact List.nodup_append_comm.mp (List.nodup_cons.mpr ⟨fresh, distinct⟩)
  induction fuel generalizing s with
  | zero =>
    obtain ⟨seen, queue⟩ := s
    cases queue with
    | nil => exact Option.some.inj ended ▸ distinct
    | cons x queue => cases ended
  | succ fuel ih =>
    obtain ⟨seen, queue⟩ := s
    cases queue with
    | nil => exact Option.some.inj ended ▸ distinct
    | cons x queue => exact ih _ (visited (next x) ⟨seen, queue⟩ distinct) ended

def remaining (support : Finset X) (s : Frontier X) : Nat :=
  s.queue.length + (support \ s.seen.toFinset).card

theorem remaining_visit {support : Finset X} {y : X} (inside : y ∈ support) (s : Frontier X) :
    remaining support (visit s y) = remaining support s := by
  unfold visit
  split
  · rfl
  · rename_i unseen
    have fresh : y ∈ support \ s.seen.toFinset :=
      Finset.mem_sdiff.mpr ⟨inside, fun mem => unseen (List.mem_toFinset.mp mem)⟩
    have fewer : support \ (s.seen ++ [y]).toFinset = (support \ s.seen.toFinset).erase y := by
      ext z
      simp only [Finset.mem_sdiff, List.mem_toFinset, List.mem_append, List.mem_singleton,
        Finset.mem_erase, not_or]
      tauto
    have size := Finset.card_erase_of_mem fresh
    have some_left := Finset.card_pos.mpr ⟨y, fresh⟩
    simp only [remaining, List.length_cons, fewer]
    omega

theorem remaining_visitAll {support : Finset X} (ys : List X) (inside : ∀ y ∈ ys, y ∈ support)
    (s : Frontier X) : remaining support (ys.foldl visit s) = remaining support s := by
  induction ys generalizing s with
  | nil => rfl
  | cons y ys ih =>
    rw [List.foldl_cons, ih fun z mem => inside z (List.mem_cons_of_mem _ mem),
      remaining_visit (inside y List.mem_cons_self)]

/-- Where all successors lie in a finite set, the worklist ends within what remains to do. -/
theorem saturate_ends {next : X → List X} {support : Finset X}
    (inside : ∀ x, ∀ y ∈ next x, y ∈ support) (fuel : Nat) (s : Frontier X)
    (enough : remaining support s ≤ fuel) : (saturate next fuel s).isSome := by
  induction fuel generalizing s with
  | zero =>
    obtain ⟨seen, queue⟩ := s
    cases queue with
    | nil => rfl
    | cons x queue =>
      simp only [remaining, List.length_cons] at enough
      omega
  | succ fuel ih =>
    obtain ⟨seen, queue⟩ := s
    cases queue with
    | nil => rfl
    | cons x queue =>
      refine ih _ ?_
      rw [remaining_visitAll (next x) (inside x)]
      simp only [remaining, List.length_cons] at enough ⊢
      omega

end Worklist

section Settling

variable {S : Type}

/-- Repeats a step until it leaves the count as it was. -/
def settle (count : S → Nat) (step : S → S) : Nat → S → Option S
  | 0, _ => none
  | fuel + 1, s =>
    if count (step s) = count s then some (step s) else settle count step fuel (step s)

theorem settle_ends {count : S → Nat} {step : S → S} {bound : Nat} (inv : S → Prop)
    (kept : ∀ s, inv s → inv (step s)) (bounded : ∀ s, inv s → count s ≤ bound)
    (grows : ∀ s, count s ≤ count (step s)) (fuel : Nat) (s : S) (holds : inv s)
    (enough : bound < count s + fuel) : (settle count step fuel s).isSome := by
  induction fuel generalizing s with
  | zero =>
    have := bounded s holds
    omega
  | succ fuel ih =>
    rw [settle]
    split
    · rfl
    · rename_i more
      have := grows s
      exact ih (step s) (kept s holds) (by omega)

theorem settle_first {count : S → Nat} {step : S → S} {settled : S} (fuel : Nat) (s : S)
    (ended : settle count step fuel s = some settled) :
    ∃ k, settled = step^[k + 1] s ∧ count (step^[k + 1] s) = count (step^[k] s) ∧
      ∀ j < k, count (step^[j + 1] s) ≠ count (step^[j] s) := by
  induction fuel generalizing s with
  | zero => cases ended
  | succ fuel ih =>
    rw [settle] at ended
    split at ended
    · rename_i same
      refine ⟨0, (Option.some.inj ended).symm, same, ?_⟩
      intro j before
      omega
    · rename_i more
      obtain ⟨k, here, same, before⟩ := ih (step s) ended
      refine ⟨k + 1, here, same, ?_⟩
      intro j earlier
      cases j with
      | zero => exact more
      | succ j => exact before j (by omega)

end Settling

end Saturation
