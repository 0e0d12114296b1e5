import Mathlib.Data.List.Forall2
import MimStack.Lib.Outcome

/-!
Batches for a system that takes one item at a time. A batch stops at the first item
that is refused; the items before it stay taken.
-/
namespace Batches
open Fallible

variable {S I R E : Type}

abbrev Take (S I R E : Type) := S → I → Option (Except E R × S)

def submit (take : Take S I R E) : S → List I → Option (Except E (List R) × S)
  | s, [] => some (.ok [], s)
  | s, i :: rest =>
    match take s i with
    | none => none
    | some (.error e, after) => some (.error e, after)
    | some (.ok response, after) =>
      (submit take after rest).map fun ran => (ran.1.map (response :: ·), ran.2)

inductive Taken (take : Take S I R E) : S → List I → List R → S → Prop where
  | nil (s : S) : Taken take s [] [] s
  | cons {s mid after : S} {i : I} {rest : List I} {response : R} {more : List R}
      (first : take s i = some (.ok response, mid)) (later : Taken take mid rest more after) :
      Taken take s (i :: rest) (response :: more) after

variable {take : Take S I R E} {s after : S} {items : List I}

theorem submit_cases {result : Except E (List R)} (ran : submit take s items = some (result, after)) :
    (∃ responses, result = .ok responses ∧ Taken take s items responses after) ∨
      ∃ before i rest responses mid e, items = before ++ i :: rest ∧
        Taken take s before responses mid ∧ take mid i = some (.error e, after) ∧
        result = .error e := by
  induction items generalizing s result with
  | nil =>
    rw [submit, Option.some.injEq, Prod.mk.injEq] at ran
    obtain ⟨rfl, rfl⟩ := ran
    exact .inl ⟨[], rfl, .nil s⟩
  | cons i rest ih =>
    rw [submit] at ran
    cases first : take s i with
    | none =>
      rw [first] at ran
      cases ran
    | some answered =>
      obtain ⟨verdict, mid⟩ := answered
      rw [first] at ran
      cases verdict with
      | error e =>
        rw [Option.some.injEq, Prod.mk.injEq] at ran
        obtain ⟨rfl, rfl⟩ := ran
        exact .inr ⟨[], i, rest, [], s, e, rfl, .nil s, first, rfl⟩
      | ok response =>
        obtain ⟨⟨later, final⟩, inner, same⟩ := Option.map_eq_some_iff.mp ran
        obtain ⟨rfl, rfl⟩ := Prod.mk.inj same
        rcases ih inner with ⟨more, rfl, taken⟩ |
          ⟨before, j, others, more, stopped, e, rfl, taken, refused, rfl⟩
        · exact .inl ⟨response :: more, rfl, .cons first taken⟩
        · exact .inr ⟨i :: before, j, others, response :: more, stopped, e, rfl,
            .cons first taken, refused, rfl⟩

theorem Taken.each {Holds : S → Prop} {P : I → R → Prop} {responses : List R}
    (taken : Taken take s items responses after) (start : Holds s)
    (step : ∀ s i response next, Holds s → take s i = some (.ok response, next) →
      P i response ∧ Holds next) : List.Forall₂ P items responses ∧ Holds after := by
  induction taken with
  | nil s => exact ⟨.nil, start⟩
  | cons first later ih =>
    obtain ⟨here, kept⟩ := step _ _ _ _ start first
    obtain ⟨rest, final⟩ := ih kept
    exact ⟨.cons here rest, final⟩

theorem Taken.foldl {commit : S → I → S} {responses : List R}
    (taken : Taken take s items responses after)
    (commits : ∀ s i response next, take s i = some (.ok response, next) → next = commit s i) :
    after = items.foldl commit s := by
  induction taken with
  | nil s => rfl
  | cons first later ih =>
    rw [List.foldl_cons, ← commits _ _ _ _ first]
    exact ih

theorem traversed_iff {f : I → Except E R} {items : List I} {out : List R} :
    items.mapM f = .ok out ↔ List.Forall₂ (fun i response => f i = .ok response) items out := by
  induction items generalizing out with
  | nil =>
    rw [List.mapM_nil, List.forall₂_nil_left_iff]
    exact pure_ok.trans eq_comm
  | cons i items ih =>
    rw [List.mapM_cons, List.forall₂_cons_left_iff, bind_ok]
    constructor
    · rintro ⟨response, first, later⟩
      obtain ⟨rest, others, whole⟩ := bind_ok.mp later
      exact ⟨response, rest, first, ih.mp others, (pure_ok.mp whole).symm⟩
    · rintro ⟨response, rest, first, others, rfl⟩
      exact ⟨response, first, bind_ok.mpr ⟨rest, ih.mpr others, rfl⟩⟩

end Batches
