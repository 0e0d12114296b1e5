import Mathlib.Data.List.Induction

/-!
Chains of entries that each name the digest of the entry before them. An entry is
`intact` when its own digest is the one its content has.
-/
namespace HashChain

variable {E H : Type} (previous digest : E → H) (intact : E → Prop)

def tip (root : H) : List E → H
  | [] => root
  | e :: rest => tip (digest e) rest

def Chained (root : H) : List E → Prop
  | [] => True
  | e :: rest => previous e = root ∧ intact e ∧ Chained (digest e) rest

theorem tip_append (root : H) (before after : List E) :
    tip digest root (before ++ after) = tip digest (tip digest root before) after := by
  induction before generalizing root with
  | nil => rfl
  | cons e before ih => exact ih (digest e)

theorem tip_snoc (root : H) (entries : List E) (e : E) :
    tip digest root (entries ++ [e]) = digest e := tip_append digest root entries [e]

theorem tip_eq_last (root : H) (entries : List E) :
    tip digest root entries = (entries.getLast?.map digest).getD root := by
  induction entries using List.reverseRecOn with
  | nil => rfl
  | append_singleton entries e => rw [tip_snoc]; simp

theorem chained_append (root : H) (before after : List E) :
    Chained previous digest intact root (before ++ after) ↔
      Chained previous digest intact root before ∧
        Chained previous digest intact (tip digest root before) after := by
  induction before generalizing root with
  | nil => simp [Chained, tip]
  | cons e before ih => simp only [List.cons_append, Chained, tip, ih (digest e), and_assoc]

theorem chained_mem {root : H} {entries : List E}
    (chained : Chained previous digest intact root entries) {e : E} (member : e ∈ entries) :
    ∃ before after, entries = before ++ e :: after ∧ previous e = tip digest root before ∧
      intact e := by
  obtain ⟨before, after, rfl⟩ := List.append_of_mem member
  obtain ⟨_, here⟩ := (chained_append previous digest intact root before (e :: after)).mp chained
  exact ⟨before, after, rfl, here.1, here.2.1⟩

theorem chained_intact {root : H} {entries : List E}
    (chained : Chained previous digest intact root entries) : ∀ e ∈ entries, intact e := by
  intro e member
  obtain ⟨_, _, _, _, whole⟩ := chained_mem previous digest intact chained member
  exact whole

theorem chained_snoc (root : H) (entries : List E) (e : E) :
    Chained previous digest intact root (entries ++ [e]) ↔
      Chained previous digest intact root entries ∧
        previous e = tip digest root entries ∧ intact e := by
  rw [chained_append]
  simp [Chained]

theorem chained_previous {root : H} {entries : List E}
    (chained : Chained previous digest intact root entries) :
    ∀ e ∈ entries, previous e = root ∨ ∃ x ∈ entries, previous e = digest x := by
  intro e member
  obtain ⟨before, after, rfl, link, _⟩ := chained_mem previous digest intact chained member
  rw [tip_eq_last] at link
  cases last : before.getLast? with
  | none =>
    rw [last] at link
    exact .inl link
  | some x =>
    rw [last] at link
    exact .inr ⟨x, List.mem_append_left _ (List.mem_of_getLast? last), link⟩

theorem contents_of_tip {C : Type} (content : E → C) {root : H} {before after : List E}
    (first : Chained previous digest intact root before)
    (second : Chained previous digest intact root after)
    (binds : ∀ a ∈ before, ∀ b ∈ after, digest a = digest b →
      previous a = previous b ∧ content a = content b)
    (freshFirst : ∀ e ∈ before, digest e ≠ root) (freshSecond : ∀ e ∈ after, digest e ≠ root)
    (same : tip digest root before = tip digest root after) :
    before.map content = after.map content := by
  induction before using List.reverseRecOn generalizing after with
  | nil =>
    cases after using List.reverseRecOn with
    | nil => rfl
    | append_singleton after b =>
      rw [tip_snoc] at same
      exact absurd same.symm (freshSecond b List.mem_concat_self)
  | append_singleton before a ih =>
    cases after using List.reverseRecOn with
    | nil =>
      rw [tip_snoc] at same
      exact absurd same (freshFirst a List.mem_concat_self)
    | append_singleton after b =>
      obtain ⟨chainA, linkA, _⟩ := (chained_snoc previous digest intact root before a).mp first
      obtain ⟨chainB, linkB, _⟩ := (chained_snoc previous digest intact root after b).mp second
      rw [tip_snoc, tip_snoc] at same
      obtain ⟨link, contents⟩ := binds a List.mem_concat_self b List.mem_concat_self same
      have earlier := ih chainA chainB
        (fun x inX y inY => binds x (List.mem_append_left _ inX) y (List.mem_append_left _ inY))
        (fun x mem => freshFirst x (List.mem_append_left _ mem))
        (fun x mem => freshSecond x (List.mem_append_left _ mem))
        (linkA.symm.trans (link.trans linkB))
      rw [List.map_append, List.map_append, earlier, List.map_singleton, List.map_singleton, contents]

end HashChain
