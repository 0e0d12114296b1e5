import Mathlib
import MimStack.Lib.Text

/-!
ASCII case. Two texts that are equal but for it have the same upper and the same lower
case, and a text without letters is equal but for it to itself alone.
-/
namespace RustText

theorem ofList_map_map {f g h : Char → Char} (composed : ∀ c, f (g c) = h c) (s : String) :
    String.ofList ((String.ofList (s.toList.map g)).toList.map f) = .ofList (s.toList.map h) := by
  rw [String.toList_ofList, List.map_map]
  exact congrArg String.ofList (List.map_congr_left fun c _ => composed c)

theorem toAsciiLowercase_toAsciiUppercase (s : String) :
    toAsciiLowercase (toAsciiUppercase s) = toAsciiLowercase s :=
  ofList_map_map Char.toLower_toUpper_eq_toLower s

theorem toAsciiLowercase_toAsciiLowercase (s : String) :
    toAsciiLowercase (toAsciiLowercase s) = toAsciiLowercase s :=
  ofList_map_map Char.toLower_toLower_eq_toLower s

theorem toAsciiUppercase_toAsciiLowercase (s : String) :
    toAsciiUppercase (toAsciiLowercase s) = toAsciiUppercase s :=
  ofList_map_map Char.toUpper_toLower_eq_toUpper s

theorem toAsciiUppercase_toAsciiUppercase (s : String) :
    toAsciiUppercase (toAsciiUppercase s) = toAsciiUppercase s :=
  ofList_map_map Char.toUpper_toUpper_eq_toUpper s

theorem eqIgnoreAsciiCase_upper (s : String) : eqIgnoreAsciiCase s (toAsciiUppercase s) = true :=
  eqIgnoreAsciiCase_iff.mpr (toAsciiLowercase_toAsciiUppercase s).symm

theorem eqIgnoreAsciiCase_lower (s : String) : eqIgnoreAsciiCase s (toAsciiLowercase s) = true :=
  eqIgnoreAsciiCase_iff.mpr (toAsciiLowercase_toAsciiLowercase s).symm

theorem toAsciiUppercase_congr {a b : String} (same : eqIgnoreAsciiCase a b = true) :
    toAsciiUppercase a = toAsciiUppercase b := by
  rw [← toAsciiUppercase_toAsciiLowercase a, eqIgnoreAsciiCase_iff.mp same,
    toAsciiUppercase_toAsciiLowercase]

theorem letter_visible {c : Char} (letter : c.isAlpha = true) : isWhitespace c = false := by
  have bounds : 65 ≤ c.toNat ∧ c.toNat ≤ 122 := by
    simp only [Char.isAlpha, Char.isUpper, Char.isLower, Bool.or_eq_true, decide_eq_true_eq,
      Bool.and_eq_true, ge_iff_le, UInt32.le_iff_toNat_le] at letter
    have value : c.toNat = c.val.toNat := rfl
    have lowest : 'A'.val.toNat = 65 := rfl
    have upper : 'Z'.val.toNat = 90 := rfl
    have lower : 'a'.val.toNat = 97 := rfl
    have highest : 'z'.val.toNat = 122 := rfl
    omega
  simp [isWhitespace]
  omega

theorem isWhitespace_toUpper (c : Char) : isWhitespace c.toUpper = isWhitespace c := by
  cases letter : c.isAlpha with
  | true => rw [letter_visible letter, letter_visible (c.isAlpha_toUpper_eq_isAlpha.trans letter)]
  | false =>
    rw [Char.toUpper_eq_of_not_isLower]
    intro lower
    rw [Char.isAlpha, lower, Bool.or_true] at letter
    cases letter

theorem isWhitespace_toLower (c : Char) : isWhitespace c.toLower = isWhitespace c := by
  rw [← isWhitespace_toUpper c.toLower, Char.toUpper_toLower_eq_toUpper, isWhitespace_toUpper]

theorem rdropWhile_map {α β : Type} (f : α → β) (p : β → Bool) (items : List α) :
    (items.map f).rdropWhile p = (items.rdropWhile (p ∘ f)).map f := by
  rw [List.rdropWhile, List.rdropWhile, ← List.map_reverse, List.dropWhile_map, List.map_reverse]

theorem trim_map {f : Char → Char} (kept : ∀ c, isWhitespace (f c) = isWhitespace c) (s : String) :
    trim (.ofList (s.toList.map f)) = .ofList ((trim s).toList.map f) := by
  have same : isWhitespace ∘ f = isWhitespace := funext kept
  have trimmed := trim_ofList s.toList
  rw [String.ofList_toList] at trimmed
  rw [trim_ofList, List.dropWhile_map, rdropWhile_map, same, trimmed, String.toList_ofList]

theorem trim_toAsciiLowercase (s : String) :
    trim (toAsciiLowercase s) = toAsciiLowercase (trim s) := trim_map isWhitespace_toLower s

theorem trim_toAsciiUppercase (s : String) :
    trim (toAsciiUppercase s) = toAsciiUppercase (trim s) := trim_map isWhitespace_toUpper s

theorem length_toAsciiUppercase (s : String) :
    (toAsciiUppercase s).toList.length = s.toList.length := by
  rw [toAsciiUppercase, String.toList_ofList, List.length_map]

theorem eqIgnoreAsciiCase_word_iff {word : String} (upper : toAsciiUppercase word = word)
    (whole : trim word = word) (s : String) : eqIgnoreAsciiCase s word = true ↔
      toAsciiUppercase (trim s) = word ∧ trim s = s := by
  constructor
  · intro same
    have cased : toAsciiUppercase s = word := (toAsciiUppercase_congr same).trans upper
    have trimmed : toAsciiUppercase (trim s) = word := by
      rw [← trim_toAsciiUppercase, cased, whole]
    have lengths : (trim s).toList.length = s.toList.length := by
      rw [← length_toAsciiUppercase, ← length_toAsciiUppercase s, trimmed, cased]
    exact ⟨trimmed, String.toList_inj.mp ((trim_within s).eq_of_length lengths)⟩
  · intro named
    rw [eqIgnoreAsciiCase_comm, ← named.1, named.2, eqIgnoreAsciiCase_comm]
    exact eqIgnoreAsciiCase_upper s

theorem mem_toAsciiLowercase_of_caseless {c : Char} (apart : c.isAlpha = false) (s : String) :
    c ∈ (toAsciiLowercase s).toList ↔ c ∈ s.toList := by
  rw [toAsciiLowercase, String.toList_ofList, List.mem_map]
  constructor
  · intro found
    obtain ⟨d, listed, lowered⟩ := found
    have kept : d.toLower = d := by
      apply Char.toLower_eq_of_not_isUpper
      intro upper
      have letter := d.isAlpha_toLower_eq_isAlpha
      rw [lowered, apart, Char.isAlpha, upper] at letter
      simp at letter
    exact (lowered.symm.trans kept) ▸ listed
  · intro listed
    refine ⟨c, listed, Char.toLower_eq_of_not_isUpper ?_⟩
    intro upper
    rw [Char.isAlpha, upper] at apart
    cases apart

theorem mem_trim_of_visible {c : Char} (visible : isWhitespace c = false) (s : String) :
    c ∈ (trim s).toList ↔ c ∈ s.toList := by
  obtain ⟨before, after, around, white, white'⟩ := trim_around s
  rw [around, List.mem_append, List.mem_append]
  constructor
  · exact fun mem => Or.inl (Or.inr mem)
  · intro mem
    rcases mem with (mem | mem) | mem
    · rw [white c mem] at visible
      cases visible
    · exact mem
    · rw [white' c mem] at visible
      cases visible

theorem split_parts_unseparated {p : Char → Bool} {s part : String} (listed : part ∈ split p s) :
    ∀ c ∈ part.toList, p c = false := by
  have parts : ∀ chars : List Char, ∀ segment ∈ chars.splitOnP p, ∀ c ∈ segment, p c = false := by
    intro chars
    induction chars with
    | nil => simp
    | cons first chars ih =>
      rw [List.splitOnP_cons_eq_if_modifyHead]
      cases separates : p first with
      | true =>
        rw [if_pos rfl]
        exact List.forall_mem_cons.mpr ⟨by simp, ih⟩
      | false =>
        rw [if_neg Bool.false_ne_true]
        cases split : chars.splitOnP p with
        | nil => simp
        | cons head rest =>
          rw [split, List.forall_mem_cons] at ih
          rw [List.modifyHead_cons, List.forall_mem_cons, List.forall_mem_cons]
          exact ⟨⟨separates, ih.1⟩, ih.2⟩
  obtain ⟨segment, within, rfl⟩ := List.mem_map.mp listed
  rw [String.toList_ofList]
  exact parts s.toList segment within

/-- The text has no ASCII letter. -/
def Caseless (s : String) : Prop := toAsciiLowercase s = toAsciiUppercase s

instance (s : String) : Decidable (Caseless s) :=
  inferInstanceAs (Decidable (toAsciiLowercase s = toAsciiUppercase s))

theorem toLower_of_caseless {c : Char} (same : c.toLower = c.toUpper) : c.toLower = c := by
  refine Char.toLower_eq_of_not_isUpper fun upper => ?_
  have kept : c.toUpper = c := Char.toUpper_eq_of_not_isLower (Char.not_isLower_of_isUpper upper)
  have lowered := Char.isUpper_toLower_eq_false c
  rw [same, kept, upper] at lowered
  cases lowered

theorem Caseless.lower {s : String} (caseless : Caseless s) : toAsciiLowercase s = s := by
  have mapped : s.toList.map Char.toLower = s.toList.map Char.toUpper := String.ofList_injective caseless
  have kept : s.toList.map Char.toLower = s.toList := by
    refine (List.map_congr_left fun c member => ?_).trans (List.map_id _)
    exact toLower_of_caseless (List.map_inj_left.mp mapped c member)
  rw [toAsciiLowercase, kept, String.ofList_toList]

theorem Caseless.unique {a b : String} (caseless : Caseless a)
    (same : eqIgnoreAsciiCase a b = true) : b = a := by
  have lower := eqIgnoreAsciiCase_iff.mp same
  have other : Caseless b := by
    rw [Caseless, ← lower, ← toAsciiUppercase_congr same]
    exact caseless
  rw [← other.lower, ← lower, caseless.lower]

def Recased (a b : List String) : Prop := List.Forall₂ (fun x y => eqIgnoreAsciiCase x y = true) a b

theorem Recased.symm {a b : List String} (recased : Recased a b) : Recased b a := by
  induction recased with
  | nil => exact .nil
  | cons same _ ih => exact .cons (eqIgnoreAsciiCase_comm _ _ ▸ same) ih

theorem Recased.refl (a : List String) : Recased a a :=
  List.forall₂_same.mpr fun x _ => eqIgnoreAsciiCase_self x

theorem Recased.upper (a : List String) : Recased a (a.map toAsciiUppercase) :=
  List.forall₂_map_right_iff.mpr (List.forall₂_same.mpr fun x _ => eqIgnoreAsciiCase_upper x)

theorem Recased.mem {a b : List String} (recased : Recased a b) {x : String} (member : x ∈ a) :
    ∃ y ∈ b, eqIgnoreAsciiCase x y = true := by
  induction recased with
  | nil => cases member
  | cons same _ ih =>
    rcases List.mem_cons.mp member with rfl | later
    · exact ⟨_, List.mem_cons_self, same⟩
    · obtain ⟨y, listed, same'⟩ := ih later
      exact ⟨y, List.mem_cons_of_mem _ listed, same'⟩

theorem Recased.any {a b : List String} (recased : Recased a b) {x y : String}
    (same : eqIgnoreAsciiCase x y = true) :
    a.any (eqIgnoreAsciiCase · x) = b.any (eqIgnoreAsciiCase · y) := by
  induction recased with
  | nil => rfl
  | @cons u v a b alike _ ih =>
    have heads : eqIgnoreAsciiCase u x = eqIgnoreAsciiCase v y := by
      rw [eqIgnoreAsciiCase_congr same, eqIgnoreAsciiCase_comm, eqIgnoreAsciiCase_congr alike,
        eqIgnoreAsciiCase_comm]
    rw [List.any_cons, List.any_cons, heads, ih]

theorem Recased.isEmpty {a b : List String} (recased : Recased a b) : a.isEmpty = b.isEmpty := by
  cases recased <;> rfl

end RustText
