import MimStack.Import.Mapper
import MimStack.Lib.AsciiCase
import MimStack.Lib.Padding

/-!
The names of padded code lists. A name is looked for before it is made: among the given
lists only, or in the form of an enumeration and a value with an underscore between them,
which the making takes out again.
-/
namespace MimImport
open RustText SortedStore MimModel Padding

theorem toLower_underscore {c : Char} (lower : c.toLower = '_') : c = '_' := by
  have upper : c.toUpper = '_' := by
    rw [← Char.toUpper_toLower_eq_toUpper, lower]
    decide
  rw [← lower]
  exact (toLower_of_caseless (lower.trans upper.symm)).symm

section Names

variable [UnicodeCase]

def isCodeName (name : String) : Bool :=
  endsWith "Code" name || endsWith "CODE" name || contains "Category" name

def valueListName (v : String × String) : String :=
  toPascalCase v.1 ++ "_" ++ toPascalCase v.2

def normalizedListName (v : String × String) : String := toPascalCase (valueListName v)

def listNames (lists : List CodeList) : List String := lists.map (·.name)

def paddedClasses (owl : OwlModel) (options : ImportOptions) (lists : List CodeList) :
    List String :=
  (owl.classNames.filter fun name =>
    isCodeName name && !(listNames lists).contains (toPascalCase name)).take
      (options.minCodeLists - lists.length)

def enumerationValues (owl : OwlModel) : List (String × String) :=
  owl.enumerations.entries.flatMap fun e => e.2.map (e.1, ·)

def paddedValues (owl : OwlModel) (options : ImportOptions) (lists : List CodeList) :
    List (String × String) :=
  ((enumerationValues owl).filter fun v => !(listNames lists).contains (valueListName v)).take
    (options.minCodeLists - lists.length - (paddedClasses owl options lists).length)

/-- No two of the classes and values that are made code lists have one name in Pascal case, and
no value has that of a given list. -/
structure PaddedApart (owl : OwlModel) (options : ImportOptions) (lists : List CodeList) : Prop where
  classes : ((paddedClasses owl options lists).map toPascalCase).Nodup
  values : ((paddedValues owl options lists).map normalizedListName).Nodup
  fresh : ∀ v ∈ paddedValues owl options lists, normalizedListName v ∉ listNames lists ∧
    normalizedListName v ∉ (paddedClasses owl options lists).map toPascalCase

/-- No character but the underscore has an underscore in its upper case. -/
def UnderscoreOwn : Prop := ∀ c : Char, c ≠ '_' → '_' ∉ UnicodeCase.upper c

theorem capitalized_plain (own : UnderscoreOwn) {part : String} (plain : '_' ∉ part.toList) :
    '_' ∉ (capitalized part).toList := by
  have lower : '_' ∉ (toAsciiLowercase part).toList := by
    rw [toAsciiLowercase, String.toList_ofList]
    intro mem
    obtain ⟨c, listed, same⟩ := List.mem_map.mp mem
    exact plain (toLower_underscore same ▸ listed)
  unfold capitalized
  cases chars : (toAsciiLowercase part).toList with
  | nil => exact List.not_mem_nil
  | cons first rest =>
    rw [chars] at lower
    rw [String.toList_ofList]
    intro mem
    rcases List.mem_append.mp mem with raised | later
    · exact own first (fun same => lower (same ▸ List.mem_cons_self)) raised
    · exact lower (List.mem_cons_of_mem first later)

theorem toPascalCase_plain (own : UnderscoreOwn) (raw : String) :
    '_' ∉ (toPascalCase raw).toList := by
  unfold toPascalCase
  dsimp only
  split
  · decide
  · rw [join_empty_chars]
    intro mem
    obtain ⟨word, listed, inside⟩ := List.mem_flatMap.mp mem
    obtain ⟨part, kept, rfl⟩ := List.mem_map.mp listed
    have unbroken := split_unbroken (List.mem_filter.mp kept).1
    refine capitalized_plain own ?_ inside
    intro underscore
    exact absurd (unbroken '_' underscore) (by decide)

theorem valueListName_underscore (v : String × String) : '_' ∈ (valueListName v).toList := by
  rw [valueListName, String.toList_append, String.toList_append]
  exact List.mem_append_left _ (List.mem_append_right _ (by decide))

end Names

section Rounds

variable [UnicodeCase] [UuidV5] {lists : List CodeList}

theorem coded_padded (owl : OwlModel) (options : ImportOptions) :
    owl.classNames.foldl (padFromCodeClass options (listNames lists)) lists =
      lists ++ (paddedClasses owl options lists).map (enumerationToCodelist · ["NotSpecified"]) := by
  apply foldl_pad (fun _ => True)
  · intro current name _
    unfold padFromCodeClass
    rw [isCodeName]
    cases (listNames lists).contains (toPascalCase name) with
    | true => simp
    | false =>
      cases endsWith "Code" name || endsWith "CODE" name || contains "Category" name with
      | true => simp
      | false => simp
  · exact fun _ _ _ => trivial
  · trivial

def ValuesUnlisted (lists current : List CodeList) : Prop :=
  ∀ v, valueListName v ∈ listNames current ↔ valueListName v ∈ listNames lists

theorem unlisted_added (own : UnderscoreOwn) {current : List CodeList}
    (unlisted : ValuesUnlisted lists current) (name : String) (values : List String) :
    ValuesUnlisted lists (current ++ [enumerationToCodelist name values]) := by
  intro v
  have other : valueListName v ≠ toPascalCase name := by
    intro same
    have underscore := valueListName_underscore v
    rw [same] at underscore
    exact toPascalCase_plain own name underscore
  rw [← unlisted v, listNames, List.map_append, List.mem_append, List.map_singleton,
    List.mem_singleton]
  exact or_iff_left other

theorem valued_padded (owl : OwlModel) (options : ImportOptions) (own : UnderscoreOwn)
    {current : List CodeList} (unlisted : ValuesUnlisted lists current) :
    owl.enumerations.entries.foldl
        (fun l e => e.2.foldl (padFromValue options (listNames lists) e.1) l) current =
      current ++ (((enumerationValues owl).filter fun v =>
        !(listNames lists).contains (valueListName v)).take
          (options.minCodeLists - current.length)).map
            fun v => enumerationToCodelist (valueListName v) [v.2] := by
  have flat : owl.enumerations.entries.foldl
      (fun l e => e.2.foldl (padFromValue options (listNames lists) e.1) l) current =
      (enumerationValues owl).foldl
        (fun l v => padFromValue options (listNames lists) v.1 l v.2) current := by
    rw [enumerationValues, List.foldl_flatMap]
    simp only [List.foldl_map]
  rw [flat]
  apply foldl_pad (ValuesUnlisted lists)
  · intro l v unlisted
    have listed : l.any (·.name == valueListName v) =
        (listNames lists).contains (valueListName v) := by
      rw [Bool.eq_iff_iff, List.contains_iff_mem, ← unlisted v, listNames, List.mem_map,
        List.any_eq_true]
      simp only [beq_iff_eq]
    have made : padFromValue options (listNames lists) v.1 l v.2 =
        if options.minCodeLists ≤ l.length || (listNames lists).contains (valueListName v) ||
          l.any (·.name == valueListName v) then l
        else l ++ [enumerationToCodelist (valueListName v) [v.2]] := rfl
    rw [made, listed, Bool.or_assoc, Bool.or_self, Bool.not_not]
  · exact fun l v unlisted => unlisted_added own unlisted _ _
  · exact unlisted

theorem class_padded (owl : OwlModel) (options : ImportOptions) (current : List CodeList) :
    (listNames (owl.classNames.foldl (padFromClass options) current)).Nodup ↔
      (listNames current).Nodup := by
  apply foldl_nodup_iff
  intro l name
  unfold padFromClass
  split
  · exact Or.inl rfl
  · rename_i missing
    refine Or.inr ⟨_, rfl, ?_⟩
    intro listed
    obtain ⟨list, mem, same⟩ := List.mem_map.mp listed
    have found : l.any (·.name == toPascalCase name) = true :=
      List.any_eq_true.mpr ⟨list, mem, beq_iff_eq.mpr same⟩
    rw [found, Bool.or_true] at missing
    exact missing rfl

theorem padded_names (own : UnderscoreOwn) (owl : OwlModel) (options : ImportOptions)
    (lists : List CodeList) :
    (listNames (padCodeLists owl options lists)).Nodup ↔
      (listNames lists ++ (paddedClasses owl options lists).map toPascalCase ++
        (paddedValues owl options lists).map normalizedListName).Nodup := by
  have coded : owl.classNames.foldl (padFromCodeClass options (lists.map (·.name))) lists =
      lists ++ (paddedClasses owl options lists).map (enumerationToCodelist · ["NotSpecified"]) :=
    coded_padded owl options
  have unlisted : ValuesUnlisted lists (lists ++
      (paddedClasses owl options lists).map (enumerationToCodelist · ["NotSpecified"])) := by
    generalize paddedClasses owl options lists = names
    induction names using List.reverseRecOn with
    | nil =>
      rw [List.map_nil, List.append_nil]
      exact fun v => Iff.rfl
    | append_singleton names name ih =>
      rw [List.map_append, ← List.append_assoc]
      exact unlisted_added own ih name ["NotSpecified"]
  have valued := valued_padded owl options own unlisted
  have room : options.minCodeLists - (lists ++ (paddedClasses owl options lists).map
      (enumerationToCodelist · ["NotSpecified"])).length =
        options.minCodeLists - lists.length - (paddedClasses owl options lists).length := by
    rw [List.length_append, List.length_map]
    omega
  unfold padCodeLists
  dsimp only
  rw [class_padded, coded]
  refine (iff_of_eq (congrArg (fun l => (listNames l).Nodup) valued)).trans ?_
  rw [room, listNames, List.map_append, List.map_append, List.map_map, List.map_map]
  rfl

/-- The names of padded lists are pairwise different as long as those made of the first classes
and of the values are. -/
theorem padded_names_nodup_iff (own : UnderscoreOwn) (owl : OwlModel) (options : ImportOptions)
    (lists : List CodeList) (distinct : (listNames lists).Nodup) :
    (listNames (padCodeLists owl options lists)).Nodup ↔ PaddedApart owl options lists := by
  have classApart : (listNames lists).Disjoint ((paddedClasses owl options lists).map toPascalCase) := by
    intro name given made
    obtain ⟨raw, taken, rfl⟩ := List.mem_map.mp made
    have kept := (List.mem_filter.mp (List.mem_of_mem_take taken)).2
    rw [List.contains_iff_mem.mpr given, Bool.not_true, Bool.and_false] at kept
    cases kept
  rw [padded_names own, List.nodup_append, List.nodup_append]
  constructor
  · intro all
    obtain ⟨⟨_, classes, _⟩, values, apart⟩ := all
    refine ⟨classes, values, ?_⟩
    intro v taken
    have made := List.mem_map_of_mem (f := normalizedListName) taken
    constructor
    · intro given
      exact apart _ (List.mem_append_left _ given) _ made rfl
    · intro listed
      exact apart _ (List.mem_append_right _ listed) _ made rfl
  · intro apart
    refine ⟨⟨distinct, apart.classes, ?_⟩, apart.values, ?_⟩
    · intro a given b made same
      exact classApart given (same ▸ made)
    · intro a listed b made same
      obtain ⟨v, taken, rfl⟩ := List.mem_map.mp made
      subst same
      rcases List.mem_append.mp listed with given | class'
      · exact (apart.fresh v taken).1 given
      · exact (apart.fresh v taken).2 class'

end Rounds

section Fixtures

def affiliation (values : List String) : OwlModel where
  enumerations := .ofList [("Affiliation", values)]

def threeLists : ImportOptions where
  minCodeLists := 3

theorem asciiCase_underscore : letI := asciiCase; UnderscoreOwn := by
  let : UnicodeCase := asciiCase
  intro c other raised
  have upper : '_' = c.toUpper := List.mem_singleton.mp raised
  have lower : c.toLower = '_' := by
    rw [← Char.toLower_toUpper_eq_toLower, ← upper]
    decide
  exact other (toLower_underscore lower)

theorem hostile_apart : letI := asciiCase
    letI := lastCharacters
    (listNames (padCodeLists (affiliation ["FRIEND", "HOSTILE"]) threeLists
      [enumerationToCodelist "Affiliation" ["FRIEND", "HOSTILE"]])).Nodup := by
  let : UnicodeCase := asciiCase
  let : UuidV5 := lastCharacters
  have given : listNames [enumerationToCodelist "Affiliation" ["FRIEND", "HOSTILE"]] =
      ["Affiliation"] := by decide +kernel
  have classes : paddedClasses (affiliation ["FRIEND", "HOSTILE"]) threeLists
      [enumerationToCodelist "Affiliation" ["FRIEND", "HOSTILE"]] = [] := by decide +kernel
  have values : (paddedValues (affiliation ["FRIEND", "HOSTILE"]) threeLists
      [enumerationToCodelist "Affiliation" ["FRIEND", "HOSTILE"]]).map normalizedListName =
        ["AffiliationFriend", "AffiliationHostile"] := by decide +kernel
  refine (padded_names_nodup_iff asciiCase_underscore _ _ _ ?_).mpr ⟨?_, ?_, ?_⟩
  · rw [given]
    decide
  · rw [classes]
    exact List.nodup_nil
  · rw [values]
    decide
  · intro v taken
    have made := List.mem_map_of_mem (f := normalizedListName) taken
    rw [values] at made
    rw [given, classes]
    refine ⟨?_, List.not_mem_nil⟩
    intro listed
    rw [List.mem_singleton.mp listed] at made
    exact absurd made (by decide)

/-- Two values that differ in letters' case make two lists of one name. -/
theorem friend_twice : letI := asciiCase
    letI := lastCharacters
    (listNames [enumerationToCodelist "Affiliation" ["FRIEND", "Friend"]]).Nodup ∧
      listNames (padCodeLists (affiliation ["FRIEND", "Friend"]) threeLists
        [enumerationToCodelist "Affiliation" ["FRIEND", "Friend"]]) =
          ["Affiliation", "AffiliationFriend", "AffiliationFriend"] ∧
      ¬ (listNames (padCodeLists (affiliation ["FRIEND", "Friend"]) threeLists
        [enumerationToCodelist "Affiliation" ["FRIEND", "Friend"]])).Nodup := by
  let : UnicodeCase := asciiCase
  let : UuidV5 := lastCharacters
  have given : listNames [enumerationToCodelist "Affiliation" ["FRIEND", "Friend"]] =
      ["Affiliation"] := by decide +kernel
  have padded : listNames (padCodeLists (affiliation ["FRIEND", "Friend"]) threeLists
      [enumerationToCodelist "Affiliation" ["FRIEND", "Friend"]]) =
        ["Affiliation", "AffiliationFriend", "AffiliationFriend"] := by decide +kernel
  refine ⟨?_, padded, ?_⟩
  · rw [given]
    decide
  · rw [padded]
    decide

end Fixtures

end MimImport
