import MimStack.Stanag4774.Decoder

/-!
What the XML decoder makes of one Category element, seen through the few variables
that categories live in.
-/
namespace MimStanag
open RustText Fallible MimCore MimLabeling MarkupText

def lastAttribute (name : String) (attributes : List (String × String)) : Option String :=
  ((attributes.filter fun a => a.1 == name).getLast?).map Prod.snd

theorem lastAttribute_cons (name : String) (a : String × String) (rest : List (String × String)) :
    lastAttribute name (a :: rest) =
      (lastAttribute name rest).or (if a.1 = name then some a.2 else none) := by
  unfold lastAttribute
  rw [List.filter_cons]
  by_cases same : a.1 = name
  · rw [if_pos (by simpa using same), if_pos same, List.getLast?_cons]
    cases (rest.filter fun a => a.1 == name).getLast? <;> rfl
  · rw [if_neg (by simpa using same), if_neg same, Option.or_none]

theorem lastAttribute_eq_none (name : String) (attributes : List (String × String)) :
    lastAttribute name attributes = none ↔ ¬ ∃ a ∈ attributes, a.1 = name := by
  rw [lastAttribute, Option.map_eq_none_iff, List.getLast?_eq_none_iff, List.filter_eq_nil_iff]
  simp only [beq_iff_eq, not_exists, not_and]

structure CategoryView where
  tag : String := ""
  type : CategoryType := .permissive
  values : List String := []
  inside : Bool := false
  element : String := ""
  ended : List CategoryMarking := []

def Decoder.view (d : Decoder) : CategoryView :=
  ⟨d.currentCategoryTag, d.currentCategoryType, d.currentCategoryValues, d.inCategory,
    d.currentElement, d.categories⟩

section Simulation

variable (unescape : String → Except String String)

/-- What a token does to them, where the decoder accepts it. -/
def CategoryView.step (v : CategoryView) : Token → CategoryView
  | .start name attributes =>
    if name = "Category" then
      { v with
        tag := (lastAttribute "TagName" attributes).getD v.tag
        type := ((lastAttribute "Type" attributes).map parseCategoryType).getD v.type
        values := []
        inside := true
        element := name }
    else { v with element := name }
  | .text raw =>
    if (v.element = "GenericValues" ∨ v.element = "GenericValue") ∧ v.inside then
      { v with values := v.values ++ (unescape raw).toOption.toList }
    else v
  | .finish name =>
    if name = "Category" ∧ v.inside then
      { v with ended := v.ended ++ [⟨v.tag, v.type, v.values⟩], inside := false, element := "" }
    else { v with element := "" }
  | .other => v

theorem categoryAttributes_fold (attributes : List (String × String)) (d : Decoder) :
    attributes.foldl Decoder.categoryAttribute d =
      { d with
        currentCategoryTag := (lastAttribute "TagName" attributes).getD d.currentCategoryTag
        currentCategoryType :=
          ((lastAttribute "Type" attributes).map parseCategoryType).getD d.currentCategoryType } := by
  induction attributes generalizing d with
  | nil => rfl
  | cons a rest ih =>
    rw [List.foldl_cons, ih, lastAttribute_cons, lastAttribute_cons, Decoder.categoryAttribute]
    split
    · rename_i tagged
      simp only [tagged, String.reduceEq, if_false, Option.or_none]
      cases lastAttribute "TagName" rest <;> rfl
    · rename_i typed
      simp only [typed, String.reduceEq, if_false, Option.or_none]
      cases lastAttribute "Type" rest <;> rfl
    · rename_i untagged untyped
      rw [if_neg untagged, if_neg untyped, Option.or_none, Option.or_none]

theorem policyAttributes_fold (attributes : List (String × String)) (d : Decoder) :
    ∃ oid, attributes.foldl Decoder.policyAttribute d = { d with policyOid := oid } := by
  induction attributes generalizing d with
  | nil => exact ⟨d.policyOid, rfl⟩
  | cons a rest ih =>
    obtain ⟨oid, folded⟩ := ih (d.policyAttribute a)
    refine ⟨oid, ?_⟩
    rw [List.foldl_cons, folded, Decoder.policyAttribute]
    split <;> rfl

variable {readTime : TimeReader}

theorem wrapperAttribute_view {d next : Decoder} {a : String × String}
    (taken : d.wrapperAttribute readTime a = .ok next) : next.view = d.view := by
  unfold Decoder.wrapperAttribute at taken
  split at taken
  · obtain ⟨t, _, rest⟩ := bind_ok.mp taken
    obtain rfl := pure_ok.mp rest
    rfl
  · obtain ⟨t, _, rest⟩ := bind_ok.mp taken
    obtain rfl := pure_ok.mp rest
    rfl
  · obtain rfl := Except.ok.inj taken
    rfl

theorem startElement_view {d next : Decoder} {name : String} {attributes : List (String × String)}
    (taken : d.startElement readTime name attributes = .ok next) :
    next.view = d.view.step unescape (.start name attributes) := by
  obtain ⟨mid, entered, rfl⟩ := map_ok.mp taken
  unfold Decoder.enter at entered
  by_cases category : name = "Category"
  · subst category
    have own : labelWrappers.contains "Category" = false := by decide
    rw [own, if_neg Bool.false_ne_true, if_neg (by decide), if_pos rfl] at entered
    obtain rfl := Except.ok.inj entered
    rw [categoryAttributes_fold]
    rfl
  · have kept : mid.view = d.view := by
      split at entered
      · have start : (if name = "alternativeConfidentialityLabel" then d.clearAlternative
            else d).view = d.view := by
          split <;> rfl
        exact foldlM_invariant (p := fun s => s.view = d.view)
          (fun s a t same ran => (wrapperAttribute_view ran).trans same) attributes start entered
      · split at entered
        · obtain rfl := Except.ok.inj entered
          obtain ⟨oid, folded⟩ := policyAttributes_fold attributes d
          rw [folded]
          rfl
        · obtain rfl := Except.ok.inj entered
          rfl
    have element : ({ mid with currentElement := name } : Decoder).view =
        { mid.view with element := name } := rfl
    rw [element, kept, CategoryView.step, if_neg category]

theorem setText_view {d next : Decoder} {text : String} (taken : d.setText readTime text = .ok next) :
    next.view = if (d.currentElement = "GenericValues" ∨ d.currentElement = "GenericValue") ∧ d.inCategory
      then { d.view with values := d.currentCategoryValues ++ [text] } else d.view := by
  have elsewhere : d.currentElement ≠ "GenericValues" → d.currentElement ≠ "GenericValue" →
      next.view = d.view → next.view =
        if (d.currentElement = "GenericValues" ∨ d.currentElement = "GenericValue") ∧ d.inCategory
        then { d.view with values := d.currentCategoryValues ++ [text] } else d.view := by
    intro first second kept
    rw [if_neg fun both => both.1.elim first second]
    exact kept
  have values : next = (if d.inCategory then
        { d with currentCategoryValues := d.currentCategoryValues ++ [text] } else d) →
      next.view = if d.inCategory then
        { d.view with values := d.currentCategoryValues ++ [text] } else d.view := by
    rintro rfl
    split <;> rfl
  unfold Decoder.setText at taken
  split at taken
  case h_1 here =>
    obtain rfl := Except.ok.inj taken
    exact elsewhere (by rw [here]; decide) (by rw [here]; decide) rfl
  case h_2 here | h_3 here | h_4 here | h_5 here =>
    obtain rfl := Except.ok.inj taken
    refine elsewhere (by rw [here]; decide) (by rw [here]; decide) ?_
    split <;> rfl
  case h_6 here =>
    simp only [here, true_or, true_and]
    exact values (Except.ok.inj taken).symm
  case h_7 here =>
    simp only [here, or_true, true_and]
    exact values (Except.ok.inj taken).symm
  case h_8 here | h_9 here =>
    obtain ⟨t, _, rest⟩ := bind_ok.mp taken
    obtain rfl := pure_ok.mp rest
    exact elsewhere (by rw [here]; decide) (by rw [here]; decide) rfl
  case h_10 =>
    obtain rfl := Except.ok.inj taken
    exact elsewhere (by assumption) (by assumption) rfl

theorem closeAlternative_view {d next : Decoder} (taken : d.closeAlternative = .ok next) :
    next.view = d.view := by
  unfold Decoder.closeAlternative at taken
  split at taken
  · obtain rfl := Except.ok.inj taken
    rfl
  · obtain ⟨level, _, rest⟩ := bind_ok.mp taken
    obtain rfl := pure_ok.mp rest
    rfl

theorem endElement_view {d next : Decoder} {name : String} (taken : d.endElement name = .ok next) :
    next.view = d.view.step unescape (.finish name) := by
  obtain ⟨mid, left, rfl⟩ := map_ok.mp taken
  have element : ({ mid with currentElement := "" } : Decoder).view =
      { mid.view with element := "" } := rfl
  have inside : d.view.inside = d.inCategory := rfl
  unfold Decoder.leave at left
  rw [element, CategoryView.step]
  split at left
  · rename_i category
    obtain rfl := Except.ok.inj left
    rw [inside, if_pos category]
    rfl
  · rename_i outside
    rw [inside, if_neg outside]
    have kept : mid.view = d.view := by
      split at left
      · rename_i category
        have idle : d.inCategory = false := by
          have other := fun within => outside ⟨category.1, within⟩
          exact Bool.eq_false_iff.mpr other
        obtain rfl := Except.ok.inj left
        simp only [Decoder.view, idle]
      · split at left
        · exact closeAlternative_view left
        · obtain rfl := Except.ok.inj left
          rfl
    rw [kept]
    rfl

theorem step_view {d next : Decoder} {t : Token} (taken : d.step readTime unescape t = .ok next) :
    next.view = d.view.step unescape t := by
  cases t with
  | start name attributes => exact startElement_view unescape taken
  | finish name => exact endElement_view unescape taken
  | other =>
    obtain rfl := Except.ok.inj taken
    rfl
  | text raw =>
    obtain ⟨text, plain, set⟩ := bind_ok.mp taken
    have listed : (unescape raw).toOption.toList = [text] := by
      rw [(mapError_ok _ _ _).mp plain]
      rfl
    rw [setText_view set, CategoryView.step, listed]
    rfl

theorem run_view {tokens : List Token} {d final : Decoder}
    (ran : d.run readTime unescape tokens = .ok final) :
    final.view = tokens.foldl (CategoryView.step unescape) d.view := by
  induction tokens generalizing d with
  | nil =>
    obtain rfl := Except.ok.inj ran
    rfl
  | cons t rest ih =>
    rw [Decoder.run, List.foldlM_cons] at ran
    obtain ⟨mid, first, later⟩ := bind_ok.mp ran
    rw [ih later, step_view unescape first]
    rfl

end Simulation

section Elements

def categoryAttributesOf : List Token → List (String × String)
  | [] => []
  | .start name attributes :: rest =>
    (if name = "Category" then attributes else []) ++ categoryAttributesOf rest
  | _ :: rest => categoryAttributesOf rest

/-- How many Category elements end among these tokens, from inside one or not. -/
def endedCategories : Bool → List Token → Nat
  | _, [] => 0
  | inside, .start name _ :: rest => endedCategories (inside || name == "Category") rest
  | inside, .finish name :: rest =>
    if name = "Category" then inside.toNat + endedCategories false rest else endedCategories inside rest
  | inside, _ :: rest => endedCategories inside rest

def isCategoryTag : Token → Bool
  | .start name _ => name == "Category"
  | .finish name => name == "Category"
  | _ => false

variable (unescape : String → Except String String)

def genericTexts : String → List Token → List String
  | _, [] => []
  | _, .start name _ :: rest => genericTexts name rest
  | element, .text raw :: rest =>
    (if element = "GenericValues" ∨ element = "GenericValue" then (unescape raw).toOption.toList
      else []) ++ genericTexts element rest
  | _, .finish _ :: rest => genericTexts "" rest
  | element, .other :: rest => genericTexts element rest

/-- The category that an element is by itself: nothing is taken from elsewhere. -/
def ownCategory (attributes : List (String × String)) (inner : List Token) : CategoryMarking where
  tagName := (lastAttribute "TagName" attributes).getD ""
  categoryType := ((lastAttribute "Type" attributes).map parseCategoryType).getD .permissive
  values := genericTexts unescape "Category" inner

theorem lastAttribute_append (name : String) (xs ys : List (String × String)) :
    lastAttribute name (xs ++ ys) = (lastAttribute name ys).or (lastAttribute name xs) := by
  unfold lastAttribute
  rw [List.filter_append, List.getLast?_append, Option.map_or]

theorem view_carried (tokens : List Token) (v : CategoryView) :
    (tokens.foldl (CategoryView.step unescape) v).tag =
        (lastAttribute "TagName" (categoryAttributesOf tokens)).getD v.tag ∧
      (tokens.foldl (CategoryView.step unescape) v).type =
        ((lastAttribute "Type" (categoryAttributesOf tokens)).map parseCategoryType).getD v.type := by
  induction tokens generalizing v with
  | nil => exact ⟨rfl, rfl⟩
  | cons t rest ih =>
    obtain ⟨tags, types⟩ := ih (v.step unescape t)
    rw [List.foldl_cons, tags, types]
    cases t with
    | start name attributes =>
      rw [categoryAttributesOf, lastAttribute_append, lastAttribute_append, CategoryView.step]
      by_cases category : name = "Category"
      · rw [if_pos category, if_pos category]
        cases lastAttribute "TagName" (categoryAttributesOf rest) <;>
          cases lastAttribute "Type" (categoryAttributesOf rest) <;> exact ⟨rfl, rfl⟩
      · rw [if_neg category, if_neg category]
        have empty : ∀ name, lastAttribute name [] = none := fun _ => rfl
        rw [empty, empty, Option.or_none, Option.or_none]
        exact ⟨rfl, rfl⟩
    | text raw =>
      rw [categoryAttributesOf, CategoryView.step]
      · split <;> exact ⟨rfl, rfl⟩
      · intro name attributes other
        cases other
    | finish name =>
      rw [categoryAttributesOf, CategoryView.step]
      · split <;> exact ⟨rfl, rfl⟩
      · intro name attributes other
        cases other
    | other => exact ⟨rfl, rfl⟩

theorem step_ended (v : CategoryView) (t : Token) (rest : List Token) :
    ∃ more, (v.step unescape t).ended = v.ended ++ more ∧
      endedCategories v.inside (t :: rest) =
        more.length + endedCategories (v.step unescape t).inside rest := by
  cases t with
  | start name attributes =>
    refine ⟨[], ?_, ?_⟩
    · rw [CategoryView.step, List.append_nil]
      split <;> rfl
    · rw [endedCategories, CategoryView.step, List.length_nil, Nat.zero_add]
      by_cases category : name = "Category"
      · rw [if_pos category, category]
        simp
      · rw [if_neg category, beq_eq_false_iff_ne.mpr category, Bool.or_false]
  | text raw =>
    have same : (v.step unescape (.text raw)).inside = v.inside := by
      rw [CategoryView.step]
      split <;> rfl
    refine ⟨[], ?_, ?_⟩
    · rw [CategoryView.step, List.append_nil]
      split <;> rfl
    · rw [same, List.length_nil, Nat.zero_add]
      rfl
  | finish name =>
    rw [CategoryView.step, endedCategories]
    by_cases category : name = "Category"
    · rw [if_pos category]
      cases within : v.inside with
      | true =>
        rw [if_pos ⟨category, rfl⟩]
        exact ⟨[⟨v.tag, v.type, v.values⟩], rfl, rfl⟩
      | false =>
        rw [if_neg fun both => Bool.false_ne_true both.2]
        exact ⟨[], (List.append_nil _).symm, rfl⟩
    · rw [if_neg category, if_neg fun both => category both.1]
      exact ⟨[], (List.append_nil _).symm, (Nat.zero_add _).symm⟩
  | other => exact ⟨[], (List.append_nil _).symm, (Nat.zero_add _).symm⟩

theorem view_ended (tokens : List Token) (v : CategoryView) :
    ∃ more, (tokens.foldl (CategoryView.step unescape) v).ended = v.ended ++ more ∧
      more.length = endedCategories v.inside tokens := by
  induction tokens generalizing v with
  | nil => exact ⟨[], (List.append_nil _).symm, rfl⟩
  | cons t rest ih =>
    obtain ⟨first, ended, count⟩ := step_ended unescape v t rest
    obtain ⟨later, appended, counted⟩ := ih (v.step unescape t)
    refine ⟨first ++ later, ?_, ?_⟩
    · rw [List.foldl_cons, appended, ended, List.append_assoc]
    · rw [List.length_append, counted, count]

theorem view_inner (inner : List Token) (plain : ∀ t ∈ inner, isCategoryTag t = false)
    (v : CategoryView) (within : v.inside = true) :
    ∃ element, inner.foldl (CategoryView.step unescape) v =
      { v with values := v.values ++ genericTexts unescape v.element inner, element } := by
  induction inner generalizing v with
  | nil => exact ⟨v.element, by rw [genericTexts, List.append_nil]; rfl⟩
  | cons t rest ih =>
    have here := plain t List.mem_cons_self
    have later := ih fun u mem => plain u (List.mem_cons_of_mem t mem)
    cases t with
    | start name attributes =>
      have other : name ≠ "Category" := by simpa [isCategoryTag] using here
      obtain ⟨element, folded⟩ := later { v with element := name } within
      refine ⟨element, ?_⟩
      rw [List.foldl_cons, CategoryView.step, if_neg other, folded, genericTexts]
    | text raw =>
      by_cases value : v.element = "GenericValues" ∨ v.element = "GenericValue"
      · obtain ⟨element, folded⟩ :=
          later { v with values := v.values ++ (unescape raw).toOption.toList } within
        refine ⟨element, ?_⟩
        rw [List.foldl_cons, CategoryView.step, if_pos ⟨value, within⟩, folded, genericTexts,
          if_pos value, List.append_assoc]
      · obtain ⟨element, folded⟩ := later v within
        refine ⟨element, ?_⟩
        rw [List.foldl_cons, CategoryView.step, if_neg fun both => value both.1, folded,
          genericTexts, if_neg value, List.nil_append]
    | finish name =>
      have other : name ≠ "Category" := by simpa [isCategoryTag] using here
      obtain ⟨element, folded⟩ := later { v with element := "" } within
      refine ⟨element, ?_⟩
      rw [List.foldl_cons, CategoryView.step, if_neg fun both => other both.1, folded, genericTexts]
    | other =>
      obtain ⟨element, folded⟩ := later v within
      exact ⟨element, folded⟩

theorem view_element (v : CategoryView) (inner after : List Token)
    (attributes : List (String × String)) (plain : ∀ t ∈ inner, isCategoryTag t = false) :
    ((.start "Category" attributes :: inner ++ .finish "Category" :: after).foldl
        (CategoryView.step unescape) v).ended[v.ended.length]? =
      some ⟨(lastAttribute "TagName" attributes).getD v.tag,
        ((lastAttribute "Type" attributes).map parseCategoryType).getD v.type,
        genericTexts unescape "Category" inner⟩ := by
  let opened := v.step unescape (.start "Category" attributes)
  obtain ⟨element, inside⟩ := view_inner unescape inner plain opened rfl
  rw [List.cons_append, List.foldl_cons, List.foldl_append, inside, List.foldl_cons]
  obtain ⟨later, kept, _⟩ := view_ended unescape after
    (CategoryView.step unescape
      { opened with
        values := opened.values ++ genericTexts unescape opened.element inner
        element } (.finish "Category"))
  have closed : (CategoryView.step unescape
      { opened with
        values := opened.values ++ genericTexts unescape opened.element inner
        element } (.finish "Category")).ended =
      v.ended ++ [⟨opened.tag, opened.type, genericTexts unescape "Category" inner⟩] := rfl
  rw [kept, closed, List.append_assoc, List.getElem?_append_right (Nat.le_refl _), Nat.sub_self]
  rfl

/-- An element says everything itself, or the elements before it left nothing to be taken. -/
def CarriesNothing (before : List Token) (attributes : List (String × String)) : Prop :=
  ((∃ a ∈ attributes, a.1 = "TagName") ∨
      (lastAttribute "TagName" (categoryAttributesOf before)).getD "" = "") ∧
    ((∃ a ∈ attributes, a.1 = "Type") ∨
      ((lastAttribute "Type" (categoryAttributesOf before)).map parseCategoryType).getD .permissive =
        .permissive)

variable {R : MarkupReader} {readTime : TimeReader}

theorem decoded_view {data : String} {l : ConfidentialityLabel}
    (decoded : xmlDeserialize R readTime data = .ok l) :
    l.categories = ((R.read data).1.foldl (CategoryView.step R.unescape) {}).ended := by
  obtain ⟨d, ran, finished⟩ := bind_ok.mp decoded
  have viewed := congrArg CategoryView.ended (run_view R.unescape ran)
  cases failure : (R.read data).2 with
  | some err =>
    rw [failure] at finished
    cases finished
  | none =>
    rw [failure] at finished
    have made : d.label = .ok l := finished
    unfold Decoder.label at made
    split at made
    · cases made
    · obtain ⟨level, _, rest⟩ := bind_ok.mp made
      obtain rfl := pure_ok.mp rest
      exact viewed

/-- The category decoded from an element is the element's own exactly when nothing is carried into
it. -/
theorem category_own_iff {data : String} {l : ConfidentialityLabel} {before inner after : List Token}
    {attributes : List (String × String)} {failure : Option String}
    (document : R.read data =
      (before ++ .start "Category" attributes :: inner ++ .finish "Category" :: after, failure))
    (unnested : ∀ t ∈ inner, isCategoryTag t = false)
    (decoded : xmlDeserialize R readTime data = .ok l) :
    l.categories[endedCategories false before]? = some (ownCategory R.unescape attributes inner) ↔
      CarriesNothing before attributes := by
  obtain ⟨tags, types⟩ := view_carried R.unescape before {}
  obtain ⟨more, appended, counted⟩ := view_ended R.unescape before {}
  have index : endedCategories false before =
      (before.foldl (CategoryView.step R.unescape) {}).ended.length := by
    rw [appended, List.nil_append, counted]
  have element := view_element R.unescape (before.foldl (CategoryView.step R.unescape) {}) inner
    after attributes unnested
  rw [decoded_view decoded, document, index, List.append_assoc, List.foldl_append, element, tags,
    types, Option.some.injEq, ownCategory, CategoryMarking.mk.injEq, CarriesNothing]
  have given : ∀ name, (∃ a ∈ attributes, a.1 = name) ↔ lastAttribute name attributes ≠ none :=
    fun name => by rw [ne_eq, lastAttribute_eq_none, not_not]
  rw [given, given]
  cases lastAttribute "TagName" attributes <;> cases lastAttribute "Type" attributes <;>
    simp

end Elements

section Fixtures

def headTokens : List Token :=
  [.start "ConfidentialityLabel" [], .start "ConfidentialityInformation" [],
    .start "PolicyIdentifier" [], .text "NATO", .finish "PolicyIdentifier",
    .start "Classification" [], .text "SECRET", .finish "Classification"]

def valueTokens (v : String) : List Token :=
  [.start "GenericValue" [], .text v, .finish "GenericValue"]

def handlingAttributes : List (String × String) := [("TagName", "Handling"), ("Type", "RESTRICTIVE")]

def releasableAttributes : List (String × String) := [("TagName", "Releasable to")]

def handlingTokens : List Token :=
  .start "Category" handlingAttributes :: valueTokens "ATOMAL" ++ [.finish "Category"]

def lastTokens : List Token := [.finish "ConfidentialityInformation", .finish "ConfidentialityLabel"]

def untypedEvents : List Event :=
  [.start "ConfidentialityLabel" [], .start "ConfidentialityInformation" []] ++
    textElement "PolicyIdentifier" "NATO" ++ textElement "Classification" "SECRET" ++
    categoryEvents ⟨"Handling", .restrictive, ["ATOMAL"]⟩ ++
    .start "Category" releasableAttributes :: textElement "GenericValue" "USA" ++
    [.finish "Category", .finish "ConfidentialityInformation", .finish "ConfidentialityLabel"]

theorem untypedEvents_proper : letI := entityEscape
    (∀ e ∈ untypedEvents, e.Plain) ∧ (∀ e ∈ untypedEvents, e.Named) ∧ Spaced untypedEvents := by
  decide +kernel

theorem untypedEvents_tokens : letI := entityEscape
    untypedEvents.flatMap readBack =
      headTokens ++ handlingTokens ++ .start "Category" releasableAttributes :: valueTokens "USA" ++
        .finish "Category" :: lastTokens := by
  decide +kernel

theorem untypedEvents_read : letI := entityEscape
    entityReader.read (.ofList (renderEvents untypedEvents)) =
      (headTokens ++ handlingTokens ++ .start "Category" releasableAttributes :: valueTokens "USA" ++
        .finish "Category" :: lastTokens, none) := by
  let : MarkupEscape := entityEscape
  obtain ⟨plain, named, spaced⟩ := untypedEvents_proper
  have read := (entityReader_readsBack untypedEvents plain named spaced).document
  rwa [untypedEvents_tokens] at read

theorem untyped_decoded : letI := entityEscape
    ∃ l, xmlDeserialize entityReader plainTime (.ofList (renderEvents untypedEvents)) = .ok l ∧
      l.categories = [⟨"Handling", .restrictive, ["ATOMAL"]⟩, ⟨"Releasable to", .restrictive, ["USA"]⟩] := by
  let : MarkupEscape := entityEscape
  have ran : ∃ d, Decoder.run plainTime entityReader.unescape {}
      (headTokens ++ handlingTokens ++ .start "Category" releasableAttributes :: valueTokens "USA" ++
        .finish "Category" :: lastTokens) = .ok d ∧ d.label.map (·.categories) =
      .ok [⟨"Handling", .restrictive, ["ATOMAL"]⟩, ⟨"Releasable to", .restrictive, ["USA"]⟩] :=
    ⟨_, rfl, rfl⟩
  obtain ⟨d, ran, labelled⟩ := ran
  obtain ⟨l, made, categories⟩ := map_ok.mp labelled
  refine ⟨l, ?_, categories⟩
  unfold xmlDeserialize
  rw [untypedEvents_read, ran]
  exact made

/-- A category without a type comes out restrictive after a restrictive one. -/
theorem untyped_category_restrictive : letI := entityEscape
    ∃ l, xmlDeserialize entityReader plainTime (.ofList (renderEvents untypedEvents)) = .ok l ∧
      l.categories[1]? = some ⟨"Releasable to", .restrictive, ["USA"]⟩ ∧
      ownCategory entityReader.unescape releasableAttributes (valueTokens "USA") =
        ⟨"Releasable to", .permissive, ["USA"]⟩ := by
  obtain ⟨l, decoded, categories⟩ := untyped_decoded
  exact ⟨l, decoded, by rw [categories]; rfl, rfl⟩

theorem category_own_fixture : letI := entityEscape
    ∃ l, xmlDeserialize entityReader plainTime (.ofList (renderEvents untypedEvents)) = .ok l ∧
      l.categories[0]? =
        some (ownCategory entityReader.unescape handlingAttributes (valueTokens "ATOMAL")) := by
  let : MarkupEscape := entityEscape
  obtain ⟨l, decoded, _⟩ := untyped_decoded
  have unnested : ∀ t ∈ valueTokens "ATOMAL", isCategoryTag t = false := by decide
  have document : entityReader.read (.ofList (renderEvents untypedEvents)) =
      (headTokens ++ .start "Category" handlingAttributes :: valueTokens "ATOMAL" ++
        .finish "Category" :: (.start "Category" releasableAttributes :: valueTokens "USA" ++
          .finish "Category" :: lastTokens), none) := by
    rw [untypedEvents_read]
    rfl
  refine ⟨l, decoded, (category_own_iff document unnested decoded).mpr ⟨.inr ?_, .inr ?_⟩⟩
  · decide
  · decide

end Fixtures

end MimStanag
