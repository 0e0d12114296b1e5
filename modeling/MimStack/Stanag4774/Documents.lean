import MimStack.Stanag4774.Decoder

/-!
What the XML decoder makes of the documents the encoder writes. Each part of a
document has an effect on the decoder's variables; only a few of them, which every
element sets anew, depend on what was read before.
-/
namespace MimStanag
open RustText Fallible MimCore MimLabeling MarkupText

structure Scratch where
  tag : String
  type : CategoryType
  values : List String
  element : String

def Decoder.scratched (d : Decoder) (s : Scratch) : Decoder :=
  { d with
    currentCategoryTag := s.tag
    currentCategoryType := s.type
    currentCategoryValues := s.values
    currentElement := s.element }

section Effects

variable (readTime : TimeReader) (unescape : String → Except String String)

theorem run_append (d : Decoder) (xs ys : List Token) :
    d.run readTime unescape (xs ++ ys) =
      (d.run readTime unescape xs >>= fun next => next.run readTime unescape ys) :=
  List.foldlM_append

theorem run_cons (d : Decoder) (t : Token) (rest : List Token) :
    d.run readTime unescape (t :: rest) =
      (d.step readTime unescape t >>= fun next => next.run readTime unescape rest) :=
  List.foldlM_cons

variable {readTime unescape} in
theorem run_of_run {d next : Decoder} {xs : List Token} (first : d.run readTime unescape xs = .ok next)
    (ys : List Token) : d.run readTime unescape (xs ++ ys) = next.run readTime unescape ys := by
  rw [run_append, first]
  rfl

variable {readTime unescape} in
theorem run_of_step {d next : Decoder} {t : Token} (first : d.step readTime unescape t = .ok next)
    (rest : List Token) : d.run readTime unescape (t :: rest) = next.run readTime unescape rest := by
  rw [run_cons, first]
  rfl

structure Does (tokens : List Token) (f : Decoder → Decoder) : Prop where
  ran : ∀ d : Decoder, d.inCategory = false → ∃ s, d.run readTime unescape tokens = .ok ((f d).scratched s)
  outside : ∀ d : Decoder, d.inCategory = false → (f d).inCategory = false
  blind : ∀ (d : Decoder) s, ∃ s', f (d.scratched s) = (f d).scratched s'

variable {readTime unescape}

theorem Does.append {xs ys : List Token} {f g : Decoder → Decoder}
    (first : Does readTime unescape xs f) (second : Does readTime unescape ys g) :
    Does readTime unescape (xs ++ ys) fun d => g (f d) where
  ran d closed := by
    obtain ⟨s, ran⟩ := first.ran d closed
    obtain ⟨s', later⟩ := second.ran ((f d).scratched s) (first.outside d closed)
    obtain ⟨s'', same⟩ := second.blind (f d) s
    refine ⟨s', ?_⟩
    rw [run_of_run ran, later, same]
    rfl
  outside d closed := second.outside (f d) (first.outside d closed)
  blind d s := by
    obtain ⟨s', same⟩ := first.blind d s
    obtain ⟨s'', again⟩ := second.blind (f d) s'
    exact ⟨s'', by rw [same, again]⟩

theorem Does.flatMap {α : Type} {tokens : α → List Token} {f : α → Decoder → Decoder} (items : List α)
    (each : ∀ a ∈ items, Does readTime unescape (tokens a) (f a)) :
    Does readTime unescape (items.flatMap tokens) fun d => items.foldl (fun d a => f a d) d := by
  induction items with
  | nil =>
    refine ⟨fun d _ => ⟨⟨d.currentCategoryTag, d.currentCategoryType, d.currentCategoryValues,
      d.currentElement⟩, rfl⟩, fun _ closed => closed, fun d s => ⟨s, rfl⟩⟩
  | cons a rest ih =>
    exact (each a List.mem_cons_self).append (ih fun b mem => each b (List.mem_cons_of_mem a mem))

end Effects

section Written

variable [MarkupEscape]

def wrote (events : List Event) : List Token := events.flatMap readBack

theorem wrote_append (xs ys : List Event) : wrote (xs ++ ys) = wrote xs ++ wrote ys :=
  List.flatMap_append

def Trimmed (s : String) : Prop :=
  s ≠ "" ∧ (∀ c ∈ s.toList.head?, isBlank c = false) ∧ ∀ c ∈ s.toList.getLast?, isBlank c = false

instance (s : String) : Decidable (Trimmed s) :=
  @instDecidableAnd _ _ inferInstance
    (@instDecidableAnd _ _ (Option.decidableForallMem _) (Option.decidableForallMem _))

/-- The escaping is by the predefined entities. -/
def EscapesEntities : Prop := ∀ s, MarkupEscape.escape s = entityEscape.escape s

theorem readBack_text (entities : EscapesEntities) {s : String} (trimmed : Trimmed s) :
    readBack (.text s) = [.text (MarkupEscape.escape s)] := by
  obtain ⟨filled, first, last⟩ := trimmed
  have chars : (MarkupEscape.escape s).toList = s.toList.flatMap entityOf := by
    rw [entities]
    exact String.toList_ofList
  obtain ⟨c, rest, begun⟩ : ∃ c rest, s.toList = c :: rest :=
    List.exists_cons_of_ne_nil fun empty => filled (String.toList_inj.mp empty)
  obtain ⟨start, d, ended⟩ : ∃ start d, s.toList = start ++ [d] := by
    rcases List.eq_nil_or_concat s.toList with empty | ⟨start, d, shape⟩
    · cases begun.symm.trans empty
    · exact ⟨start, d, by rw [shape, List.concat_eq_append]⟩
  have visibleFirst : isBlank c = false := first c (by rw [begun]; rfl)
  have visibleLast : isBlank d = false := last d (by rw [ended, List.getLast?_concat]; rfl)
  have whole : trimBlank (MarkupEscape.escape s).toList = (MarkupEscape.escape s).toList := by
    refine trimBlank_eq (fun e mem => ?_) (fun e mem => ?_)
    · rw [chars, begun, List.flatMap_cons, List.head?_append_of_ne_nil _ (entityOf_nonempty c)] at mem
      exact (entityOf_ends c visibleFirst).1 e mem
    · rw [chars, ended, List.flatMap_append, List.flatMap_singleton,
        List.getLast?_append_of_ne_nil _ (entityOf_nonempty d)] at mem
      exact (entityOf_ends d visibleLast).2 e mem
  have there : (MarkupEscape.escape s).toList.isEmpty = false := by
    rw [chars, begun, List.flatMap_cons]
    cases shape : entityOf c with
    | nil => exact absurd shape (entityOf_nonempty c)
    | cons e later => rfl
  rw [readBack, textTokens, whole, there, if_neg Bool.false_ne_true, String.ofList_toList]

variable {readTime : TimeReader} {unescape : String → Except String String}

def textElements : List String :=
  ["PolicyIdentifier", "Classification", "PrivacyMark", "Colour", "MarkingData", "GenericValue"]

omit [MarkupEscape] in
theorem startElement_text {name : String} (listed : name ∈ textElements) (d : Decoder) :
    d.startElement readTime name [] = .ok { d with currentElement := name } := by
  simp only [textElements, List.mem_cons, List.not_mem_nil, or_false] at listed
  rcases listed with rfl | rfl | rfl | rfl | rfl | rfl <;> rfl

omit [MarkupEscape] in
theorem endElement_text {name : String} (listed : name ∈ textElements) (d : Decoder) :
    d.endElement name = .ok { d with currentElement := "" } := by
  simp only [textElements, List.mem_cons, List.not_mem_nil, or_false] at listed
  rcases listed with rfl | rfl | rfl | rfl | rfl | rfl <;> rfl

structure Undoes (unescape : String → Except String String) : Prop where
  entities : EscapesEntities
  unescapes : ∀ s, unescape (MarkupEscape.escape s) = .ok s

theorem run_text (undoes : Undoes unescape) {name value : String} (listed : name ∈ textElements) (d : Decoder) :
    d.run readTime unescape [.text (MarkupEscape.escape value), .finish name] =
      (d.setText readTime value).map fun d => { d with currentElement := "" } := by
  have step : d.step readTime unescape (.text (MarkupEscape.escape value)) =
      d.setText readTime value := by
    rw [Decoder.step, undoes.unescapes]
    rfl
  cases texted : d.setText readTime value with
  | error e =>
    rw [run_cons, step, texted]
    rfl
  | ok next =>
    have left : next.step readTime unescape (.finish name) = .ok { next with currentElement := "" } :=
      endElement_text listed next
    rw [run_of_step (step.trans texted), run_of_step left]
    rfl

theorem does_texted (undoes : Undoes unescape) {name value : String}
    {attributes : List (String × String)}
    (listed : name ∈ textElements) (trimmed : Trimmed value) {f : Decoder → Decoder}
    (set : ∀ d : Decoder, ∃ next : Decoder, d.startElement readTime name
        (attributes.map fun a => (a.1, MarkupEscape.escape a.2)) = .ok next ∧
      ∃ s, next.setText readTime value = .ok ((f d).scratched s))
    (outside : ∀ d : Decoder, d.inCategory = false → (f d).inCategory = false)
    (blind : ∀ (d : Decoder) s, ∃ s', f (d.scratched s) = (f d).scratched s') :
    Does readTime unescape (wrote [.start name attributes, .text value, .finish name]) f where
  outside := outside
  blind := blind
  ran d _ := by
    obtain ⟨next, started, s, texted⟩ := set d
    have tokens : wrote [.start name attributes, .text value, .finish name] =
        .start name (attributes.map fun a => (a.1, MarkupEscape.escape a.2)) ::
          [.text (MarkupEscape.escape value), .finish name] := by
      rw [wrote, List.flatMap_cons, List.flatMap_cons, readBack_text undoes.entities trimmed]
      rfl
    have begun : d.step readTime unescape
        (.start name (attributes.map fun a => (a.1, MarkupEscape.escape a.2))) = .ok next := started
    refine ⟨{ s with element := "" }, ?_⟩
    rw [tokens, run_of_step begun, run_text undoes listed next, texted]
    rfl

def setPolicy (policy : LabelPolicy) (d : Decoder) : Decoder :=
  { d with
    policy := policy.identifier
    policyOid := (policy.oid.map MarkupEscape.escape).or d.policyOid }

inductive Placed where
  | classification
  | privacyMark
  | colour
  | markingData

def Placed.element : Placed → String
  | .classification => "Classification"
  | .privacyMark => "PrivacyMark"
  | .colour => "Colour"
  | .markingData => "MarkingData"

def Placed.set (text : String) (d : Decoder) : Placed → Decoder
  | .classification =>
    if d.inAlternative then { d with altClassification := text } else { d with classification := text }
  | .privacyMark =>
    if d.inAlternative then { d with altPrivacy := some text } else { d with privacyMark := some text }
  | .colour =>
    if d.inAlternative then { d with altColour := some text } else { d with colour := some text }
  | .markingData =>
    if d.inAlternative then { d with altMarking := some text } else { d with markingData := some text }

theorem does_policy (readTime : TimeReader) (undoes : Undoes unescape) (policy : LabelPolicy)
    (trimmed : Trimmed policy.identifier) :
    Does readTime unescape (wrote (policyEvents policy)) (setPolicy policy) := by
  unfold policyEvents
  cases named : policy.oid with
  | none =>
    refine does_texted undoes (by decide) trimmed (fun d => ?_) (fun _ closed => closed)
      (fun d s => ⟨s, rfl⟩)
    refine ⟨_, rfl, ⟨d.currentCategoryTag, d.currentCategoryType, d.currentCategoryValues,
      "PolicyIdentifier"⟩, ?_⟩
    rw [setPolicy, named]
    rfl
  | some oid =>
    refine does_texted undoes (by decide) trimmed (fun d => ?_) (fun _ closed => closed)
      (fun d s => ⟨s, rfl⟩)
    refine ⟨_, rfl, ⟨d.currentCategoryTag, d.currentCategoryType, d.currentCategoryValues,
      "PolicyIdentifier"⟩, ?_⟩
    rw [setPolicy, named]
    rfl

def Decoder.scratch (d : Decoder) (element : String) : Scratch :=
  ⟨d.currentCategoryTag, d.currentCategoryType, d.currentCategoryValues, element⟩

theorem does_element (undoes : Undoes unescape) {name value : String} (listed : name ∈ textElements)
    (trimmed : Trimmed value) {f : Decoder → Decoder}
    (set : ∀ d : Decoder, d.currentElement = name → d.setText readTime value = .ok (f d))
    (outside : ∀ d : Decoder, d.inCategory = false → (f d).inCategory = false)
    (blind : ∀ (d : Decoder) s, f (d.scratched s) = (f d).scratched s) :
    Does readTime unescape (wrote (textElement name value)) f := by
  refine does_texted undoes listed trimmed (fun d => ?_) outside fun d s => ⟨s, blind d s⟩
  refine ⟨d.scratched (d.scratch name), startElement_text listed d, d.scratch name, ?_⟩
  rw [set _ rfl, blind]

theorem does_placed (readTime : TimeReader) (undoes : Undoes unescape) (place : Placed) {text : String}
    (trimmed : Trimmed text) :
    Does readTime unescape (wrote (textElement place.element text)) fun d => place.set text d := by
  have listed : place.element ∈ textElements := by
    cases place <;> decide
  refine does_element undoes listed trimmed (fun d here => ?_) (fun d closed => ?_) fun d s => ?_
  · cases place <;> simp only [Decoder.setText, here, Placed.element, Placed.set]
  · cases within : d.inAlternative <;> cases place <;>
      simp only [Placed.set, within, if_true, Bool.false_eq_true, if_false] <;> exact closed
  · cases within : d.inAlternative <;> cases place <;>
      simp only [Placed.set, Decoder.scratched, within] <;> rfl

def whenThere (place : Placed) (value : Option String) (d : Decoder) : Decoder :=
  value.elim d (place.set · d)

omit [MarkupEscape] in
theorem does_nothing : Does readTime unescape [] id where
  ran d _ := ⟨d.scratch d.currentElement, rfl⟩
  outside _ closed := closed
  blind _ s := ⟨s, rfl⟩

theorem does_optional (readTime : TimeReader) (undoes : Undoes unescape) (place : Placed)
    {value : Option String} (trimmed : ∀ v ∈ value, Trimmed v) :
    Does readTime unescape (wrote (optionalElement place.element value)) (whenThere place value) := by
  cases value with
  | none => exact does_nothing
  | some v => exact does_placed readTime undoes place (trimmed v rfl)

def rawCategory (c : CategoryMarking) : CategoryMarking :=
  { c with tagName := MarkupEscape.escape c.tagName }

def addCategory (c : CategoryMarking) (d : Decoder) : Decoder :=
  { d with categories := d.categories ++ [rawCategory c] }

theorem categoryTypeToStr_escape (entities : EscapesEntities) (t : CategoryType) :
    MarkupEscape.escape (categoryTypeToStr t) = categoryTypeToStr t := by
  have ordinary : ¬ Special (categoryTypeToStr t) := by cases t <;> decide
  rw [entities, (entityEscape_self_iff _).mpr ordinary]

theorem run_values (readTime : TimeReader) (undoes : Undoes unescape) (values : List String)
    (trimmed : ∀ v ∈ values, Trimmed v) (d : Decoder) (within : d.inCategory = true) :
    ∃ element, d.run readTime unescape (wrote (values.flatMap (textElement "GenericValue"))) =
      .ok { d with
        currentCategoryValues := d.currentCategoryValues ++ values
        currentElement := element } := by
  induction values generalizing d with
  | nil => exact ⟨d.currentElement, by rw [List.append_nil]; rfl⟩
  | cons v rest ih =>
    have tokens : wrote (textElement "GenericValue" v) =
        .start "GenericValue" [] :: [.text (MarkupEscape.escape v), .finish "GenericValue"] := by
      rw [wrote, textElement, List.flatMap_cons, List.flatMap_cons,
        readBack_text undoes.entities (trimmed v List.mem_cons_self)]
      rfl
    have begun : d.step readTime unescape (.start "GenericValue" []) =
        .ok { d with currentElement := "GenericValue" } := startElement_text (by decide) d
    have texted : ({ d with currentElement := "GenericValue" } : Decoder).setText readTime v =
        .ok { d with
          currentElement := "GenericValue"
          currentCategoryValues := d.currentCategoryValues ++ [v] } := by
      simp only [Decoder.setText, within, if_true]
    have first : d.run readTime unescape (wrote (textElement "GenericValue" v)) =
        .ok { d with
          currentElement := ""
          currentCategoryValues := d.currentCategoryValues ++ [v] } := by
      rw [tokens, run_of_step begun, run_text undoes (by decide), texted]
      rfl
    obtain ⟨element, later⟩ := ih (fun w mem => trimmed w (List.mem_cons_of_mem v mem))
      { d with currentElement := "", currentCategoryValues := d.currentCategoryValues ++ [v] } within
    refine ⟨element, ?_⟩
    rw [List.flatMap_cons, wrote_append, run_of_run first, later, List.append_assoc]
    rfl

theorem does_category (readTime : TimeReader) (undoes : Undoes unescape) (c : CategoryMarking)
    (trimmed : ∀ v ∈ c.values, Trimmed v) :
    Does readTime unescape (wrote (categoryEvents c)) (addCategory c) where
  outside _ closed := closed
  blind _ s := ⟨s, rfl⟩
  ran d closed := by
    let opened : Decoder :=
      { d with
        inCategory := true
        currentCategoryTag := MarkupEscape.escape c.tagName
        currentCategoryType := parseCategoryType (categoryTypeToStr c.categoryType)
        currentCategoryValues := []
        currentElement := "Category" }
    have tokens : wrote (categoryEvents c) = .start "Category"
        [("TagName", MarkupEscape.escape c.tagName),
          ("Type", MarkupEscape.escape (categoryTypeToStr c.categoryType))] ::
        (wrote (c.values.flatMap (textElement "GenericValue")) ++ [.finish "Category"]) := by
      simp only [wrote, categoryEvents, List.flatMap_cons, List.flatMap_append, readBack,
        List.map_cons, List.map_nil, List.cons_append, List.nil_append, List.flatMap_nil,
        List.append_nil]
    have begun : d.step readTime unescape (.start "Category"
        [("TagName", MarkupEscape.escape c.tagName),
          ("Type", MarkupEscape.escape (categoryTypeToStr c.categoryType))]) = .ok opened := by
      rw [categoryTypeToStr_escape undoes.entities]
      rfl
    obtain ⟨element, inside⟩ := run_values readTime undoes c.values trimmed opened rfl
    have left : ∀ x : Decoder, x.inCategory = true → x.step readTime unescape (.finish "Category") =
        .ok { x with
          categories := x.categories ++ [x.currentCategory]
          inCategory := false
          currentElement := "" } := by
      intro x within
      simp only [Decoder.step, Decoder.endElement, Decoder.leave, within, and_self, if_true]
      rfl
    refine ⟨⟨MarkupEscape.escape c.tagName, c.categoryType, c.values, ""⟩, ?_⟩
    rw [tokens, run_of_step begun, run_of_run inside, run_of_step (left _ rfl)]
    simp only [opened, Decoder.currentCategory, parseCategoryType_toStr, addCategory, rawCategory,
      Decoder.scratched, closed, List.nil_append]
    rfl

/-- The texts of the elements that say what a label is. -/
structure TrimmedTexts (l : ConfidentialityLabel) : Prop where
  policy : Trimmed l.policy.identifier
  privacyMark : ∀ v ∈ l.privacyMark, Trimmed v
  colour : ∀ v ∈ l.colour, Trimmed v
  markingData : ∀ v ∈ l.markingData, Trimmed v
  values : ∀ c ∈ l.categories, ∀ v ∈ c.values, Trimmed v

def setInformation (l : ConfidentialityLabel) (d : Decoder) : Decoder :=
  l.categories.foldl (fun d c => addCategory c d)
    (whenThere .markingData l.markingData (whenThere .colour l.colour
      (whenThere .privacyMark l.privacyMark
        (Placed.classification.set l.classification.asStanagStr (setPolicy l.policy d)))))

omit [MarkupEscape] in
theorem does_holder (readTime : TimeReader) (unescape : String → Except String String) (t : Token)
    (holds : t = .start "ConfidentialityInformation" [] ∨ t = .finish "ConfidentialityInformation") :
    Does readTime unescape [t] id where
  outside _ closed := closed
  blind _ s := ⟨s, rfl⟩
  ran d _ := by
    rcases holds with rfl | rfl
    · exact ⟨d.scratch "ConfidentialityInformation", rfl⟩
    · exact ⟨d.scratch "", rfl⟩

theorem does_information (readTime : TimeReader) (undoes : Undoes unescape) (l : ConfidentialityLabel)
    (trimmed : TrimmedTexts l) :
    Does readTime unescape (wrote (confidentialityInformation l)) (setInformation l) := by
  have level : Trimmed l.classification.asStanagStr := by
    cases l.classification <;> decide
  have policy := does_policy readTime undoes l.policy trimmed.policy
  have classification := does_placed readTime undoes .classification level
  have privacy := does_optional readTime undoes .privacyMark trimmed.privacyMark
  have colour := does_optional readTime undoes .colour trimmed.colour
  have marking := does_optional readTime undoes .markingData trimmed.markingData
  have categories := Does.flatMap l.categories fun c mem =>
    does_category readTime undoes c (trimmed.values c mem)
  have opening := does_holder readTime unescape _ (.inl rfl)
  have closing := does_holder readTime unescape _ (.inr rfl)
  have tokens : wrote (confidentialityInformation l) =
      [.start "ConfidentialityInformation" []] ++ wrote (policyEvents l.policy) ++
        wrote (textElement "Classification" l.classification.asStanagStr) ++
        wrote (optionalElement "PrivacyMark" l.privacyMark) ++
        wrote (optionalElement "Colour" l.colour) ++
        wrote (optionalElement "MarkingData" l.markingData) ++
        l.categories.flatMap (fun c => wrote (categoryEvents c)) ++
        [.finish "ConfidentialityInformation"] := by
    simp only [wrote, confidentialityInformation, List.flatMap_cons, List.flatMap_append, readBack,
      List.map_nil, List.append_assoc, List.flatMap_assoc, List.cons_append, List.nil_append,
      List.flatMap_nil]
  rw [tokens]
  exact (((((((opening.append policy).append classification).append privacy).append colour).append
    marking).append categories).append closing)

omit [MarkupEscape] in
theorem whenThere_eq (place : Placed) (value : Option String) (d : Decoder) :
    whenThere place value d = match value with
      | none => d
      | some v => place.set v d := by
  cases value <;> rfl

theorem addCategories_fold (categories : List CategoryMarking) (d : Decoder) :
    categories.foldl (fun d c => addCategory c d) d =
      { d with categories := d.categories ++ categories.map rawCategory } := by
  induction categories generalizing d with
  | nil => rw [List.map_nil, List.append_nil]; rfl
  | cons c rest ih =>
    rw [List.foldl_cons, ih, addCategory, List.map_cons, List.append_assoc]
    rfl

theorem setInformation_label (l : ConfidentialityLabel) {d : Decoder}
    (outside : d.inAlternative = false) : setInformation l d =
      { d with
        policy := l.policy.identifier
        policyOid := (l.policy.oid.map MarkupEscape.escape).or d.policyOid
        classification := l.classification.asStanagStr
        privacyMark := l.privacyMark.or d.privacyMark
        colour := l.colour.or d.colour
        markingData := l.markingData.or d.markingData
        categories := d.categories ++ l.categories.map rawCategory } := by
  rw [setInformation, addCategories_fold]
  cases l.privacyMark <;> cases l.colour <;> cases l.markingData <;>
    simp only [whenThere_eq, setPolicy, Placed.set, outside, Bool.false_eq_true, if_false] <;> rfl

theorem setInformation_alternative (l : ConfidentialityLabel) {d : Decoder}
    (within : d.inAlternative = true) : setInformation l d =
      { d with
        policy := l.policy.identifier
        policyOid := (l.policy.oid.map MarkupEscape.escape).or d.policyOid
        altClassification := l.classification.asStanagStr
        altPrivacy := l.privacyMark.or d.altPrivacy
        altColour := l.colour.or d.altColour
        altMarking := l.markingData.or d.altMarking
        categories := d.categories ++ l.categories.map rawCategory } := by
  rw [setInformation, addCategories_fold]
  cases l.privacyMark <;> cases l.colour <;> cases l.markingData <;>
    simp only [whenThere_eq, setPolicy, Placed.set, within, if_true] <;> rfl

omit [MarkupEscape] in
def decodedAlternative (a : ConfidentialityLabel) : ConfidentialityLabel :=
  { ConfidentialityLabel.new (.new "NATO") a.classification with
    privacyMark := a.privacyMark
    colour := a.colour
    markingData := a.markingData }

def setAlternative (a : ConfidentialityLabel) (d : Decoder) : Decoder :=
  { setInformation a d.clearAlternative with
    alternativeLabels := d.alternativeLabels ++ [decodedAlternative a]
    inAlternative := false }

theorem does_alternative (readTime : TimeReader) (undoes : Undoes unescape) (a : ConfidentialityLabel)
    (trimmed : TrimmedTexts a) :
    Does readTime unescape (wrote (alternativeEvents a)) (setAlternative a) where
  outside d closed := by
    rw [setAlternative, setInformation_alternative a rfl]
    exact closed
  blind d s := by
    refine ⟨s, ?_⟩
    rw [setAlternative, setAlternative, setInformation_alternative a rfl,
      setInformation_alternative a rfl]
    rfl
  ran d closed := by
    have tokens : wrote (alternativeEvents a) = .start "alternativeConfidentialityLabel" [] ::
        (wrote (confidentialityInformation a) ++ [.finish "alternativeConfidentialityLabel"]) := by
      simp only [wrote, alternativeEvents, List.flatMap_cons, List.flatMap_append, readBack,
        List.map_nil, List.cons_append, List.nil_append, List.flatMap_nil, List.append_nil]
    let opened : Decoder := { d.clearAlternative with currentElement := "alternativeConfidentialityLabel" }
    have begun : d.step readTime unescape (.start "alternativeConfidentialityLabel" []) =
        .ok opened := rfl
    obtain ⟨s, inside⟩ := (does_information readTime undoes a trimmed).ran opened closed
    have level : isEmpty a.classification.asStanagStr = false := by
      cases a.classification <;> decide
    have left : ((setInformation a opened).scratched s).step readTime unescape
        (.finish "alternativeConfidentialityLabel") =
        .ok ((setAlternative a d).scratched { s with element := "" }) := by
      rw [setAlternative, setInformation_alternative a (d := opened) rfl,
        setInformation_alternative a (d := d.clearAlternative) rfl]
      simp only [Decoder.step, Decoder.endElement, Decoder.leave, Decoder.scratched, opened,
        Decoder.clearAlternative, String.reduceEq, false_and, if_false, true_and, if_true,
        Decoder.closeAlternative, level, Bool.false_eq_true, ClassificationLevel.parse_asStanagStr,
        Option.or_none]
      rfl
    refine ⟨{ s with element := "" }, ?_⟩
    rw [tokens, run_of_step begun, run_of_run inside, run_of_step left]
    rfl

theorem setAlternative_eq (a : ConfidentialityLabel) (d : Decoder) : setAlternative a d =
    { d.clearAlternative with
      policy := a.policy.identifier
      policyOid := (a.policy.oid.map MarkupEscape.escape).or d.policyOid
      altClassification := a.classification.asStanagStr
      altPrivacy := a.privacyMark
      altColour := a.colour
      altMarking := a.markingData
      categories := d.categories ++ a.categories.map rawCategory
      alternativeLabels := d.alternativeLabels ++ [decodedAlternative a]
      inAlternative := false } := by
  rw [setAlternative, setInformation_alternative a rfl]
  simp only [Decoder.clearAlternative, Option.or_none]

def setAlternatives (alternatives : List ConfidentialityLabel) (d : Decoder) : Decoder :=
  alternatives.foldl (fun d a => setAlternative a d) d

theorem does_alternatives (readTime : TimeReader) (undoes : Undoes unescape) (alternatives : List ConfidentialityLabel)
    (trimmed : ∀ a ∈ alternatives, TrimmedTexts a) :
    Does readTime unescape (wrote (alternatives.flatMap alternativeEvents))
      (setAlternatives alternatives) := by
  rw [wrote, List.flatMap_assoc]
  exact Does.flatMap alternatives fun a mem => does_alternative readTime undoes a (trimmed a mem)

theorem setAlternatives_eq (alternatives : List ConfidentialityLabel) {d : Decoder}
    (outside : d.inAlternative = false) :
    ∃ x : Decoder, setAlternatives alternatives d =
      { d with
        policy := alternatives.foldl (fun _ a => a.policy.identifier) d.policy
        policyOid := alternatives.foldl
          (fun oid a => (a.policy.oid.map MarkupEscape.escape).or oid) d.policyOid
        categories := d.categories ++ (alternatives.flatMap (·.categories)).map rawCategory
        alternativeLabels := d.alternativeLabels ++ alternatives.map decodedAlternative
        altPolicy := x.altPolicy
        altPolicyOid := x.altPolicyOid
        altClassification := x.altClassification
        altPrivacy := x.altPrivacy
        altColour := x.altColour
        altMarking := x.altMarking
        altCategories := x.altCategories } := by
  induction alternatives generalizing d with
  | nil =>
    refine ⟨d, ?_⟩
    simp only [List.flatMap_nil, List.map_nil, List.append_nil]
    rfl
  | cons a rest ih =>
    have next : (setAlternative a d).inAlternative = false := rfl
    obtain ⟨x, later⟩ := ih next
    refine ⟨x, ?_⟩
    have first : setAlternatives (a :: rest) d = setAlternatives rest (setAlternative a d) := rfl
    rw [first, later, setAlternative_eq]
    simp only [List.flatMap_cons, List.map_append, List.map_cons, List.append_assoc,
      List.singleton_append, List.foldl_cons, Decoder.clearAlternative, outside]

def lastPolicy (l : ConfidentialityLabel) : String :=
  l.alternativeLabels.foldl (fun _ a => a.policy.identifier) l.policy.identifier

def lastOid (l : ConfidentialityLabel) : Option String :=
  l.alternativeLabels.foldl (fun oid a => (a.policy.oid.map MarkupEscape.escape).or oid)
    (l.policy.oid.map MarkupEscape.escape)

def decodedLabel (l : ConfidentialityLabel) (created reviewed : Option DateTime) :
    ConfidentialityLabel :=
  { ConfidentialityLabel.new { LabelPolicy.new (lastPolicy l) with oid := lastOid l }
      l.classification with
    privacyMark := l.privacyMark
    colour := l.colour
    markingData := l.markingData
    categories := (l.categories ++ l.alternativeLabels.flatMap (·.categories)).map rawCategory
    alternativeLabels := l.alternativeLabels.map decodedAlternative
    creationTime := created
    reviewDateTime := reviewed }

omit [MarkupEscape] in
theorem lastPolicy_filled {l : ConfidentialityLabel} (here : Trimmed l.policy.identifier)
    (there : ∀ a ∈ l.alternativeLabels, Trimmed a.policy.identifier) :
    isEmpty (lastPolicy l) = false := by
  have filled : ∀ (alternatives : List ConfidentialityLabel) (first : String), Trimmed first →
      (∀ a ∈ alternatives, Trimmed a.policy.identifier) →
      Trimmed (alternatives.foldl (fun _ a => a.policy.identifier) first) := by
    intro alternatives
    induction alternatives with
    | nil => exact fun _ first _ => first
    | cons a rest ih =>
      intro _ _ each
      exact ih _ (each a List.mem_cons_self) fun b mem => each b (List.mem_cons_of_mem a mem)
  rw [isEmpty, List.isEmpty_eq_false_iff]
  exact fun empty => (filled _ _ here there).1 (String.toList_inj.mp empty)

def rooted (created reviewed : Option DateTime) : Decoder :=
  { creationTime := created, reviewDateTime := reviewed, currentElement := "ConfidentialityLabel" }

theorem setInformation_rooted (l : ConfidentialityLabel) (created reviewed : Option DateTime) :
    setInformation l (rooted created reviewed) =
      { rooted created reviewed with
        policy := l.policy.identifier
        policyOid := l.policy.oid.map MarkupEscape.escape
        classification := l.classification.asStanagStr
        privacyMark := l.privacyMark
        colour := l.colour
        markingData := l.markingData
        categories := l.categories.map rawCategory } := by
  rw [setInformation_label l rfl]
  simp only [rooted, Option.or_none, List.nil_append]

theorem label_decoded (l : ConfidentialityLabel) (created reviewed : Option DateTime)
    (named : isEmpty (lastPolicy l) = false) (s : Scratch) :
    ((setAlternatives l.alternativeLabels
      (setInformation l (rooted created reviewed))).scratched s).label =
      .ok (decodedLabel l created reviewed) := by
  obtain ⟨x, after⟩ :=
    setAlternatives_eq l.alternativeLabels (d := setInformation l (rooted created reviewed))
      (by rw [setInformation_rooted]; rfl)
  have there : isEmpty l.classification.asStanagStr = false := by
    cases l.classification <;> decide
  have policy : isEmpty (l.alternativeLabels.foldl (fun _ a => a.policy.identifier)
      l.policy.identifier) = false := named
  rw [after, setInformation_rooted]
  simp only [Decoder.label, Decoder.scratched, policy, there, Bool.false_eq_true, if_false,
    ClassificationLevel.parse_asStanagStr]
  rw [decodedLabel, List.map_append]
  rfl

def readAttribute (readTime : TimeReader) (time : Option DateTime) :
    Except LabelError (Option DateTime) :=
  parseTime readTime (time.map fun t => MarkupEscape.escape t.toRfc3339)

def rawAttributes (attributes : List (String × String)) : List (String × String) :=
  attributes.map fun a => (a.1, MarkupEscape.escape a.2)

theorem foldlM_timeAttribute {name : String} (put : Option DateTime → Decoder) {d : Decoder}
    (unread : put none = d) (step : ∀ value, d.wrapperAttribute readTime (name, value) =
      (parseDatetime readTime value).map fun t => put (some t)) (time : Option DateTime) :
    (rawAttributes (timeAttribute name time)).foldlM (Decoder.wrapperAttribute readTime) d =
      (readAttribute readTime time).map put := by
  cases time with
  | none => exact (congrArg Except.ok unread).symm
  | some t =>
    have read : d.wrapperAttribute readTime (name, MarkupEscape.escape t.toRfc3339) =
        (readAttribute readTime (some t)).map put := by
      rw [step, parseDatetime, readAttribute, Option.map_some, parseTime]
      cases readTime (MarkupEscape.escape t.toRfc3339) <;> rfl
    exact (List.foldlM_cons.trans (bind_pure _)).trans read

omit [MarkupEscape] in
theorem wrapperAttribute_creation (d : Decoder) (value : String) :
    d.wrapperAttribute readTime ("CreationTime", value) =
      (parseDatetime readTime value).map fun t => { d with creationTime := some t } := by
  simp only [Decoder.wrapperAttribute]
  cases parseDatetime readTime value <;> rfl

omit [MarkupEscape] in
theorem wrapperAttribute_review (d : Decoder) (value : String) :
    d.wrapperAttribute readTime ("ReviewDateTime", value) =
      (parseDatetime readTime value).map fun t => { d with reviewDateTime := some t } := by
  simp only [Decoder.wrapperAttribute]
  cases parseDatetime readTime value <;> rfl

theorem foldlM_rootAttributes (l : ConfidentialityLabel) :
    (rawAttributes (rootAttributes l)).foldlM (Decoder.wrapperAttribute readTime) {} =
      (readAttribute readTime l.creationTime >>= fun created =>
        (readAttribute readTime l.reviewDateTime).map fun reviewed =>
          { creationTime := created, reviewDateTime := reviewed }) := by
  have parts : rawAttributes (rootAttributes l) = ("xmlns", MarkupEscape.escape stanag4774Namespace) ::
      (rawAttributes (timeAttribute "CreationTime" l.creationTime) ++
        rawAttributes (timeAttribute "ReviewDateTime" l.reviewDateTime)) := by
    simp only [rootAttributes, rawAttributes, List.cons_append, List.map_cons, List.map_append]
  have ignored : Decoder.wrapperAttribute readTime {}
      ("xmlns", MarkupEscape.escape stanag4774Namespace) = .ok {} := rfl
  rw [parts, List.foldlM_cons, ignored]
  refine (List.foldlM_append).trans ?_
  rw [foldlM_timeAttribute (fun t => { creationTime := t }) rfl (wrapperAttribute_creation {})]
  cases readAttribute readTime l.creationTime with
  | error e => rfl
  | ok created =>
    exact foldlM_timeAttribute (fun t => { creationTime := created, reviewDateTime := t }) rfl
      (wrapperAttribute_review _) _

theorem run_root (unescape : String → Except String String) (l : ConfidentialityLabel) :
    Decoder.run readTime unescape {}
      (wrote [.decl "1.0" "UTF-8", .start "ConfidentialityLabel" (rootAttributes l)]) =
    (readAttribute readTime l.creationTime >>= fun created =>
      (readAttribute readTime l.reviewDateTime).map fun reviewed => rooted created reviewed) := by
  have document : wrote [.decl "1.0" "UTF-8", .start "ConfidentialityLabel" (rootAttributes l)] =
      [.other, .start "ConfidentialityLabel" (rawAttributes (rootAttributes l))] := rfl
  have begun : ({} : Decoder).step readTime unescape
      (.start "ConfidentialityLabel" (rawAttributes (rootAttributes l))) =
      (readAttribute readTime l.creationTime >>= fun created =>
        (readAttribute readTime l.reviewDateTime).map fun reviewed => rooted created reviewed) := by
    refine (congrArg (Except.map fun d : Decoder =>
      { d with currentElement := "ConfidentialityLabel" }) (foldlM_rootAttributes l)).trans ?_
    cases readAttribute readTime l.creationTime with
    | error e => rfl
    | ok created => cases readAttribute readTime l.reviewDateTime <;> rfl
  rw [document, @run_of_step readTime unescape {} {} .other rfl, run_cons, begun]
  exact bind_pure _

theorem xmlDeserialize_xmlSerialize {R : MarkupReader} {l : ConfidentialityLabel}
    (entities : EscapesEntities) (reads : R.ReadsBack (labelEvents l)) (trimmed : TrimmedTexts l)
    (others : ∀ a ∈ l.alternativeLabels, TrimmedTexts a) :
    xmlDeserialize R readTime (xmlSerialize l) =
      (readAttribute readTime l.creationTime >>= fun created =>
        (readAttribute readTime l.reviewDateTime).map fun reviewed =>
          decodedLabel l created reviewed) := by
  have undoes : Undoes R.unescape := ⟨entities, reads.unescapes⟩
  have named := lastPolicy_filled trimmed.policy fun a mem => (others a mem).policy
  have document : (R.read (xmlSerialize l)) = (wrote (labelEvents l), none) := reads.document
  have parts : wrote (labelEvents l) =
      wrote [.decl "1.0" "UTF-8", .start "ConfidentialityLabel" (rootAttributes l)] ++
      (wrote (confidentialityInformation l) ++
        wrote (l.alternativeLabels.flatMap alternativeEvents) ++ [.finish "ConfidentialityLabel"]) := by
    simp only [wrote, labelEvents, List.flatMap_append, List.append_assoc]
    rfl
  have body := (does_information readTime undoes l trimmed).append
    (does_alternatives readTime undoes l.alternativeLabels others)
  have after : ∀ created reviewed : Option DateTime, ∃ s : Scratch,
      (rooted created reviewed).run readTime R.unescape (wrote (confidentialityInformation l) ++
        wrote (l.alternativeLabels.flatMap alternativeEvents) ++ [.finish "ConfidentialityLabel"]) =
      .ok ((setAlternatives l.alternativeLabels
        (setInformation l (rooted created reviewed))).scratched s) := by
    intro created reviewed
    obtain ⟨s, ran⟩ := body.ran (rooted created reviewed) rfl
    refine ⟨{ s with element := "" }, ?_⟩
    rw [run_of_run ran]
    rfl
  rw [xmlDeserialize, document, parts, run_append, run_root]
  cases readAttribute readTime l.creationTime with
  | error e => rfl
  | ok created =>
    cases readAttribute readTime l.reviewDateTime with
    | error e => rfl
    | ok reviewed =>
      obtain ⟨s, ran⟩ := after created reviewed
      have made := label_decoded l created reviewed named s
      have decoded : (rooted created reviewed).run readTime R.unescape
          (wrote (confidentialityInformation l) ++
            wrote (l.alternativeLabels.flatMap alternativeEvents) ++ [.finish "ConfidentialityLabel"]) >>=
          Decoder.label = .ok (decodedLabel l created reviewed) := by
        rw [ran]
        exact made
      exact decoded

end Written

section Readable

theorem named_labelEvents (l : ConfidentialityLabel) : ∀ e ∈ labelEvents l, e.Named := by
  have elements : ∀ name ∈ labelElements, (Event.start name []).Named := by decide
  have keys : ∀ key ∈ labelAttributes, '=' ∉ key.toList := by decide
  intro e mem
  cases labelEvents_written l e mem with
  | decl => trivial
  | text value => trivial
  | start element attributes =>
    exact named_start (elements _ element) fun a listed => keys _ (attributes a listed)
  | finish element => trivial

variable [MarkupEscape]

theorem spaced_textElement (name value : String) : Spaced (textElement name value) :=
  ⟨rfl, trivial⟩

theorem spaced_optionalElement (name : String) (value : Option String) :
    Spaced (optionalElement name value) := by
  cases value with
  | none => trivial
  | some v => exact spaced_textElement name v

theorem spaced_policyEvents (policy : LabelPolicy) : Spaced (policyEvents policy) := by
  unfold policyEvents
  split
  · exact ⟨rfl, trivial⟩
  · exact spaced_textElement _ _

theorem spaced_categoryEvents (c : CategoryMarking) : Spaced (categoryEvents c) :=
  spaced_append (spaced_flatMap _ _ fun v => ⟨spaced_textElement _ v, rfl⟩) trivial rfl

theorem spaced_confidentialityInformation (l : ConfidentialityLabel) :
    Spaced (confidentialityInformation l) := by
  have optional : Spaced (optionalElement "PrivacyMark" l.privacyMark ++
      optionalElement "Colour" l.colour ++ optionalElement "MarkingData" l.markingData) :=
    spaced_append (spaced_append (spaced_optionalElement _ _) (spaced_optionalElement _ _)
      (bounded_optionalElement _ _)) (spaced_optionalElement _ _) (bounded_optionalElement _ _)
  have bounded : Bounded (optionalElement "PrivacyMark" l.privacyMark ++
      optionalElement "Colour" l.colour ++ optionalElement "MarkingData" l.markingData) :=
    bounded_append (bounded_append (bounded_optionalElement _ _) (bounded_optionalElement _ _))
      (bounded_optionalElement _ _)
  have categories : Spaced (l.categories.flatMap categoryEvents) :=
    spaced_flatMap _ _ fun c => ⟨spaced_categoryEvents c, bounded_categoryEvents c⟩
  have stated : Spaced (.start "ConfidentialityInformation" [] :: policyEvents l.policy ++
      textElement "Classification" l.classification.asStanagStr) :=
    spaced_append (spaced_policyEvents l.policy) (spaced_textElement _ _) rfl
  exact spaced_append (spaced_append (spaced_append stated optional bounded) categories
    (bounded_flatMap _ _ bounded_categoryEvents)) trivial rfl

theorem spaced_labelEvents (l : ConfidentialityLabel) : Spaced (labelEvents l) := by
  have alternatives : Spaced (l.alternativeLabels.flatMap alternativeEvents) := by
    refine spaced_flatMap _ _ fun a => ⟨?_, rfl⟩
    exact spaced_append (spaced_confidentialityInformation a) trivial rfl
  exact spaced_append (spaced_append (spaced_append trivial (spaced_confidentialityInformation l) rfl)
    alternatives (bounded_flatMap _ _ fun _ => rfl)) trivial rfl

end Readable

theorem entityReader_labelEvents (l : ConfidentialityLabel) : letI := entityEscape
    entityReader.ReadsBack (labelEvents l) := by
  let : MarkupEscape := entityEscape
  exact entityReader_readsBack _ (plain_labelEvents l) (named_labelEvents l) (spaced_labelEvents l)

end MimStanag
