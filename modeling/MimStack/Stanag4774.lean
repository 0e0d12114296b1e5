import MimStack.Labeling
import MimStack.Lib.Json
import MimStack.Lib.Markup

/-!
The two encodings of a confidentiality label. The XML text is what signatures
cover, the JSON value is what packages carry for evaluation. The XML text
determines the policy identifier, the classification and the categories.
-/
namespace MimStanag
open RustText MimCore MimLabeling MarkupText

def stanag4774Namespace : String := "urn:nato:stanag:4774:confidentialitymetadatalabel:1:0"

def categoryTypeToStr : CategoryType → String
  | .restrictive => "RESTRICTIVE"
  | .permissive => "PERMISSIVE"
  | .informative => "INFORMATIVE"

theorem categoryTypeToStr_injective (a b : CategoryType)
    (same : categoryTypeToStr a = categoryTypeToStr b) : a = b := by
  cases a <;> cases b <;> first | rfl | simp [categoryTypeToStr] at same

section Xml

def textElement (name value : String) : List Event := [.start name [], .text value, .finish name]

def optionalElement (name : String) (value : Option String) : List Event :=
  match value with
  | none => []
  | some v => textElement name v

def policyEvents (policy : LabelPolicy) : List Event :=
  match policy.oid with
  | some oid =>
    [.start "PolicyIdentifier" [("URL", oid)], .text policy.identifier, .finish "PolicyIdentifier"]
  | none => textElement "PolicyIdentifier" policy.identifier

def categoryEvents (c : CategoryMarking) : List Event :=
  .start "Category" [("TagName", c.tagName), ("Type", categoryTypeToStr c.categoryType)] ::
    c.values.flatMap (textElement "GenericValue") ++ [.finish "Category"]

def confidentialityInformation (l : ConfidentialityLabel) : List Event :=
  .start "ConfidentialityInformation" [] :: policyEvents l.policy ++
    textElement "Classification" l.classification.asStanagStr ++
    (optionalElement "PrivacyMark" l.privacyMark ++ optionalElement "Colour" l.colour ++
      optionalElement "MarkingData" l.markingData) ++
    l.categories.flatMap categoryEvents ++ [.finish "ConfidentialityInformation"]

def alternativeEvents (l : ConfidentialityLabel) : List Event :=
  .start "alternativeConfidentialityLabel" [] :: confidentialityInformation l ++
    [.finish "alternativeConfidentialityLabel"]

def timeAttribute (name : String) (time : Option DateTime) : List (String × String) :=
  match time with
  | none => []
  | some t => [(name, t.toRfc3339)]

def labelEvents (l : ConfidentialityLabel) : List Event :=
  [.decl "1.0" "UTF-8", .start "ConfidentialityLabel" (("xmlns", stanag4774Namespace) ::
    timeAttribute "CreationTime" l.creationTime ++
    timeAttribute "ReviewDateTime" l.reviewDateTime)] ++
  confidentialityInformation l ++ l.alternativeLabels.flatMap alternativeEvents ++
  [.finish "ConfidentialityLabel"]

variable [MarkupEscape]

def xmlSerialize (l : ConfidentialityLabel) : String := .ofList (renderEvents (labelEvents l))

theorem xmlSerialize_start (l : ConfidentialityLabel) :
    ∃ rest, (xmlSerialize l).toList = '<' :: rest :=
  ⟨_, String.toList_ofList⟩

/-- `Stanag4774Codec::serialize` with the XML format; the writer itself cannot fail. -/
def serializeXml (l : ConfidentialityLabel) : Except LabelError String :=
  match l.validate with
  | .error e => .error e
  | .ok () => .ok (xmlSerialize l)

theorem serializeXml_ok {l : ConfidentialityLabel} {xml : String} :
    serializeXml l = .ok xml ↔ l.validate = .ok () ∧ xmlSerialize l = xml := by
  unfold serializeXml
  cases valid : l.validate with
  | error e => simp
  | ok u => simp

end Xml

section Json
open JsonText

def categoryValue (c : CategoryMarking) : Value :=
  .ofFields [("TagName", .string c.tagName), ("Type", .string (categoryTypeToStr c.categoryType)),
    ("GenericValues", .array (c.values.map .string))]

def optionalField (name : String) (value : Option String) : List (String × Value) :=
  match value with
  | none => []
  | some v => [(name, .string v)]

def toJsonValue (l : ConfidentialityLabel) : Value :=
  .ofFields ([("Xmlns", .string stanag4774Namespace),
    ("ConfidentialityInformation", .ofFields (
      [("PolicyIdentifier", .string l.policy.identifier),
        ("Classification", .string l.classification.asStanagStr)] ++
      optionalField "PrivacyMark" l.privacyMark ++
      (if l.categories.isEmpty then []
        else [("Category", .array (l.categories.map categoryValue))])))] ++
    optionalField "CreationTime" (l.creationTime.map DateTime.toRfc3339) ++
    optionalField "ReviewDateTime" (l.reviewDateTime.map DateTime.toRfc3339))

/-- `Stanag4774Codec::serialize` with the JSON format, as the value its text reads back as. -/
def serializeJson (l : ConfidentialityLabel) : Except LabelError Value :=
  match l.validate with
  | .error e => .error e
  | .ok () => .ok (toJsonValue l)

/-- `Value::get` with a string key. -/
def getField (key : String) : Value → Option Value
  | .object fields => field key fields
  | _ => none

def getStr (key : String) (v : Value) : Option String := (getField key v).bind Value.asStr

def parseCategoryType (t : String) : CategoryType :=
  if eqIgnoreAsciiCase t "RESTRICTIVE" then .restrictive
  else if eqIgnoreAsciiCase t "INFORMATIVE" then .informative
  else .permissive

def genericValues (v : Value) : List String :=
  match getField "GenericValues" v with
  | some (.array items) => items.filterMap Value.asStr
  | some (.string s) => [s]
  | _ => []

def parseCategory (v : Value) : Except LabelError CategoryMarking :=
  match getStr "TagName" v with
  | none => .error (.parse "category missing TagName")
  | some tagName =>
    .ok ⟨tagName, ((getStr "Type" v).map parseCategoryType).getD .permissive, genericValues v⟩

def parseCategories : List Value → Except LabelError (List CategoryMarking)
  | [] => .ok []
  | v :: rest =>
    match parseCategory v with
    | .error e => .error e
    | .ok c => (parseCategories rest).map (c :: ·)

/-- An RFC 3339 reader: the instant, or the text of the error. -/
abbrev TimeReader := String → Except String DateTime

def parseTime (readTime : TimeReader) (text : Option String) :
    Except LabelError (Option DateTime) :=
  match text with
  | none => .ok none
  | some s =>
    match readTime s with
    | .error e => .error (.parse e)
    | .ok t => .ok (some t)

def parseCategoryField (info : Value) : Except LabelError (List CategoryMarking) :=
  match getField "Category" info with
  | none => .ok []
  | some (.array items) => parseCategories items
  | some other => (parseCategory other).map fun c => [c]

def parseJsonValue (readTime : TimeReader) (v : Value) : Except LabelError ConfidentialityLabel :=
  match getField "ConfidentialityInformation" v with
  | none => .error (.parse "missing ConfidentialityInformation")
  | some info =>
    match getStr "Classification" info with
    | none => .error (.validation "missing Classification")
    | some classification =>
      match ClassificationLevel.parse classification with
      | .error e => .error e
      | .ok level =>
        match parseCategoryField info with
        | .error e => .error e
        | .ok categories =>
          match parseTime readTime (getStr "CreationTime" v) with
          | .error e => .error e
          | .ok creationTime =>
            match parseTime readTime (getStr "ReviewDateTime" v) with
            | .error e => .error e
            | .ok reviewDateTime =>
              .ok { ConfidentialityLabel.new
                  (.new ((getStr "PolicyIdentifier" info).getD "NATO")) level with
                privacyMark := getStr "PrivacyMark" info
                categories, creationTime, reviewDateTime }

/-- `Stanag4774Codec::deserialize` with the JSON format, of a value printed and read back. -/
def deserializeJson (readTime : TimeReader) (v : Value) :
    Except LabelError ConfidentialityLabel :=
  match parseJsonValue readTime v with
  | .error e => .error e
  | .ok l =>
    match l.validate with
    | .error e => .error e
    | .ok () => .ok l

theorem deserializeJson_valid {readTime : TimeReader} {v : Value} {l : ConfidentialityLabel}
    (decoded : deserializeJson readTime v = .ok l) : l.validate = .ok () := by
  unfold deserializeJson at decoded
  split at decoded
  · cases decoded
  · split at decoded
    · cases decoded
    · rename_i valid
      exact Except.ok.inj decoded ▸ valid

theorem getField_ofFields {fields : List (String × Value)} (distinct : (fields.map Prod.fst).Nodup)
    (key : String) : getField key (.ofFields fields) = field key fields :=
  field_sorted distinct key

theorem parseCategoryType_toStr (t : CategoryType) : parseCategoryType (categoryTypeToStr t) = t := by
  cases t <;> decide

theorem parseCategory_categoryValue (c : CategoryMarking) :
    parseCategory (categoryValue c) = .ok c := by
  have distinct : ([("TagName", .string c.tagName), ("Type", .string (categoryTypeToStr
      c.categoryType)), ("GenericValues", .array (c.values.map Value.string))].map
      (Prod.fst : String × Value → String)).Nodup := by
    simp
  have tagName : getStr "TagName" (categoryValue c) = some c.tagName := by
    rw [getStr, categoryValue, getField_ofFields distinct]
    rfl
  have typed : getStr "Type" (categoryValue c) = some (categoryTypeToStr c.categoryType) := by
    rw [getStr, categoryValue, getField_ofFields distinct]
    rfl
  have items : getField "GenericValues" (categoryValue c) =
      some (.array (c.values.map .string)) := by
    rw [categoryValue, getField_ofFields distinct]
    rfl
  have values : (c.values.map Value.string).filterMap Value.asStr = c.values := by
    rw [List.filterMap_map]
    exact List.filterMap_some
  simp only [parseCategory, tagName, typed, genericValues, items, values, Option.map_some,
    Option.getD_some, parseCategoryType_toStr]

theorem parseCategories_map (categories : List CategoryMarking) :
    parseCategories (categories.map categoryValue) = .ok categories := by
  induction categories with
  | nil => rfl
  | cons c rest ih => simp [parseCategories, parseCategory_categoryValue, ih, Except.map]

def jsonForm (l : ConfidentialityLabel) : ConfidentialityLabel :=
  { ConfidentialityLabel.new (.new l.policy.identifier) l.classification with
    privacyMark := l.privacyMark
    categories := l.categories
    creationTime := l.creationTime
    reviewDateTime := l.reviewDateTime }

def informationFields (l : ConfidentialityLabel) : List (String × Value) :=
  [("PolicyIdentifier", .string l.policy.identifier),
    ("Classification", .string l.classification.asStanagStr)] ++
  optionalField "PrivacyMark" l.privacyMark ++
  (if l.categories.isEmpty then [] else [("Category", .array (l.categories.map categoryValue))])

theorem toJsonValue_fields (l : ConfidentialityLabel) : toJsonValue l = .ofFields (
    [("Xmlns", .string stanag4774Namespace),
      ("ConfidentialityInformation", .ofFields (informationFields l))] ++
    optionalField "CreationTime" (l.creationTime.map DateTime.toRfc3339) ++
    optionalField "ReviewDateTime" (l.reviewDateTime.map DateTime.toRfc3339)) := rfl

theorem information_distinct (l : ConfidentialityLabel) :
    ((informationFields l).map Prod.fst).Nodup := by
  unfold informationFields optionalField
  cases l.privacyMark <;> cases l.categories <;> simp

theorem label_distinct (info : Value) (created reviewed : Option String) :
    (([("Xmlns", .string stanag4774Namespace), ("ConfidentialityInformation", info)] ++
      optionalField "CreationTime" created ++ optionalField "ReviewDateTime" reviewed).map
      Prod.fst).Nodup := by
  cases created <;> cases reviewed <;> simp [optionalField]

theorem validate_kept {l kept : ConfidentialityLabel} (valid : l.validate = .ok ())
    (policy : kept.policy = { LabelPolicy.new l.policy.identifier with oid := kept.policy.oid })
    (categories : kept.categories = l.categories) : kept.validate = .ok () := by
  unfold ConfidentialityLabel.validate at valid ⊢
  split at valid
  · cases valid
  · rename_i named
    split at valid
    · cases valid
    · have allowed : kept.policy.allowsClassification kept.classification = true := by
        rw [policy]
        cases kept.classification <;> rfl
      have same : kept.policy.identifier = l.policy.identifier := by
        rw [policy]
        rfl
      rw [same, categories, if_neg named, if_neg (by simp [allowed])]
      exact valid

theorem validate_jsonForm {l : ConfidentialityLabel} (valid : l.validate = .ok ()) :
    (jsonForm l).validate = .ok () :=
  validate_kept valid rfl rfl

theorem getField_information (l : ConfidentialityLabel) :
    getField "ConfidentialityInformation" (toJsonValue l) =
      some (.ofFields (informationFields l)) := by
  rw [toJsonValue_fields, getField_ofFields (label_distinct _ _ _)]
  simp [field]

theorem getStr_times (l : ConfidentialityLabel) :
    getStr "CreationTime" (toJsonValue l) = l.creationTime.map DateTime.toRfc3339 ∧
      getStr "ReviewDateTime" (toJsonValue l) = l.reviewDateTime.map DateTime.toRfc3339 := by
  simp only [getStr, toJsonValue_fields, getField_ofFields (label_distinct _ _ _)]
  cases l.creationTime <;> cases l.reviewDateTime <;> simp [field, optionalField, Value.asStr]

theorem getStr_information (l : ConfidentialityLabel) :
    getStr "PolicyIdentifier" (.ofFields (informationFields l)) = some l.policy.identifier ∧
      getStr "Classification" (.ofFields (informationFields l)) =
        some l.classification.asStanagStr ∧
      getStr "PrivacyMark" (.ofFields (informationFields l)) = l.privacyMark := by
  simp only [getStr, getField_ofFields (information_distinct l)]
  unfold informationFields
  cases l.privacyMark <;> cases l.categories <;> simp [field, optionalField, Value.asStr]

theorem parseCategoryField_information (l : ConfidentialityLabel) :
    parseCategoryField (.ofFields (informationFields l)) = .ok l.categories := by
  unfold parseCategoryField
  rw [getField_ofFields (information_distinct l), informationFields]
  cases marked : l.categories with
  | nil => cases l.privacyMark <;> simp [field, optionalField]
  | cons c rest =>
    have listed := parseCategories_map (c :: rest)
    cases l.privacyMark <;> simpa [field, optionalField] using listed

theorem parseJsonValue_toJsonValue (readTime : TimeReader) (l : ConfidentialityLabel) :
    parseJsonValue readTime (toJsonValue l) =
      (parseTime readTime (l.creationTime.map DateTime.toRfc3339) >>= fun created =>
        (parseTime readTime (l.reviewDateTime.map DateTime.toRfc3339)).map fun reviewed =>
          { jsonForm l with creationTime := created, reviewDateTime := reviewed }) := by
  obtain ⟨created, reviewed⟩ := getStr_times l
  obtain ⟨policy, classification, privacy⟩ := getStr_information l
  simp only [parseJsonValue, getField_information, classification, policy, privacy,
    ClassificationLevel.parse_asStanagStr, parseCategoryField_information, created, reviewed]
  cases parseTime readTime (l.creationTime.map DateTime.toRfc3339) with
  | error e => rfl
  | ok created => cases parseTime readTime (l.reviewDateTime.map DateTime.toRfc3339) <;> rfl

end Json

/-- The fields on which decisions about a label rest. -/
structure Agree (a b : ConfidentialityLabel) : Prop where
  policy : a.policy.identifier = b.policy.identifier
  classification : a.classification = b.classification
  categories : a.categories = b.categories

section Vocabulary

def labelElements : List String :=
  ["ConfidentialityLabel", "alternativeConfidentialityLabel", "ConfidentialityInformation",
    "PolicyIdentifier", "Classification", "PrivacyMark", "Colour", "MarkingData", "Category",
    "GenericValue"]

def labelAttributes : List String :=
  ["xmlns", "CreationTime", "ReviewDateTime", "URL", "TagName", "Type"]

inductive Written : Event → Prop
  | decl : Written (.decl "1.0" "UTF-8")
  | text (value : String) : Written (.text value)
  | start {name : String} {attributes : List (String × String)} (element : name ∈ labelElements)
    (keys : ∀ a ∈ attributes, a.1 ∈ labelAttributes) : Written (.start name attributes)
  | finish {name : String} (element : name ∈ labelElements) : Written (.finish name)

theorem textElement_written {name : String} (element : name ∈ labelElements) (value : String) :
    ∀ e ∈ textElement name value, Written e := by
  simp only [textElement, List.forall_mem_cons]
  exact ⟨.start element (by simp), .text value, .finish element, by simp⟩

theorem optionalElement_written {name : String} (element : name ∈ labelElements)
    (value : Option String) : ∀ e ∈ optionalElement name value, Written e := by
  cases value with
  | none => simp [optionalElement]
  | some v => exact textElement_written element v

theorem policyEvents_written (policy : LabelPolicy) : ∀ e ∈ policyEvents policy, Written e := by
  unfold policyEvents
  split
  · simp only [List.forall_mem_cons]
    exact ⟨.start (by decide) (by simp [labelAttributes]), .text _, .finish (by decide), by simp⟩
  · exact textElement_written (by decide) _

theorem categoryEvents_written (c : CategoryMarking) : ∀ e ∈ categoryEvents c, Written e := by
  simp only [categoryEvents, List.cons_append, List.forall_mem_cons, List.forall_mem_append]
  refine ⟨.start (by decide) (by simp [labelAttributes]), ?_, .finish (by decide), by simp⟩
  intro e mem
  obtain ⟨v, _, inside⟩ := List.mem_flatMap.mp mem
  exact textElement_written (by decide) v e inside

theorem confidentialityInformation_written (l : ConfidentialityLabel) :
    ∀ e ∈ confidentialityInformation l, Written e := by
  simp only [confidentialityInformation, List.cons_append, List.forall_mem_cons,
    List.forall_mem_append]
  refine ⟨.start (by decide) (by simp), ⟨⟨⟨policyEvents_written _,
    textElement_written (by decide) _⟩, ⟨optionalElement_written (by decide) _,
    optionalElement_written (by decide) _⟩, optionalElement_written (by decide) _⟩, ?_⟩,
    .finish (by decide), by simp⟩
  intro e mem
  obtain ⟨c, _, inside⟩ := List.mem_flatMap.mp mem
  exact categoryEvents_written c e inside

theorem timeAttribute_written {name : String} (key : name ∈ labelAttributes)
    (time : Option DateTime) : ∀ a ∈ timeAttribute name time, a.1 ∈ labelAttributes := by
  cases time with
  | none => simp [timeAttribute]
  | some t => simp [timeAttribute, key]

theorem labelEvents_written (l : ConfidentialityLabel) : ∀ e ∈ labelEvents l, Written e := by
  simp only [labelEvents, List.cons_append, List.nil_append, List.forall_mem_cons,
    List.forall_mem_append]
  refine ⟨.decl, .start (by decide) ?_, ⟨confidentialityInformation_written l, ?_⟩,
    .finish (by decide), by simp⟩
  · simp only [List.forall_mem_cons, List.forall_mem_append]
    exact ⟨by decide, timeAttribute_written (by decide) _, timeAttribute_written (by decide) _⟩
  · intro e mem
    obtain ⟨alt, _, inside⟩ := List.mem_flatMap.mp mem
    simp only [alternativeEvents, List.cons_append, List.mem_cons, List.mem_append,
      List.not_mem_nil, or_false] at inside
    rcases inside with rfl | inInfo | rfl
    · exact .start (by decide) (by simp)
    · exact confidentialityInformation_written alt e inInfo
    · exact .finish (by decide)

end Vocabulary

section Determined

variable [MarkupEscape]

theorem plain_labelEvents (l : ConfidentialityLabel) : ∀ e ∈ labelEvents l, e.Plain := by
  have elements : ∀ name ∈ labelElements, '>' ∉ name.toList := by decide
  have keys : ∀ key ∈ labelAttributes, '>' ∉ key.toList := by decide
  intro e mem
  cases labelEvents_written l e mem with
  | decl =>
    intro tag same
    obtain rfl := Option.some.inj same
    decide
  | text value => exact plain_text value
  | start element attributes =>
    exact plain_start _ _ (elements _ element) fun a listed => keys _ (attributes a listed)
  | finish element => exact plain_finish _ (elements _ element)

theorem bounded_textElement (name value : String) : Bounded (textElement name value) := rfl

theorem bounded_optionalElement (name : String) (value : Option String) :
    Bounded (optionalElement name value) := by
  cases value with
  | none => rfl
  | some v => exact bounded_textElement name v

theorem bounded_categoryEvents (c : CategoryMarking) : Bounded (categoryEvents c) := rfl

def closing (name : String) : Segment := ⟨'/' :: name.toList, []⟩

def valueSegments (v : String) : List Segment :=
  [⟨"GenericValue".toList, (MarkupEscape.escape v).toList⟩, closing "GenericValue"]

def categoryTag (c : CategoryMarking) : List Char :=
  "Category".toList ++
    [("TagName", c.tagName), ("Type", categoryTypeToStr c.categoryType)].flatMap attributeText

def categorySegments (c : CategoryMarking) : List Segment :=
  ⟨categoryTag c, []⟩ :: (c.values.flatMap valueSegments ++ [closing "Category"])

theorem segments_genericValue (v : String) :
    (segmentsOf (textElement "GenericValue" v)).2 = valueSegments v := by
  simp only [textElement, segmentsOf, Event.tag, Option.getD_some, List.flatMap_nil,
    List.append_nil]
  rfl

theorem segments_categoryEvents (c : CategoryMarking) :
    (segmentsOf (categoryEvents c)).2 = categorySegments c := by
  have ending : Bounded [Event.finish "Category"] := rfl
  have lead : (segmentsOf (c.values.flatMap (textElement "GenericValue"))).1 = [] :=
    bounded_flatMap _ _ (bounded_textElement _)
  have values : (segmentsOf (c.values.flatMap (textElement "GenericValue"))).2 =
      c.values.flatMap valueSegments := by
    rw [segmentsOf_flatMap _ _ (bounded_textElement _)]
    simp only [segments_genericValue]
  have tag : (Event.start "Category" [("TagName", c.tagName),
      ("Type", categoryTypeToStr c.categoryType)]).tag = some (categoryTag c) := rfl
  rw [categoryEvents, List.cons_append, segmentsOf, segmentsOf_append _ _ ending, lead, values,
    tag]
  · rfl
  · intro s same
    cases same

theorem valueSegments_determined (a b : String) (r s : List Segment)
    (same : valueSegments a ++ r = valueSegments b ++ s) : a = b := by
  simp only [valueSegments, List.cons_append, List.cons.injEq, Segment.mk.injEq, true_and] at same
  exact escape_toList_injective same.1

theorem quote_free (s : String) : '"' ∉ (MarkupEscape.escape s).toList := fun mem =>
  (MarkupEscape.plain s _ mem).2.2 rfl

theorem attributeText_determined (name a b : String) (r s : List Char)
    (same : attributeText (name, a) ++ r = attributeText (name, b) ++ s) : a = b ∧ r = s := by
  simp only [attributeText, List.cons_append, List.append_assoc, List.cons.injEq, true_and,
    List.append_cancel_left_eq, List.nil_append] at same
  obtain ⟨values, rests⟩ := cut_at (quote_free a) (quote_free b) same
  exact ⟨escape_toList_injective values, rests⟩

theorem categoryTag_determined (a b : CategoryMarking) (same : categoryTag a = categoryTag b) :
    a.tagName = b.tagName ∧ a.categoryType = b.categoryType := by
  have attributes := List.append_cancel_left same
  simp only [List.flatMap_cons] at attributes
  obtain ⟨names, rest⟩ := attributeText_determined _ _ _ _ _ attributes
  have types := attributeText_determined _ _ _ _ _ rest
  exact ⟨names, categoryTypeToStr_injective _ _ types.1⟩

theorem categorySegments_determined (a b : CategoryMarking) (r s : List Segment)
    (same : categorySegments a ++ r = categorySegments b ++ s) : a = b := by
  have inside : ∀ c : CategoryMarking, closing "Category" ∉ c.values.flatMap valueSegments := by
    intro c mem
    obtain ⟨v, _, listed⟩ := List.mem_flatMap.mp mem
    simp [valueSegments, closing] at listed
  simp only [categorySegments, List.cons_append, List.append_assoc, List.nil_append,
    List.cons.injEq, Segment.mk.injEq, and_true] at same
  obtain ⟨names, types⟩ := categoryTag_determined a b same.1
  have values := flatMap_injective valueSegments (fun _ => List.cons_ne_nil _ _)
    valueSegments_determined _ _ (cut_at (inside a) (inside b) same.2).1
  cases a
  cases b
  simp only at names types values
  rw [names, types, values]

def optionalSegments (l : ConfidentialityLabel) : List Segment :=
  (segmentsOf (optionalElement "PrivacyMark" l.privacyMark ++ optionalElement "Colour" l.colour ++
    optionalElement "MarkingData" l.markingData)).2

def optionalTags : List String :=
  ["PrivacyMark", "/PrivacyMark", "Colour", "/Colour", "MarkingData", "/MarkingData"]

theorem optionalSegments_tags (l : ConfidentialityLabel) :
    ∀ s ∈ optionalSegments l, ∃ t ∈ optionalTags, s.tag = t.toList := by
  have element : ∀ (name : String) (value : Option String) (s : Segment),
      s ∈ (segmentsOf (optionalElement name value)).2 →
      s.tag = name.toList ∨ s.tag = '/' :: name.toList := by
    intro name value s mem
    cases value with
    | none => cases mem
    | some v =>
      simp only [optionalElement, textElement, segmentsOf, Event.tag, List.mem_cons,
        List.not_mem_nil, or_false] at mem
      rcases mem with rfl | rfl
      · exact .inl (by simp)
      · exact .inr (by simp)
  intro s mem
  rw [optionalSegments, segmentsOf_append _ _ (bounded_optionalElement _ _),
    segmentsOf_append _ _ (bounded_optionalElement _ _), List.mem_append, List.mem_append] at mem
  rcases mem with (mem | mem) | mem
  all_goals
    rcases element _ _ s mem with here | here
    all_goals
      rw [here]
      decide

def rootAttributes (l : ConfidentialityLabel) : List (String × String) :=
  ("xmlns", stanag4774Namespace) :: timeAttribute "CreationTime" l.creationTime ++
    timeAttribute "ReviewDateTime" l.reviewDateTime

def headEvents (l : ConfidentialityLabel) : List Event :=
  .decl "1.0" "UTF-8" :: .start "ConfidentialityLabel" (rootAttributes l) ::
    .start "ConfidentialityInformation" [] :: policyEvents l.policy ++
    textElement "Classification" l.classification.asStanagStr

def tailEvents (l : ConfidentialityLabel) : List Event :=
  l.alternativeLabels.flatMap alternativeEvents ++ [.finish "ConfidentialityLabel"]

theorem bounded_tailEvents (l : ConfidentialityLabel) : Bounded (tailEvents l) :=
  bounded_append (bounded_flatMap _ _ fun _ => rfl) rfl

omit [MarkupEscape] in
theorem labelEvents_split (l : ConfidentialityLabel) : labelEvents l = headEvents l ++
    ((optionalElement "PrivacyMark" l.privacyMark ++ optionalElement "Colour" l.colour ++
      optionalElement "MarkingData" l.markingData) ++
    (l.categories.flatMap categoryEvents ++
      .finish "ConfidentialityInformation" :: tailEvents l)) := by
  simp only [labelEvents, confidentialityInformation, headEvents, rootAttributes, tailEvents,
    List.append_assoc, List.cons_append, List.nil_append]

theorem texts_headEvents (l : ConfidentialityLabel) :
    (segmentsOf (headEvents l)).2.map Segment.text = [[], [], [],
      (MarkupEscape.escape l.policy.identifier).toList, [],
      (MarkupEscape.escape l.classification.asStanagStr).toList, []] := by
  unfold headEvents policyEvents
  split <;> simp [segmentsOf, textElement]

theorem segments_labelEvents (l : ConfidentialityLabel) :
    (segmentsOf (labelEvents l)).2 = (segmentsOf (headEvents l)).2 ++ (optionalSegments l ++
      (l.categories.flatMap categorySegments ++
        closing "ConfidentialityInformation" :: (segmentsOf (tailEvents l)).2)) := by
  have ending : Bounded (.finish "ConfidentialityInformation" :: tailEvents l) := rfl
  have lead : (segmentsOf (tailEvents l)).1 = [] := bounded_tailEvents l
  have categories := bounded_flatMap categoryEvents l.categories bounded_categoryEvents
  have optional : Bounded (optionalElement "PrivacyMark" l.privacyMark ++
      optionalElement "Colour" l.colour ++ optionalElement "MarkingData" l.markingData) :=
    bounded_append (bounded_append (bounded_optionalElement _ _) (bounded_optionalElement _ _))
      (bounded_optionalElement _ _)
  have inner := bounded_append categories ending
  rw [labelEvents_split, segmentsOf_append _ _ (bounded_append optional inner),
    segmentsOf_append _ _ inner, segmentsOf_append _ _ ending,
    segmentsOf_flatMap _ _ bounded_categoryEvents]
  simp only [segments_categoryEvents, optionalSegments, segmentsOf, lead]
  rfl

theorem categoryTag_lead (c : CategoryMarking) : (categoryTag c).take 2 = "Ca".toList := by
  have word : "Category".toList.take 2 = "Ca".toList := by decide
  have long : 2 ≤ "Category".toList.length := by decide
  unfold categoryTag
  exact (List.take_append_of_le_length long).trans word

theorem category_not_optional (c : CategoryMarking) :
    ¬ ∃ t ∈ optionalTags, categoryTag c = t.toList := by
  rintro ⟨t, listed, same⟩
  have first : ∀ t ∈ optionalTags, t.toList.take 2 ≠ "Ca".toList := by decide
  exact first t listed (same ▸ categoryTag_lead c)

omit [MarkupEscape] in
theorem ending_not_optional :
    ¬ ∃ t ∈ optionalTags, (closing "ConfidentialityInformation").tag = t.toList := by
  decide

theorem categories_head (categories : List CategoryMarking) (rest : List Segment) :
    ∃ x r, categories.flatMap categorySegments ++
      closing "ConfidentialityInformation" :: rest = x :: r ∧
      ¬ ∃ t ∈ optionalTags, x.tag = t.toList := by
  cases categories with
  | nil => exact ⟨_, _, rfl, ending_not_optional⟩
  | cons c later => exact ⟨_, _, rfl, category_not_optional c⟩

theorem categories_determined (a b : ConfidentialityLabel) (r s : List Segment)
    (same : optionalSegments a ++ (a.categories.flatMap categorySegments ++
        closing "ConfidentialityInformation" :: r) =
      optionalSegments b ++ (b.categories.flatMap categorySegments ++
        closing "ConfidentialityInformation" :: s)) : a.categories = b.categories := by
  have inside : ∀ categories : List CategoryMarking,
      closing "ConfidentialityInformation" ∉ categories.flatMap categorySegments := by
    intro categories mem
    obtain ⟨c, _, listed⟩ := List.mem_flatMap.mp mem
    simp only [categorySegments, List.mem_cons, List.mem_append, List.mem_flatMap, valueSegments,
      List.not_mem_nil, or_false] at listed
    rcases listed with here | ⟨v, _, here | here⟩ | here
    · have tags := congrArg Segment.tag here
      have lead : (closing "ConfidentialityInformation").tag.take 2 ≠ "Ca".toList := by decide
      exact lead (tags ▸ categoryTag_lead c)
    · simp [closing] at here
    · simp [closing] at here
    · simp [closing] at here
  obtain ⟨x, afterX, headA, outX⟩ := categories_head a.categories r
  obtain ⟨y, afterY, headB, outY⟩ := categories_head b.categories s
  rw [headA, headB] at same
  have rest := skip_prefix (optionalSegments_tags a) (optionalSegments_tags b) outX outY same
  rw [← headA, ← headB] at rest
  exact flatMap_injective categorySegments (fun _ => List.cons_ne_nil _ _)
    categorySegments_determined _ _ (cut_at (inside _) (inside _) rest).1

theorem xmlSerialize_determines (a b : ConfidentialityLabel)
    (same : xmlSerialize a = xmlSerialize b) : Agree a b := by
  have rendered := congrArg String.toList same
  rw [xmlSerialize, xmlSerialize, String.toList_ofList, String.toList_ofList] at rendered
  have segments := congrArg Prod.snd
    (segments_of_same_text (plain_labelEvents a) (plain_labelEvents b) rendered)
  rw [segments_labelEvents, segments_labelEvents] at segments
  have lengths : ∀ l, (segmentsOf (headEvents l)).2.length = 7 := by
    intro l
    rw [← List.length_map Segment.text, texts_headEvents]
    rfl
  obtain ⟨heads, rest⟩ := List.append_inj segments (by rw [lengths, lengths])
  have texts := congrArg (List.map Segment.text) heads
  rw [texts_headEvents, texts_headEvents] at texts
  simp only [List.cons.injEq, true_and, and_true] at texts
  exact {
    policy := escape_toList_injective texts.1
    classification := ClassificationLevel.asStanagStr_injective _ _
      (escape_toList_injective texts.2)
    categories := categories_determined a b _ _ rest }

end Determined

end MimStanag
