import MimStack.Stanag4774.Documents

/-!
Which labels their encodings keep: the XML document of a label read back, with its
alternatives, and the XML and the JSON of one label read side by side.
-/
namespace MimStanag
open RustText Fallible MimCore MimLabeling MarkupText

structure Stated where
  identifier : String
  oid : Option String
  classification : ClassificationLevel
  categories : List CategoryMarking
  deriving DecidableEq

def stated (l : ConfidentialityLabel) : Stated :=
  ⟨l.policy.identifier, l.policy.oid, l.classification, l.categories⟩

def HasTime (l : ConfidentialityLabel) (t : DateTime) : Prop :=
  l.creationTime = some t ∨ l.reviewDateTime = some t

/-- The RFC 3339 reader takes the times of a label. -/
def TimesReadable (readTime : TimeReader) (l : ConfidentialityLabel) : Prop :=
  ∀ t, HasTime l t → ∃ read, readTime t.toRfc3339 = .ok read

theorem timesReadable_congr {readTime : TimeReader} {l l' : ConfidentialityLabel}
    (created : l.creationTime = l'.creationTime) (reviewed : l.reviewDateTime = l'.reviewDateTime) :
    TimesReadable readTime l ↔ TimesReadable readTime l' := by
  simp only [TimesReadable, HasTime, created, reviewed]

section Attributes

variable [MarkupEscape]

/-- The texts that go into attributes, which the decoder does not unescape. -/
structure OrdinaryAttributes (l : ConfidentialityLabel) : Prop where
  oid : ∀ oid ∈ l.policy.oid, ¬ Special oid
  tagNames : ∀ c ∈ l.categories, ¬ Special c.tagName
  times : ∀ t, HasTime l t → ¬ Special t.toRfc3339

theorem escape_ordinary (entities : EscapesEntities) {s : String} (ordinary : ¬ Special s) :
    MarkupEscape.escape s = s := by
  rw [entities, (entityEscape_self_iff s).mpr ordinary]

theorem escape_self_iff (entities : EscapesEntities) (s : String) :
    MarkupEscape.escape s = s ↔ ¬ Special s := by
  rw [entities, entityEscape_self_iff]

theorem rawCategory_self_iff (entities : EscapesEntities) (c : CategoryMarking) :
    rawCategory c = c ↔ ¬ Special c.tagName := by
  rw [← escape_self_iff entities]
  constructor
  · intro same
    exact congrArg CategoryMarking.tagName same
  · intro same
    rw [rawCategory, same]

theorem rawCategories_self_iff (entities : EscapesEntities) (categories : List CategoryMarking) :
    categories.map rawCategory = categories ↔ ∀ c ∈ categories, ¬ Special c.tagName := by
  have each : categories.map rawCategory = categories.map id ↔ ∀ c ∈ categories, rawCategory c = c :=
    List.map_inj_left
  rw [List.map_id] at each
  exact each.trans (forall₂_congr fun c _ => rawCategory_self_iff entities c)

theorem readAttribute_ordinary (entities : EscapesEntities) (readTime : TimeReader)
    {time : Option DateTime} (ordinary : ∀ t ∈ time, ¬ Special t.toRfc3339) :
    readAttribute readTime time = parseTime readTime (time.map DateTime.toRfc3339) := by
  cases time with
  | none => rfl
  | some t => rw [readAttribute, Option.map_some, escape_ordinary entities (ordinary t rfl), Option.map_some]

end Attributes

theorem parseTime_ok_iff (readTime : TimeReader) (time : Option DateTime) :
    (∃ read, parseTime readTime (time.map DateTime.toRfc3339) = .ok read) ↔
      ∀ t ∈ time, ∃ read, readTime t.toRfc3339 = .ok read := by
  cases time with
  | none => exact ⟨fun _ t mem => absurd mem (by simp), fun _ => ⟨none, rfl⟩⟩
  | some t =>
    simp only [Option.map_some, parseTime, Option.mem_some_iff, forall_eq']
    cases readTime t.toRfc3339 with
    | error e => simp
    | ok read => simp

theorem times_readable_iff (readTime : TimeReader) (l : ConfidentialityLabel) :
    TimesReadable readTime l ↔
      (∃ created, parseTime readTime (l.creationTime.map DateTime.toRfc3339) = .ok created) ∧
        ∃ reviewed, parseTime readTime (l.reviewDateTime.map DateTime.toRfc3339) = .ok reviewed := by
  rw [parseTime_ok_iff, parseTime_ok_iff]
  constructor
  · intro readable
    exact ⟨fun t mem => readable t (.inl mem), fun t mem => readable t (.inr mem)⟩
  · intro read t here
    obtain ⟨created, reviewed⟩ := read
    rcases here with here | here
    · exact created t here
    · exact reviewed t here

section Xml

variable [MarkupEscape]

theorem readAttributes_ordinary (entities : EscapesEntities) (readTime : TimeReader)
    {l : ConfidentialityLabel} (ordinary : ∀ t, HasTime l t → ¬ Special t.toRfc3339) :
    readAttribute readTime l.creationTime =
        parseTime readTime (l.creationTime.map DateTime.toRfc3339) ∧
      readAttribute readTime l.reviewDateTime =
        parseTime readTime (l.reviewDateTime.map DateTime.toRfc3339) :=
  ⟨readAttribute_ordinary entities readTime fun t mem => ordinary t (.inl mem),
    readAttribute_ordinary entities readTime fun t mem => ordinary t (.inr mem)⟩

theorem xmlDeserialize_ok_iff {R : MarkupReader} {readTime : TimeReader}
    {l back : ConfidentialityLabel} (entities : EscapesEntities)
    (reads : R.ReadsBack (labelEvents l)) (trimmed : TrimmedTexts l)
    (others : ∀ a ∈ l.alternativeLabels, TrimmedTexts a)
    (ordinary : ∀ t, HasTime l t → ¬ Special t.toRfc3339) :
    xmlDeserialize R readTime (xmlSerialize l) = .ok back ↔ ∃ created reviewed,
      parseTime readTime (l.creationTime.map DateTime.toRfc3339) = .ok created ∧
      parseTime readTime (l.reviewDateTime.map DateTime.toRfc3339) = .ok reviewed ∧
      decodedLabel l created reviewed = back := by
  obtain ⟨creation, review⟩ := readAttributes_ordinary entities readTime ordinary
  rw [xmlDeserialize_xmlSerialize entities reads trimmed others, creation, review, bind_ok]
  constructor
  · intro held
    obtain ⟨created, read, made⟩ := held
    obtain ⟨reviewed, again, same⟩ := map_ok.mp made
    exact ⟨created, reviewed, read, again, same⟩
  · intro held
    obtain ⟨created, reviewed, read, again, same⟩ := held
    exact ⟨created, read, map_ok.mpr ⟨reviewed, again, same⟩⟩

variable (R : MarkupReader) (readTime : TimeReader)

/-- Read back, a label and its alternatives in order say the same. -/
def RoundTrips (l : ConfidentialityLabel) : Prop :=
  ∃ back, xmlDeserialize R readTime (xmlSerialize l) = .ok back ∧ stated back = stated l ∧
    back.alternativeLabels.map stated = l.alternativeLabels.map stated

omit [MarkupEscape] in
theorem stated_decodedAlternative_iff (a : ConfidentialityLabel) :
    stated (decodedAlternative a) = stated a ↔
      a.policy.identifier = "NATO" ∧ a.policy.oid = none ∧ a.categories = [] := by
  simp only [stated, decodedAlternative, ConfidentialityLabel.new, LabelPolicy.new, Stated.mk.injEq]
  constructor
  · intro held
    obtain ⟨identifier, oid, _, categories⟩ := held
    exact ⟨identifier.symm, oid.symm, categories.symm⟩
  · intro held
    obtain ⟨identifier, oid, categories⟩ := held
    exact ⟨identifier.symm, oid.symm, trivial, categories.symm⟩

omit [MarkupEscape] in
theorem lastPolicy_same {l : ConfidentialityLabel} {p : String}
    (same : ∀ a ∈ l.alternativeLabels, a.policy.identifier = p) (some : l.alternativeLabels ≠ []) :
    lastPolicy l = p := by
  have last : ∀ (rest : List ConfidentialityLabel), (∀ a ∈ rest, a.policy.identifier = p) →
      rest.foldl (fun _ a => a.policy.identifier) p = p := by
    intro rest
    induction rest with
    | nil => exact fun _ => rfl
    | cons a rest ih =>
      intro each
      rw [List.foldl_cons, each a List.mem_cons_self]
      exact ih fun b mem => each b (List.mem_cons_of_mem a mem)
  unfold lastPolicy
  cases listed : l.alternativeLabels with
  | nil => exact absurd listed some
  | cons a rest =>
    rw [listed] at same
    rw [List.foldl_cons, same a List.mem_cons_self]
    exact last rest fun b mem => same b (List.mem_cons_of_mem a mem)

theorem lastOid_own {l : ConfidentialityLabel}
    (without : ∀ a ∈ l.alternativeLabels, a.policy.oid = none) :
    lastOid l = l.policy.oid.map MarkupEscape.escape := by
  have kept : ∀ (rest : List ConfidentialityLabel) (first : Option String),
      (∀ a ∈ rest, a.policy.oid = none) →
      rest.foldl (fun oid a => (a.policy.oid.map MarkupEscape.escape).or oid) first = first := by
    intro rest
    induction rest with
    | nil => exact fun _ _ => rfl
    | cons a rest ih =>
      intro first each
      rw [List.foldl_cons, each a List.mem_cons_self]
      exact ih first fun b mem => each b (List.mem_cons_of_mem a mem)
  exact kept _ _ without

theorem stated_decodedLabel {l : ConfidentialityLabel} (entities : EscapesEntities)
    (ordinary : OrdinaryAttributes l)
    (alternatives : ∀ a ∈ l.alternativeLabels,
      a.policy.identifier = "NATO" ∧ a.policy.oid = none ∧ a.categories = [])
    (policy : l.alternativeLabels ≠ [] → l.policy.identifier = "NATO")
    (created reviewed : Option DateTime) : stated (decodedLabel l created reviewed) = stated l := by
  have identifier : lastPolicy l = l.policy.identifier := by
    rcases eq_or_ne l.alternativeLabels [] with none | some
    · rw [lastPolicy, none]
      rfl
    · rw [policy some]
      exact lastPolicy_same (fun a mem => (alternatives a mem).1) some
  have oid : lastOid l = l.policy.oid := by
    rw [lastOid_own fun a mem => (alternatives a mem).2.1]
    cases named : l.policy.oid with
    | none => rfl
    | some oid => rw [Option.map_some, escape_ordinary entities (ordinary.oid oid named)]
  have added : l.alternativeLabels.flatMap (·.categories) = [] :=
    List.flatMap_eq_nil_iff.mpr fun a mem => (alternatives a mem).2.2
  have categories : (l.categories ++ l.alternativeLabels.flatMap (·.categories)).map rawCategory =
      l.categories := by
    rw [added, List.append_nil, (rawCategories_self_iff entities _).mpr ordinary.tagNames]
  simp only [stated, decodedLabel, ConfidentialityLabel.new, LabelPolicy.new, identifier, oid,
    categories]

/-- A label is read back as it was written exactly if its alternatives say no more than a
classification, under the NATO policy that it then has itself. -/
theorem xml_round_trip_iff {R : MarkupReader} {readTime : TimeReader} {l : ConfidentialityLabel}
    (entities : EscapesEntities) (reads : R.ReadsBack (labelEvents l)) (trimmed : TrimmedTexts l)
    (others : ∀ a ∈ l.alternativeLabels, TrimmedTexts a) (ordinary : OrdinaryAttributes l) :
    RoundTrips R readTime l ↔ TimesReadable readTime l ∧
      (∀ a ∈ l.alternativeLabels,
        a.policy.identifier = "NATO" ∧ a.policy.oid = none ∧ a.categories = []) ∧
      (l.alternativeLabels ≠ [] → l.policy.identifier = "NATO") := by
  have decoding : ∀ back, xmlDeserialize R readTime (xmlSerialize l) = .ok back ↔
      ∃ created reviewed, parseTime readTime (l.creationTime.map DateTime.toRfc3339) = .ok created ∧
        parseTime readTime (l.reviewDateTime.map DateTime.toRfc3339) = .ok reviewed ∧
        decodedLabel l created reviewed = back := fun back =>
    xmlDeserialize_ok_iff entities reads trimmed others ordinary.times
  have listed : ∀ created reviewed,
      (decodedLabel l created reviewed).alternativeLabels.map stated =
        l.alternativeLabels.map stated ↔ ∀ a ∈ l.alternativeLabels,
          a.policy.identifier = "NATO" ∧ a.policy.oid = none ∧ a.categories = [] := by
    intro created reviewed
    simp only [decodedLabel, List.map_map, List.map_inj_left, Function.comp,
      stated_decodedAlternative_iff]
  constructor
  · intro held
    obtain ⟨back, decoded, main, others⟩ := held
    obtain ⟨created, reviewed, read, again, rfl⟩ := (decoding back).mp decoded
    have alternatives := (listed created reviewed).mp others
    refine ⟨(times_readable_iff readTime l).mpr ⟨⟨_, read⟩, ⟨_, again⟩⟩, alternatives, ?_⟩
    intro some
    have identifier : lastPolicy l = l.policy.identifier := congrArg Stated.identifier main
    rw [← identifier]
    exact lastPolicy_same (fun a mem => (alternatives a mem).1) some
  · intro held
    obtain ⟨times, alternatives, policy⟩ := held
    obtain ⟨⟨created, read⟩, ⟨reviewed, again⟩⟩ := (times_readable_iff readTime l).mp times
    exact ⟨_, (decoding _).mpr ⟨created, reviewed, read, again, rfl⟩,
      stated_decodedLabel entities ordinary alternatives policy created reviewed,
      (listed created reviewed).mpr alternatives⟩

end Xml

section Both

structure Shown where
  identifier : String
  classification : ClassificationLevel
  categories : List CategoryMarking
  privacyMark : Option String
  creationTime : Option DateTime
  reviewDateTime : Option DateTime
  deriving DecidableEq

def shown (l : ConfidentialityLabel) : Shown :=
  ⟨l.policy.identifier, l.classification, l.categories, l.privacyMark, l.creationTime,
    l.reviewDateTime⟩

theorem deserializeJson_ok_iff {readTime : TimeReader} {l back : ConfidentialityLabel}
    (valid : l.validate = .ok ()) :
    deserializeJson readTime (toJsonValue l) = .ok back ↔ ∃ created reviewed,
      parseTime readTime (l.creationTime.map DateTime.toRfc3339) = .ok created ∧
      parseTime readTime (l.reviewDateTime.map DateTime.toRfc3339) = .ok reviewed ∧
      { jsonForm l with creationTime := created, reviewDateTime := reviewed } = back := by
  have formValid : ∀ created reviewed,
      ({ jsonForm l with creationTime := created, reviewDateTime := reviewed } :
        ConfidentialityLabel).validate = .ok () := fun _ _ => validate_jsonForm valid
  have parsed := parseJsonValue_toJsonValue readTime l
  have checked : deserializeJson readTime (toJsonValue l) = parseJsonValue readTime (toJsonValue l) := by
    unfold deserializeJson
    cases made : parseJsonValue readTime (toJsonValue l) with
    | error e => rfl
    | ok back' =>
      rw [parsed] at made
      obtain ⟨created, _, later⟩ := bind_ok.mp made
      obtain ⟨reviewed, _, rfl⟩ := map_ok.mp later
      simp only [formValid]
  rw [checked, parsed]
  constructor
  · intro made
    obtain ⟨created, read, later⟩ := bind_ok.mp made
    obtain ⟨reviewed, again, same⟩ := map_ok.mp later
    exact ⟨created, reviewed, read, again, same⟩
  · intro held
    obtain ⟨created, reviewed, read, again, same⟩ := held
    exact bind_ok.mpr ⟨created, read, map_ok.mpr ⟨reviewed, again, same⟩⟩

theorem json_decoded_iff {readTime : TimeReader} {l : ConfidentialityLabel}
    (valid : l.validate = .ok ()) :
    (∃ back, deserializeJson readTime (toJsonValue l) = .ok back) ↔ TimesReadable readTime l := by
  rw [times_readable_iff]
  constructor
  · rintro ⟨back, decoded⟩
    obtain ⟨created, reviewed, read, again, _⟩ := (deserializeJson_ok_iff valid).mp decoded
    exact ⟨⟨created, read⟩, reviewed, again⟩
  · rintro ⟨⟨created, read⟩, reviewed, again⟩
    exact ⟨_, (deserializeJson_ok_iff valid).mpr ⟨created, reviewed, read, again, rfl⟩⟩

theorem json_decoded_agrees {readTime : TimeReader} {l back : ConfidentialityLabel}
    (valid : l.validate = .ok ()) (decoded : deserializeJson readTime (toJsonValue l) = .ok back) :
    Agree back l := by
  obtain ⟨_, _, _, _, rfl⟩ := (deserializeJson_ok_iff valid).mp decoded
  exact ⟨rfl, rfl, rfl⟩

variable [MarkupEscape]

/-- Both encodings of a label are decoded, to labels that agree. -/
def EncodingsAgree (R : MarkupReader) (readTime : TimeReader) (l : ConfidentialityLabel) : Prop :=
  ∃ fromXml fromJson, deserializeXml R readTime (xmlSerialize l) = .ok fromXml ∧
    deserializeJson readTime (toJsonValue l) = .ok fromJson ∧ shown fromXml = shown fromJson

omit [MarkupEscape] in
theorem deserializeXml_ok {R : MarkupReader} {readTime : TimeReader} {data : String}
    {l : ConfidentialityLabel} : deserializeXml R readTime data = .ok l ↔
      xmlDeserialize R readTime data = .ok l ∧ l.validate = .ok () := by
  constructor
  · intro accepted
    obtain ⟨decoded, read, checked⟩ := bind_ok.mp accepted
    obtain ⟨valid, same⟩ := check_ok.mp checked
    obtain rfl := pure_ok.mp same
    exact ⟨read, valid⟩
  · intro held
    obtain ⟨read, valid⟩ := held
    exact bind_ok.mpr ⟨l, read, check_ok.mpr ⟨valid, rfl⟩⟩

theorem decodedLabel_single {l : ConfidentialityLabel} (single : l.alternativeLabels = [])
    (created reviewed : Option DateTime) : shown (decodedLabel l created reviewed) =
      ⟨l.policy.identifier, l.classification, l.categories.map rawCategory, l.privacyMark, created,
        reviewed⟩ := by
  simp only [shown, decodedLabel, ConfidentialityLabel.new, LabelPolicy.new, lastPolicy, single,
    List.foldl_nil, List.flatMap_nil, List.append_nil]

/-- The two encodings of a valid label without alternatives agree exactly if no category has a
name with a character that markup escapes. -/
theorem encodings_agree_iff {R : MarkupReader} {readTime : TimeReader} {l : ConfidentialityLabel}
    (entities : EscapesEntities) (reads : R.ReadsBack (labelEvents l)) (valid : l.validate = .ok ())
    (single : l.alternativeLabels = []) (trimmed : TrimmedTexts l)
    (ordinary : ∀ t, HasTime l t → ¬ Special t.toRfc3339) :
    EncodingsAgree R readTime l ↔ TimesReadable readTime l ∧ ∀ c ∈ l.categories, ¬ Special c.tagName := by
  have others : ∀ a ∈ l.alternativeLabels, TrimmedTexts a := by
    rw [single]
    intro a mem
    cases mem
  have decoding : ∀ back, xmlDeserialize R readTime (xmlSerialize l) = .ok back ↔
      ∃ created reviewed, parseTime readTime (l.creationTime.map DateTime.toRfc3339) = .ok created ∧
        parseTime readTime (l.reviewDateTime.map DateTime.toRfc3339) = .ok reviewed ∧
        decodedLabel l created reviewed = back := fun back =>
    xmlDeserialize_ok_iff entities reads trimmed others ordinary
  constructor
  · intro held
    obtain ⟨fromXml, fromJson, xml, json, same⟩ := held
    obtain ⟨created, reviewed, read, again, made⟩ :=
      (decoding fromXml).mp (deserializeXml_ok.mp xml).1
    obtain ⟨created', reviewed', _, _, made'⟩ := (deserializeJson_ok_iff valid).mp json
    rw [← made, decodedLabel_single single, ← made'] at same
    have categories : l.categories.map rawCategory = l.categories := congrArg Shown.categories same
    exact ⟨(times_readable_iff readTime l).mpr ⟨⟨_, read⟩, ⟨_, again⟩⟩,
      (rawCategories_self_iff entities _).mp categories⟩
  · intro held
    obtain ⟨times, plain⟩ := held
    obtain ⟨⟨created, read⟩, ⟨reviewed, again⟩⟩ := (times_readable_iff readTime l).mp times
    have categories : l.categories.map rawCategory = l.categories :=
      (rawCategories_self_iff entities _).mpr plain
    have whole : (decodedLabel l created reviewed).categories = l.categories := by
      simp only [decodedLabel, single, List.flatMap_nil, List.append_nil, categories]
    have policy : (decodedLabel l created reviewed).policy =
        { LabelPolicy.new l.policy.identifier with oid := lastOid l } := by
      simp only [decodedLabel, ConfidentialityLabel.new, lastPolicy, single, List.foldl_nil]
    refine ⟨_, _, deserializeXml_ok.mpr ⟨(decoding _).mpr ⟨created, reviewed, read, again, rfl⟩,
      validate_kept valid policy whole⟩, (deserializeJson_ok_iff valid).mpr
      ⟨created, reviewed, read, again, rfl⟩, ?_⟩
    rw [decodedLabel_single single, categories]
    rfl

end Both

section Fixtures

theorem plainTime_readable (l : ConfidentialityLabel) : TimesReadable plainTime l :=
  fun t _ => ⟨t, rfl⟩

def marked (identifier : String) (categories : List CategoryMarking)
    (alternatives : List ConfidentialityLabel) : ConfidentialityLabel :=
  { ConfidentialityLabel.new (.new identifier) .secret with
    categories
    alternativeLabels := alternatives }

section Marked

variable {identifier : String} {categories : List CategoryMarking}
variable (alternatives : List ConfidentialityLabel)

theorem trimmed_marked (named : Trimmed identifier) (values : ∀ c ∈ categories, ∀ v ∈ c.values, Trimmed v) :
    TrimmedTexts (marked identifier categories alternatives) where
  policy := named
  privacyMark _ mem := by cases mem
  colour _ mem := by cases mem
  markingData _ mem := by cases mem
  values := values

theorem untimed_marked (t : DateTime) : ¬ HasTime (marked identifier categories alternatives) t := by
  rintro (here | here) <;> cases here

theorem ordinary_marked (tagNames : ∀ c ∈ categories, ¬ Special c.tagName) :
    OrdinaryAttributes (marked identifier categories alternatives) where
  oid _ mem := by cases mem
  tagNames := tagNames
  times t here := absurd here (untimed_marked alternatives t)

end Marked

theorem secret_document_read (readTime : TimeReader) (categories : List CategoryMarking)
    (tagNames : ∀ c ∈ categories, ¬ Special c.tagName)
    (values : ∀ c ∈ categories, ∀ v ∈ c.values, Trimmed v) : letI := entityEscape
    let secret := { ConfidentialityLabel.new .nato .secret with categories }
    ∃ l, xmlDeserialize entityReader readTime (xmlSerialize secret) = .ok l ∧
      stated l = stated secret := by
  let : MarkupEscape := entityEscape
  intro secret
  have untimed : ∀ t, ¬ HasTime secret t := by
    rintro t (here | here) <;> cases here
  have single : ∀ a ∈ secret.alternativeLabels, TrimmedTexts a := by
    intro a mem
    cases mem
  have named : Trimmed LabelPolicy.nato.identifier := by decide
  have ordinary : ∀ oid ∈ LabelPolicy.nato.oid, ¬ Special oid := by decide
  have trimmed : TrimmedTexts secret :=
    ⟨named, fun _ mem => (by cases mem), fun _ mem => (by cases mem), fun _ mem => (by cases mem),
      values⟩
  have plain : OrdinaryAttributes secret :=
    ⟨ordinary, tagNames, fun t here => absurd here (untimed t)⟩
  obtain ⟨l, read, same, _⟩ := (xml_round_trip_iff (fun _ => rfl) (entityReader_labelEvents _)
    trimmed single plain).mpr ⟨fun t here => absurd here (untimed t), fun a mem => (by cases mem),
      fun some => absurd rfl some⟩
  exact ⟨l, read, same⟩

def caveatedAlternative : ConfidentialityLabel :=
  marked "GBR" [⟨"Handling", .restrictive, ["UK EYES ONLY"]⟩] []

def releasableWith (alternatives : List ConfidentialityLabel) : ConfidentialityLabel :=
  marked "NATO" [.releasableTo ["USA"]] alternatives

/-- A national alternative comes back as a NATO one, its policy and its caveat on the label. -/
theorem caveated_alternative_lost : letI := entityEscape
    (releasableWith [caveatedAlternative]).validate = .ok () ∧
      caveatedAlternative.validate = .ok () ∧ caveatedAlternative.alternativeLabels = [] ∧
      TrimmedTexts (releasableWith [caveatedAlternative]) ∧ TrimmedTexts caveatedAlternative ∧
      OrdinaryAttributes (releasableWith [caveatedAlternative]) ∧
      OrdinaryAttributes caveatedAlternative ∧
      ¬ RoundTrips entityReader plainTime (releasableWith [caveatedAlternative]) := by
  let : MarkupEscape := entityEscape
  have main : TrimmedTexts (releasableWith [caveatedAlternative]) :=
    trimmed_marked _ (by decide) (by decide)
  have other : TrimmedTexts caveatedAlternative := trimmed_marked _ (by decide) (by decide)
  have plain : OrdinaryAttributes (releasableWith [caveatedAlternative]) :=
    ordinary_marked _ (by decide)
  refine ⟨rfl, rfl, rfl, main, other, plain, ordinary_marked _ (by decide), ?_⟩
  intro held
  obtain ⟨back, decoded, same, _⟩ := held
  have others : ∀ a ∈ [caveatedAlternative], TrimmedTexts a := by
    intro a mem
    rw [List.mem_singleton.mp mem]
    exact other
  obtain ⟨created, reviewed, _, _, rfl⟩ := (xmlDeserialize_ok_iff (fun _ => rfl)
    (entityReader_labelEvents _) main others plain.times).mp decoded
  have identifier : "GBR" = "NATO" := congrArg Stated.identifier same
  revert identifier
  decide

theorem nato_alternative_kept : letI := entityEscape
    RoundTrips entityReader plainTime (releasableWith [marked "NATO" [] []]) := by
  let : MarkupEscape := entityEscape
  have others : ∀ a ∈ [marked "NATO" [] []], TrimmedTexts a := by
    intro a mem
    rw [List.mem_singleton.mp mem]
    exact trimmed_marked _ (by decide) (by decide)
  refine (xml_round_trip_iff (fun _ => rfl) (entityReader_labelEvents _)
    (trimmed_marked _ (by decide) (by decide)) others (ordinary_marked _ (by decide))).mpr
    ⟨plainTime_readable _, ?_, fun _ => rfl⟩
  intro a mem
  rw [List.mem_singleton.mp mem]
  exact ⟨rfl, rfl, rfl⟩

def categorised (tagName : String) : ConfidentialityLabel :=
  marked "NATO" [⟨tagName, .restrictive, ["ALPHA"]⟩] []

theorem trimmed_categorised (tagName : String) : TrimmedTexts (categorised tagName) := by
  have alpha : ∀ v ∈ ["ALPHA"], Trimmed v := by decide
  refine trimmed_marked _ (by decide) fun c mem => ?_
  rw [List.mem_singleton.mp mem]
  exact alpha

/-- A name with an ampersand is another one in the document. -/
theorem ampersand_category_disagrees : letI := entityEscape
    (categorised "R&D").validate = .ok () ∧ (categorised "R&D").alternativeLabels = [] ∧
      TrimmedTexts (categorised "R&D") ∧
      ¬ EncodingsAgree entityReader plainTime (categorised "R&D") := by
  let : MarkupEscape := entityEscape
  have trimmed := trimmed_categorised "R&D"
  refine ⟨rfl, rfl, trimmed, ?_⟩
  intro held
  obtain ⟨fromXml, fromJson, xml, json, same⟩ := held
  have others : ∀ a ∈ (categorised "R&D").alternativeLabels, TrimmedTexts a := by
    intro a mem
    cases mem
  obtain ⟨created, reviewed, _, _, rfl⟩ := (xmlDeserialize_ok_iff (fun _ => rfl)
    (entityReader_labelEvents _) trimmed others
    fun t here => absurd here (untimed_marked _ t)).mp (deserializeXml_ok.mp xml).1
  obtain ⟨_, _, _, _, rfl⟩ := (deserializeJson_ok_iff (l := categorised "R&D") rfl).mp json
  have names : entityEscape.escape "R&D" = "R&D" :=
    congrArg (fun x => (x.categories.map CategoryMarking.tagName).headD "") same
  revert names
  decide

theorem ordinary_category_agrees : letI := entityEscape
    EncodingsAgree entityReader plainTime (categorised "Handling") := by
  let : MarkupEscape := entityEscape
  refine (encodings_agree_iff (fun _ => rfl) (entityReader_labelEvents _) rfl rfl
    (trimmed_categorised _) fun t here => absurd here (untimed_marked _ t)).mpr
    ⟨plainTime_readable _, ?_⟩
  show ∀ c ∈ [CategoryMarking.mk "Handling" .restrictive ["ALPHA"]], ¬ Special c.tagName
  decide

end Fixtures

end MimStanag
