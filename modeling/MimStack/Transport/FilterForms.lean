import MimStack.Transport.Broker

/-!
The two ways to ask for objects. A filter expression is text: the class, then one
bracketed predicate after the other, each value in quotes; the parser looks for
the closing bracket before it looks at the quotes. The legacy query names one
property and its value and needs no text.
-/
namespace MimTransport
open RustText JsonText MimCore MimRuntime ExchangeBroker

def renderPredicate (predicate : FilterPredicate) (quote : Char) : List Char :=
  '[' :: '@' :: predicate.propertyName.toList ++ '=' :: quote :: predicate.value.toList ++
    [quote, ']']

def renderPredicates (predicates : List (FilterPredicate × Char)) : List Char :=
  predicates.flatMap fun p => renderPredicate p.1 p.2

/-- The expression for a class and predicates, each with the quote it is written in. -/
def renderFilter (className : String) (predicates : List (FilterPredicate × Char)) : String :=
  "//" ++ className ++ .ofList (renderPredicates predicates)

structure PlainName (name : String) : Prop where
  trimmed : trim name = name
  named : isEmpty name = false
  noEquals : '=' ∉ name.toList
  noClose : ']' ∉ name.toList
  noAt : name.toList.head? ≠ some '@'

structure Renderable (predicate : FilterPredicate) (quote : Char) : Prop where
  name : PlainName predicate.propertyName
  quotes : quote = '\'' ∨ quote = '"'
  unquoted : quote ∉ predicate.value.toList

theorem plainName_begun {name : String} (plain : PlainName name) :
    ∃ first rest, name.toList = first :: rest ∧ isWhitespace first = false ∧ first ≠ '@' := by
  have filled := plain.named
  have begins := ((trim_whole_iff name).mp plain.trimmed).1
  have noAt := plain.noAt
  cases text : name.toList with
  | nil => simp [isEmpty, text] at filled
  | cons first rest =>
    rw [text, List.head?_cons] at begins noAt
    exact ⟨first, rest, rfl, begins first rfl, fun same => noAt (congrArg some same)⟩

theorem renderable_quote {predicate : FilterPredicate} {quote : Char}
    (renderable : Renderable predicate quote) : quote ≠ ']' := by
  rcases renderable.quotes with same | same <;> rw [same] <;> decide

theorem parsePredicate_named {name : String} (plain : PlainName name) {quote : Char}
    (quotes : quote = '\'' ∨ quote = '"') (tail : List Char) :
    parsePredicate (.ofList ('[' :: ('@' :: name.toList ++ '=' :: quote :: tail) ++ [']'])) =
      match parseQuotedValue (.ofList (quote :: tail.rdropWhile isWhitespace)) with
      | .error e => .error e
      | .ok value => .ok ⟨name, value⟩ := by
  have bracketed : String.ofList ('[' :: ('@' :: name.toList ++ '=' :: quote :: tail) ++ [']']) =
      "[" ++ (.ofList ('@' :: name.toList ++ '=' :: quote :: tail) ++ "]") := by
    rw [← String.toList_inj]
    simp
  obtain ⟨first, rest, text, visible, noAt⟩ := plainName_begun plain
  have quoteVisible : isWhitespace quote = false := by
    rcases quotes with rfl | rfl <;> decide
  have quoteOther : quote ≠ '=' := by
    rcases quotes with rfl | rfl <;> decide
  have outer : trim (.ofList ('@' :: name.toList ++ '=' :: quote :: tail)) =
      .ofList ('@' :: name.toList ++ '=' :: quote :: tail.rdropWhile isWhitespace) := by
    have shape : '@' :: name.toList ++ '=' :: quote :: tail =
        '@' :: (name.toList ++ ['=']) ++ quote :: tail := by simp
    rw [shape, trim_visible _ _ (by decide) quoteVisible]
    simp
  have unmarked : trimStartMatches (· == '@')
      (.ofList ('@' :: name.toList ++ '=' :: quote :: tail.rdropWhile isWhitespace)) =
      .ofList (name.toList ++ '=' :: quote :: tail.rdropWhile isWhitespace) := by
    rw [text]
    exact trimStartMatches_marker noAt _
  have inner : trim (.ofList (name.toList ++ '=' :: quote :: tail.rdropWhile isWhitespace)) =
      .ofList (name.toList ++ '=' :: quote :: tail.rdropWhile isWhitespace) := by
    have shape : name.toList ++ '=' :: quote :: tail.rdropWhile isWhitespace =
        first :: (rest ++ ['=']) ++ quote :: tail.rdropWhile isWhitespace := by simp [text]
    rw [shape, trim_visible _ _ visible quoteVisible, List.rdropWhile_idempotent]
  have value : trim (trimStartMatches (· == '=')
      (.ofList ('=' :: quote :: tail.rdropWhile isWhitespace))) =
      .ofList (quote :: tail.rdropWhile isWhitespace) := by
    have stripped := trimStartMatches_marker quoteOther (tail.rdropWhile isWhitespace)
    have kept := rdropWhile_append_cons isWhitespace [] (tail.rdropWhile isWhitespace) quoteVisible
    rw [List.nil_append, List.rdropWhile_idempotent] at kept
    rw [stripped, trim_ofList, List.dropWhile_cons_of_neg (by simp [quoteVisible]), kept]
    rfl
  rw [parsePredicate, bracketed, (stripPrefix_some_iff _ _ _).mpr rfl, Option.bind_some,
    stripSuffix_append]
  simp only [outer, unmarked, inner, splitAtChar_append plain.noEquals, String.ofList_toList,
    plain.trimmed, plain.named, value]
  rfl

theorem parsePredicate_rendered {predicate : FilterPredicate} {quote : Char}
    (renderable : Renderable predicate quote) :
    parsePredicate (.ofList (renderPredicate predicate quote)) = .ok predicate := by
  have shape : renderPredicate predicate quote = '[' :: ('@' :: predicate.propertyName.toList ++
      '=' :: quote :: (predicate.value.toList ++ [quote])) ++ [']'] := by
    simp [renderPredicate]
  have quoteVisible : isWhitespace quote = false := by
    rcases renderable.quotes with same | same <;> rw [same] <;> decide
  have whole : (predicate.value.toList ++ [quote]).rdropWhile isWhitespace =
      predicate.value.toList ++ [quote] :=
    List.rdropWhile_concat_neg _ _ _ (by simp [quoteVisible])
  have value : parseQuotedValue (.ofList (quote :: (predicate.value.toList ++ [quote]))) =
      .ok predicate.value := by
    rcases renderable.quotes with same | same <;> simp [parseQuotedValue, same]
  rw [shape, parsePredicate_named renderable.name renderable.quotes, whole, value]

theorem parsePredicate_cut {predicate : FilterPredicate} {quote : Char}
    (renderable : Renderable predicate quote) {start : List Char}
    (within : start <+: predicate.value.toList) :
    ∃ e, parsePredicate (.ofList ('[' :: ('@' :: predicate.propertyName.toList ++
      '=' :: quote :: start) ++ [']'])) = .error e := by
  have unquoted : quote ∉ start.rdropWhile isWhitespace := by
    intro mem
    exact renderable.unquoted
      (within.subset ((List.rdropWhile_prefix isWhitespace start).subset mem))
  have value : parseQuotedValue (.ofList (quote :: start.rdropWhile isWhitespace)) =
      .error (.invalidRequest ("unterminated predicate value: " ++
        .ofList (quote :: start.rdropWhile isWhitespace))) := by
    have unterminated : (start.rdropWhile isWhitespace).getLast? ≠ some quote := by
      intro last
      exact unquoted (List.mem_of_getLast? last)
    rcases renderable.quotes with same | same <;> rw [same] at unterminated ⊢ <;>
      simp [parseQuotedValue, unterminated]
  rw [parsePredicate_named renderable.name renderable.quotes, value]
  exact ⟨_, rfl⟩

section Loop

variable (expression : String)

theorem parsePredicates_closed (pending text rest : List Char) (noClose : ']' ∉ text) :
    parsePredicates expression (some pending) (text ++ ']' :: rest) =
      match parsePredicate (.ofList (pending ++ text ++ [']'])) with
      | .error e => .error e
      | .ok predicate =>
        match parsePredicates expression none rest with
        | .error e => .error e
        | .ok (more, trailing) => .ok (predicate :: more, trailing) := by
  induction text generalizing pending with
  | nil =>
    rw [List.nil_append, List.append_nil, parsePredicates]
    exact if_pos (beq_self_eq_true ']')
  | cons c text ih =>
    simp only [List.mem_cons, not_or] at noClose
    have other : (c == ']') = false := by
      rw [beq_eq_false_iff_ne]
      exact fun same => noClose.1 same.symm
    rw [List.cons_append, parsePredicates, other]
    simp only [Bool.false_eq_true, if_false]
    rw [ih (pending ++ [c]) noClose.2]
    simp

theorem parsePredicates_group (text rest : List Char) (noClose : ']' ∉ text) :
    parsePredicates expression none ('[' :: text ++ ']' :: rest) =
      match parsePredicate (.ofList ('[' :: text ++ [']'])) with
      | .error e => .error e
      | .ok predicate =>
        match parsePredicates expression none rest with
        | .error e => .error e
        | .ok (more, trailing) => .ok (predicate :: more, trailing) := by
  rw [List.cons_append, parsePredicates]
  exact parsePredicates_closed expression ['['] text rest noClose

theorem parsePredicates_first (predicate : FilterPredicate) (quote : Char)
    (predicates : List (FilterPredicate × Char)) (renderable : Renderable predicate quote)
    (noClose : ']' ∉ predicate.value.toList) :
    parsePredicates expression none (renderPredicates ((predicate, quote) :: predicates)) =
      match parsePredicates expression none (renderPredicates predicates) with
      | .error e => .error e
      | .ok (more, trailing) => .ok (predicate :: more, trailing) := by
  have group : renderPredicates ((predicate, quote) :: predicates) =
      '[' :: ('@' :: predicate.propertyName.toList ++ '=' :: quote :: predicate.value.toList ++
        [quote]) ++ ']' :: renderPredicates predicates := by
    simp [renderPredicates, renderPredicate]
  have text : '[' :: ('@' :: predicate.propertyName.toList ++
      '=' :: quote :: predicate.value.toList ++ [quote]) ++ [']'] =
        renderPredicate predicate quote := by
    simp [renderPredicate]
  have inside : ']' ∉ '@' :: predicate.propertyName.toList ++
      '=' :: quote :: predicate.value.toList ++ [quote] := by
    simp [renderable.name.noClose, noClose, (renderable_quote renderable).symm]
  rw [group, parsePredicates_group _ _ _ inside, text, parsePredicate_rendered renderable]

theorem parsePredicates_cut (predicate : FilterPredicate) (quote : Char)
    (predicates : List (FilterPredicate × Char)) (renderable : Renderable predicate quote)
    (closes : ']' ∈ predicate.value.toList) : ∃ e,
    parsePredicates expression none (renderPredicates ((predicate, quote) :: predicates)) =
      .error e := by
  obtain ⟨start, rest, value, noClose⟩ := List.eq_append_cons_of_mem closes
  have group : renderPredicates ((predicate, quote) :: predicates) =
      '[' :: ('@' :: predicate.propertyName.toList ++ '=' :: quote :: start) ++
        ']' :: (rest ++ quote :: ']' :: renderPredicates predicates) := by
    simp [renderPredicates, renderPredicate, value]
  have inside : ']' ∉ '@' :: predicate.propertyName.toList ++ '=' :: quote :: start := by
    simp [renderable.name.noClose, noClose, (renderable_quote renderable).symm]
  have begins : start <+: predicate.value.toList := ⟨']' :: rest, value.symm⟩
  obtain ⟨e, refused⟩ := parsePredicate_cut renderable begins
  rw [group, parsePredicates_group _ _ _ inside, refused]
  exact ⟨e, rfl⟩

theorem parsePredicates_rendered (predicates : List (FilterPredicate × Char))
    (renderable : ∀ p ∈ predicates, Renderable p.1 p.2)
    (noClose : ∀ p ∈ predicates, ']' ∉ p.1.value.toList) :
    parsePredicates expression none (renderPredicates predicates) =
      .ok (predicates.map Prod.fst, []) := by
  induction predicates with
  | nil => rfl
  | cons p predicates ih =>
    have later := ih (fun q mem => renderable q (.tail _ mem)) fun q mem => noClose q (.tail _ mem)
    rw [parsePredicates_first expression p.1 p.2 predicates (renderable p (.head _))
      (noClose p (.head _)), later]
    rfl

theorem parsePredicates_refused (predicates : List (FilterPredicate × Char))
    (renderable : ∀ p ∈ predicates, Renderable p.1 p.2)
    (closes : ∃ p ∈ predicates, ']' ∈ p.1.value.toList) :
    ∃ e, parsePredicates expression none (renderPredicates predicates) = .error e := by
  induction predicates with
  | nil =>
    obtain ⟨p, mem, _⟩ := closes
    cases mem
  | cons p predicates ih =>
    have first := renderable p (.head _)
    by_cases here : ']' ∈ p.1.value.toList
    · exact parsePredicates_cut expression p.1 p.2 predicates first here
    · obtain ⟨q, mem, inValue⟩ := closes
      have more : ∃ p ∈ predicates, ']' ∈ p.1.value.toList := by
        rcases List.mem_cons.mp mem with same | later
        · exact absurd (same ▸ inValue) here
        · exact ⟨q, later, inValue⟩
      obtain ⟨e, refused⟩ := ih (fun q mem => renderable q (.tail _ mem)) more
      rw [parsePredicates_first expression p.1 p.2 predicates first here, refused]
      exact ⟨e, rfl⟩

end Loop

section Whole

variable {className : String} {predicates : List (FilterPredicate × Char)}

theorem renderFilter_trimmed (trimmed : trim className = className)
    (named : isEmpty className = false) :
    trim (renderFilter className predicates) = renderFilter className predicates := by
  have begins : (renderFilter className predicates).toList =
      '/' :: '/' :: (className.toList ++ renderPredicates predicates) := by
    simp [renderFilter]
  have start : ∀ c ∈ (renderFilter className predicates).toList.head?, isWhitespace c = false := by
    rw [begins]
    simp [isWhitespace]
  apply (trim_whole_iff _).mpr
  apply And.intro start
  intro c last
  rw [begins] at last
  rcases List.eq_nil_or_concat predicates with none | ⟨front, p, shape⟩
  · have filled : className.toList ≠ [] := by
      intro empty
      simp [isEmpty, empty] at named
    apply ((trim_whole_iff className).mp trimmed).2 c
    rw [none] at last
    simpa [renderPredicates, List.getLast?_cons, List.getLast?_eq_some_getLast filled] using last
  · have closed : c = ']' := by
      have := last
      simp [shape, renderPredicates, renderPredicate, List.getLast?_cons,
        List.getLast?_append] at this
      exact this.symm
    rw [closed]
    decide

theorem renderFilter_split (noOpen : '[' ∉ className.toList) :
    (splitAtChar '[' (className ++ .ofList (renderPredicates predicates))).getD
      (className ++ .ofList (renderPredicates predicates), "") =
        (className, .ofList (renderPredicates predicates)) := by
  cases predicates with
  | nil =>
    have absent : '[' ∉ (className ++ String.ofList (renderPredicates [])).toList := by
      simpa [renderPredicates] using noOpen
    rw [splitAtChar_absent absent]
    simp [renderPredicates]
  | cons p predicates =>
    obtain ⟨rest, opens⟩ : ∃ rest, renderPredicates (p :: predicates) = '[' :: rest :=
      ⟨_, rfl⟩
    have text : className ++ .ofList (renderPredicates (p :: predicates)) =
        .ofList (className.toList ++ '[' :: rest) := by
      rw [← String.toList_inj]
      simp [opens]
    rw [text, splitAtChar_append noOpen, opens, Option.getD_some, String.ofList_toList]

theorem parseFilter_render (trimmed : trim className = className)
    (named : isEmpty className = false) (noOpen : '[' ∉ className.toList) :
    parseFilter (renderFilter className predicates) =
      match parsePredicates (renderFilter className predicates) none
        (renderPredicates predicates) with
      | .error e => .error e
      | .ok (more, trailing) =>
        if isEmpty (trim (.ofList trailing)) then .ok ⟨className, more⟩
        else .error (.invalidRequest ("unexpected trailing filter text: '" ++
          .ofList trailing ++ "'")) := by
  have body : stripPrefix "//" (renderFilter className predicates) =
      some (className ++ .ofList (renderPredicates predicates)) := by
    rw [stripPrefix_some_iff, renderFilter, String.append_assoc]
  rw [parseFilter, renderFilter_trimmed trimmed named, body]
  simp only [renderFilter_split noOpen, trimmed, named, String.toList_ofList]
  rfl

end Whole

/-- A rendered expression is read back exactly when no value holds a closing bracket. -/
theorem rendered_filter_read_iff (className : String) (predicates : List (FilterPredicate × Char))
    (trimmed : trim className = className) (named : isEmpty className = false)
    (noOpen : '[' ∉ className.toList) (renderable : ∀ p ∈ predicates, Renderable p.1 p.2) :
    parseFilter (renderFilter className predicates) =
        .ok ⟨className, predicates.map Prod.fst⟩ ↔
      ∀ p ∈ predicates, ']' ∉ p.1.value.toList := by
  rw [parseFilter_render trimmed named noOpen]
  constructor
  · intro read p mem closes
    obtain ⟨e, refused⟩ := parsePredicates_refused (renderFilter className predicates) predicates
      renderable ⟨p, mem, closes⟩
    rw [refused] at read
    cases read
  · intro noClose
    rw [parsePredicates_rendered _ predicates renderable noClose]
    rfl

theorem rendered_filter_read_delimiters :
    parseFilter (renderFilter "Target" [(⟨"a[b", "x='[y"⟩, '"'), (⟨"c", "it\"s"⟩, '\'')]) =
      .ok ⟨"Target", [⟨"a[b", "x='[y"⟩, ⟨"c", "it\"s"⟩]⟩ := by
  apply (rendered_filter_read_iff "Target"
    [(⟨"a[b", "x='[y"⟩, '"'), (⟨"c", "it\"s"⟩, '\'')] (by decide) (by decide) (by decide) ?_).mpr
  · decide
  · intro p mem
    simp only [List.mem_cons, List.not_mem_nil, or_false] at mem
    rcases mem with rfl | rfl
    · exact ⟨⟨by decide, by decide, by decide, by decide, by decide⟩, .inr rfl, by decide⟩
    · exact ⟨⟨by decide, by decide, by decide, by decide, by decide⟩, .inl rfl, by decide⟩

/-- A closing bracket inside the quotes closes the predicate. -/
theorem bracket_in_value_refused :
    Renderable ⟨"nameText", "A]B"⟩ '\'' ∧
      parseFilter (renderFilter "Target" [(⟨"nameText", "A]B"⟩, '\'')]) =
        .error (.invalidRequest "unterminated predicate value: 'A") :=
  ⟨⟨⟨by decide, by decide, by decide, by decide, by decide⟩, .inl rfl, by decide⟩, by decide⟩

section Legacy

/-- The query for the objects a filter expression selects. -/
def filterQuery (expression : String) (offset limit : Option Nat) : GetByFilterRequest :=
  { filter := some expression, offset, limit }

/-- The legacy query for the objects of a class with one property value. -/
def legacyQuery (className propertyName value : String) (offset limit : Option Nat) :
    GetByFilterRequest :=
  { className, propertyName := some propertyName, propertyValue := some value, offset, limit }

theorem parseFilter_className {expression : String} {filter : FilterExpression}
    (parsed : parseFilter expression = .ok filter) : isEmpty (trim filter.className) = false := by
  unfold parseFilter at parsed
  split at parsed
  · cases parsed
  · simp only at parsed
    split at parsed
    · cases parsed
    · rename_i named
      split at parsed
      · cases parsed
      · split at parsed
        · obtain rfl := Except.ok.inj parsed
          rw [trim_trim]
          exact Bool.eq_false_iff.mpr named
        · cases parsed

theorem criteria_agree_iff (i : MimInstance) (className propertyName value : String)
    (offset limit : Option Nat) :
    instanceMatches i ⟨className, [⟨propertyName, value⟩]⟩ =
        (i.className == className &&
          legacyMatches (legacyQuery className propertyName value offset limit) i) ↔
      (i.className = className → ∀ v, presentValue i propertyName = some v → v.asStr = none →
        propertyValueMatches v value = false) := by
  by_cases named : i.className = className
  · cases present : presentValue i propertyName with
    | none => simp [instanceMatches, legacyMatches, legacyQuery, named, present]
    | some v =>
      cases v <;>
        simp [instanceMatches, legacyMatches, legacyQuery, named, present, propertyValueMatches,
          Value.asStr]
  · have other : (i.className == className) = false := beq_eq_false_iff_ne.mpr named
    simp [instanceMatches, named, other]

theorem legacy_instances (b : ExchangeBroker) {className : String} (propertyName value : String)
    (offset limit : Option Nat) (named : isEmpty (trim className) = false) :
    (b.getByFilter (legacyQuery className propertyName value offset limit)).map (·.instances) =
      .ok (paginateInstances (b.store.values.filter fun i => decide (i.oid ∉ b.inactive) &&
        (i.className == className &&
          legacyMatches (legacyQuery className propertyName value offset limit) i))
        offset limit) := by
  have accepted : queryCriterion (legacyQuery className propertyName value offset limit) =
      .ok fun i => i.className == className &&
        legacyMatches (legacyQuery className propertyName value offset limit) i := by
    simp [queryCriterion, legacyQuery, named]
  rw [getByFilter, accepted]
  rfl

theorem filter_instances (b : ExchangeBroker) {expression : String} {filter : FilterExpression}
    (offset limit : Option Nat) (parsed : parseFilter expression = .ok filter) :
    (b.getByFilter (filterQuery expression offset limit)).map (·.instances) =
      .ok (paginateInstances (b.store.values.filter fun i => decide (i.oid ∉ b.inactive) &&
        instanceMatches i filter) offset limit) := by
  have accepted : queryCriterion (filterQuery expression offset limit) =
      .ok fun i => instanceMatches i filter := by
    simp only [queryCriterion, filterQuery, parsed]
  rw [getByFilter, accepted]
  rfl

theorem filter_agree_iff {p q : MimInstance → Bool} (l : List MimInstance) :
    l.filter p = l.filter q ↔ ∀ i ∈ l, p i = q i := by
  constructor
  · intro same i mem
    have both : i ∈ l.filter p ↔ i ∈ l.filter q := by rw [same]
    simp only [List.mem_filter, mem, true_and] at both
    exact Bool.eq_iff_iff.mpr both
  · exact List.filter_congr

/-- The two queries answer alike on every page exactly when no active object of the class holds,
under that property, a value other than a string that reads like the value asked for. -/
theorem legacy_query_agrees_iff (b : ExchangeBroker)
    (expression className propertyName value : String)
    (parsed : parseFilter expression = .ok ⟨className, [⟨propertyName, value⟩]⟩) :
    (∀ offset limit,
      (b.getByFilter (legacyQuery className propertyName value offset limit)).map (·.instances) =
        (b.getByFilter (filterQuery expression offset limit)).map (·.instances)) ↔
      ∀ i ∈ b.store.values, i.oid ∉ b.inactive → i.className = className →
        ∀ v, presentValue i propertyName = some v → v.asStr = none →
          propertyValueMatches v value = false := by
  have named := parseFilter_className parsed
  simp only at named
  constructor
  · intro same i stored active
    have unpaged : ∀ l, paginateInstances l none none = l := fun _ => rfl
    have whole := same none none
    rw [legacy_instances b _ _ _ _ named, filter_instances b _ _ parsed, unpaged, unpaged,
      Except.ok.injEq, filter_agree_iff] at whole
    have alike := whole i stored
    simp only [active, not_false_eq_true, decide_true, Bool.true_and] at alike
    exact (criteria_agree_iff i className propertyName value none none).mp alike.symm
  · intro strings offset limit
    have alike : ∀ i ∈ b.store.values,
        (decide (i.oid ∉ b.inactive) && (i.className == className &&
          legacyMatches (legacyQuery className propertyName value offset limit) i)) =
        (decide (i.oid ∉ b.inactive) &&
          instanceMatches i ⟨className, [⟨propertyName, value⟩]⟩) := by
      intro i stored
      by_cases gone : i.oid ∈ b.inactive
      · simp [gone]
      · rw [(criteria_agree_iff i className propertyName value offset limit).mpr
          (strings i stored gone)]
    rw [legacy_instances b _ _ _ _ named, filter_instances b _ _ parsed,
      (filter_agree_iff b.store.values).mpr alike]

def sizedInstance : MimInstance :=
  { wireInstance "w" {} with
    properties := [⟨"size", none, .value (.number "5")⟩,
      ⟨"nameText", none, .value (.string "A")⟩] }

def sizedBroker : ExchangeBroker := (ExchangeBroker.new wireRegistry).commitPut sizedInstance

theorem legacy_query_agrees_name :
    (sizedBroker.getByFilter (legacyQuery "Wire" "nameText" "A" none none)).map (·.instances) =
      (sizedBroker.getByFilter (filterQuery "//Wire[@nameText='A']" none none)).map
        (·.instances) := by
  apply (legacy_query_agrees_iff sizedBroker "//Wire[@nameText='A']" "Wire" "nameText" "A"
    (by decide)).mpr
  intro i stored _ _ v present nonText
  have only : sizedBroker.store.values = [sizedInstance] := rfl
  rw [only, List.mem_singleton] at stored
  rw [stored] at present
  obtain rfl := Option.some.inj present
  cases nonText

/-- The filter finds a number by its text, the legacy query does not. -/
theorem legacy_query_misses_number :
    parseFilter "//Wire[@size='5']" = .ok ⟨"Wire", [⟨"size", "5"⟩]⟩ ∧
      (sizedBroker.getByFilter (filterQuery "//Wire[@size='5']" none none)).map
        (·.instances.length) = .ok 1 ∧
      (sizedBroker.getByFilter (legacyQuery "Wire" "size" "5" none none)).map
        (·.instances.length) = .ok 0 := by
  exact ⟨by decide, rfl, rfl⟩

end Legacy

end MimTransport
