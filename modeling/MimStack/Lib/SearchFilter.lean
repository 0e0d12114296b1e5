import MimStack.Lib.Bytes

/-!
Search filters of a directory in their string form. A value is written as it is, but for
the characters with a meaning in filters, which are escaped as pairs of hexadecimal digits.
-/
namespace SearchFilter
open ByteText

inductive Filter where
  | and (filters : List Filter)
  | or (filters : List Filter)
  | not (filter : Filter)
  | equality (attr : String) (value : Bytes)
  | substrings (attr : String) (parts : List Bytes)
  | greaterOrEqual (attr : String) (value : Bytes)
  | lessOrEqual (attr : String) (value : Bytes)
  | present (attr : String)
  | approximate (attr : String) (value : Bytes)
  | extensible (target : String) (value : Bytes)

structure MatchingRules where
  equality : String → Bytes → Bytes → Bool
  substrings : String → Bytes → List Bytes → Bool
  greaterOrEqual : String → Bytes → Bytes → Bool
  lessOrEqual : String → Bytes → Bytes → Bool
  approximate : String → Bytes → Bytes → Bool
  extensible : String → (String → List Bytes) → Bytes → Bool

section Matching

variable (rules : MatchingRules) (entry : String → List Bytes)

mutual

def Filter.holds : Filter → Bool
  | .and filters => allHold filters
  | .or filters => anyHolds filters
  | .not filter => !filter.holds
  | .equality attr value => (entry attr).any (rules.equality attr · value)
  | .substrings attr parts => (entry attr).any (rules.substrings attr · parts)
  | .greaterOrEqual attr value => (entry attr).any (rules.greaterOrEqual attr · value)
  | .lessOrEqual attr value => (entry attr).any (rules.lessOrEqual attr · value)
  | .present attr => !(entry attr).isEmpty
  | .approximate attr value => (entry attr).any (rules.approximate attr · value)
  | .extensible target value => rules.extensible target entry value

def allHold : List Filter → Bool
  | [] => true
  | filter :: rest => filter.holds && allHold rest

def anyHolds : List Filter → Bool
  | [] => false
  | filter :: rest => filter.holds || anyHolds rest

end

end Matching

/-- The characters that stand for themselves in a value. -/
def plainChar (c : Char) : Bool :=
  c != '\x00' && c != '(' && c != ')' && c != '*' && c != '\\'

def hexValue (c : Char) : Option Nat :=
  if '0' ≤ c && c ≤ '9' then some (c.toNat - 48)
  else if 'a' ≤ c && c ≤ 'f' then some (c.toNat - 87)
  else if 'A' ≤ c && c ≤ 'F' then some (c.toNat - 55)
  else none

def escapedByte (high low : Char) : Option UInt8 :=
  match hexValue high, hexValue low with
  | some h, some l => some (UInt8.ofNat (16 * h + l))
  | _, _ => none

def decodeValue : List Char → Option Bytes
  | [] => some []
  | '\\' :: high :: low :: rest =>
    match escapedByte high low, decodeValue rest with
    | some byte, some bytes => some (byte :: bytes)
    | _, _ => none
  | c :: rest =>
    if plainChar c then (decodeValue rest).map (String.utf8EncodeChar c ++ ·) else none

def isKeyChar (c : Char) : Bool := c.isAlphanum || c == '-'

def isKeyString : List Char → Bool
  | [] => false
  | lead :: rest => lead.isAlpha && rest.all isKeyChar

def isNumber : List Char → Bool
  | [] => false
  | ['0'] => true
  | lead :: rest => lead.isDigit && lead != '0' && rest.all Char.isDigit

def isNumericOid (chars : List Char) : Bool :=
  let numbers := chars.splitOn '.'
  2 ≤ numbers.length && numbers.all isNumber

/-- An attribute's name or object identifier, with any number of options after it. -/
def isAttributeDescription (chars : List Char) : Bool :=
  match chars.splitOn ';' with
  | [] => false
  | type :: options =>
    (isKeyString type || isNumericOid type) &&
      options.all fun option => !option.isEmpty && option.all isKeyChar

/-- What an extensible match names: an attribute, `:dn` and a matching rule, some of them left
out. -/
def isExtensibleTarget (chars : List Char) : Bool :=
  match chars.splitOn ':' with
  | [] => false
  | type :: rest =>
    let rule := if rest.head? = some ['d', 'n'] then rest.tail else rest
    (type.isEmpty && rule.length == 1 || isAttributeDescription type && rule.length ≤ 1) &&
      rule.all fun oid => isKeyString oid || isNumericOid oid

def parseEquality (attr : String) (value : List Char) : Option Filter :=
  match value.splitOn '*' with
  | [whole] => (decodeValue whole).map (Filter.equality attr)
  | [[], []] => some (.present attr)
  | parts => (parts.mapM decodeValue).map (Filter.substrings attr)

def parseItem (chars : List Char) : Option Filter :=
  match chars.dropWhile (· != '=') with
  | [] => none
  | _ :: value =>
    let left := chars.takeWhile (· != '=')
    let attr := left.dropLast
    match left.getLast? with
    | some '~' => if isAttributeDescription attr then
        (decodeValue value).map (Filter.approximate (.ofList attr)) else none
    | some '>' => if isAttributeDescription attr then
        (decodeValue value).map (Filter.greaterOrEqual (.ofList attr)) else none
    | some '<' => if isAttributeDescription attr then
        (decodeValue value).map (Filter.lessOrEqual (.ofList attr)) else none
    | some ':' => if isExtensibleTarget attr then
        (decodeValue value).map (Filter.extensible (.ofList attr)) else none
    | _ => if isAttributeDescription left then parseEquality (.ofList left) value else none

def closed {α : Type} : Option (α × List Char) → Option (α × List Char)
  | some (found, ')' :: after) => some (found, after)
  | _ => none

mutual

/-- The filter at the start of a text and what follows it. Every filter takes two characters at
least, so the text's length is fuel enough. -/
def parseFilter : Nat → List Char → Option (Filter × List Char)
  | 0, _ => none
  | fuel + 1, '(' :: '&' :: rest => (closed (parseFilters fuel rest)).map (Prod.map .and id)
  | fuel + 1, '(' :: '|' :: rest => (closed (parseFilters fuel rest)).map (Prod.map .or id)
  | fuel + 1, '(' :: '!' :: rest => (closed (parseFilter fuel rest)).map (Prod.map .not id)
  | _ + 1, '(' :: rest =>
    match rest.dropWhile (· != ')') with
    | [] => none
    | _ :: after => (parseItem (rest.takeWhile (· != ')'))).map (·, after)
  | _ + 1, _ => none

def parseFilters : Nat → List Char → Option (List Filter × List Char)
  | 0, _ => none
  | fuel + 1, chars =>
    match parseFilter fuel chars with
    | none => none
    | some (filter, '(' :: after) =>
      (parseFilters fuel ('(' :: after)).map fun found => (filter :: found.1, found.2)
    | some (filter, after) => some ([filter], after)

end

def read (text : String) : Option Filter :=
  match parseFilter (2 * text.toList.length + 1) text.toList with
  | some (filter, []) => some filter
  | _ => none

section Values

theorem decodeValue_plain {c : Char} (plain : plainChar c = true) (rest : List Char) :
    decodeValue (c :: rest) = (decodeValue rest).map (String.utf8EncodeChar c ++ ·) := by
  have unescaped : c ≠ '\\' := by
    intro same
    rw [same] at plain
    cases plain
  rw [decodeValue, if_pos plain]
  intro high low rest' same
  exact absurd same unescaped

theorem decodeValue_of_plain {chars : List Char} (plain : ∀ c ∈ chars, plainChar c = true) :
    decodeValue chars = some (chars.flatMap String.utf8EncodeChar) := by
  induction chars with
  | nil => rfl
  | cons c rest ih =>
    rw [List.forall_mem_cons] at plain
    rw [decodeValue_plain plain.1, ih plain.2, List.flatMap_cons]
    rfl

theorem encoded_length_pos (c : Char) : 0 < (String.utf8EncodeChar c).length := by
  rw [String.length_utf8EncodeChar]
  exact c.utf8Size_pos

theorem decodeValue_length {chars : List Char} {bytes : Bytes}
    (decoded : decodeValue chars = some bytes) :
    bytes.length ≤ (chars.flatMap String.utf8EncodeChar).length ∧
      (bytes.length = (chars.flatMap String.utf8EncodeChar).length →
        ∀ c ∈ chars, plainChar c = true) := by
  fun_induction decodeValue chars generalizing bytes with
  | case1 =>
    obtain rfl := Option.some.inj decoded
    exact ⟨Nat.le_refl _, fun _ => by simp⟩
  | case2 high low rest byte rest' read read' ih =>
    obtain rfl := Option.some.inj decoded
    have shorter := (ih read).1
    have high := encoded_length_pos high
    have low := encoded_length_pos low
    have escape := encoded_length_pos '\\'
    simp only [List.flatMap_cons, List.length_append, List.length_cons] at shorter ⊢
    exact ⟨by omega, fun same => by omega⟩
  | case3 => cases decoded
  | case4 c rest unescaped plain ih =>
    obtain ⟨bytes, read, rfl⟩ := Option.map_eq_some_iff.mp decoded
    obtain ⟨shorter, exact'⟩ := ih read
    simp only [List.flatMap_cons, List.length_append, List.forall_mem_cons]
    exact ⟨by omega, fun same => ⟨plain, exact' (by omega)⟩⟩
  | case5 => cases decoded

theorem decodeValue_itself_iff (chars : List Char) :
    decodeValue chars = some (chars.flatMap String.utf8EncodeChar) ↔
      ∀ c ∈ chars, plainChar c = true := by
  constructor
  · intro decoded
    exact (decodeValue_length decoded).2 rfl
  · exact decodeValue_of_plain

end Values

section Assertions

theorem splitOn_absent {c : Char} {chars : List Char} (absent : c ∉ chars) :
    chars.splitOn c = [chars] := by
  apply List.splitOnP_eq_singleton
  intro d mem
  rw [beq_eq_false_iff_ne]
  intro same
  exact absent (same ▸ mem)

theorem parseEquality_of_plain (attr : String) {chars : List Char}
    (plain : ∀ c ∈ chars, plainChar c = true) : parseEquality attr chars =
      some (.equality attr (chars.flatMap String.utf8EncodeChar)) := by
  have noStar : '*' ∉ chars := by
    intro mem
    have apart := plain '*' mem
    cases apart
  rw [parseEquality, splitOn_absent noStar]
  exact congrArg (Option.map (Filter.equality attr)) (decodeValue_of_plain plain)

theorem parseEquality_itself {attr : String} {chars : List Char}
    (parsed : parseEquality attr chars =
      some (.equality attr (chars.flatMap String.utf8EncodeChar))) :
    ∀ c ∈ chars, plainChar c = true := by
  unfold parseEquality at parsed
  split at parsed
  · rename_i whole single
    obtain ⟨bytes, decoded, same⟩ := Option.map_eq_some_iff.mp parsed
    have only : chars = whole := by
      have joined : ['*'].intercalate (chars.splitOn '*') = chars := List.intercalate_splitOn '*'
      rw [single] at joined
      simpa using joined.symm
    rw [← only] at decoded
    cases same
    exact (decodeValue_itself_iff chars).mp decoded
  · cases parsed
  · obtain ⟨parts, _, same⟩ := Option.map_eq_some_iff.mp parsed
    cases same

def isAttributeChar (c : Char) : Bool := isKeyChar c || c == '.' || c == ';'

theorem mem_splitOn (sep c : Char) (chars : List Char) (mem : c ∈ chars) :
    c = sep ∨ ∃ part ∈ chars.splitOn sep, c ∈ part := by
  induction chars with
  | nil => cases mem
  | cons d rest ih =>
    unfold List.splitOn at ih ⊢
    rw [List.splitOnP_cons_eq_if_modifyHead]
    cases parts : rest.splitOnP (· == sep) with
    | nil => exact absurd parts (List.splitOnP_ne_nil _ _)
    | cons head tail =>
      rw [parts] at ih
      by_cases separates : d = sep
      · rw [if_pos (beq_iff_eq.mpr separates)]
        rcases List.mem_cons.mp mem with rfl | later
        · exact Or.inl separates
        · obtain same | ⟨part, listed, inside⟩ := ih later
          · exact Or.inl same
          · exact Or.inr ⟨part, List.mem_cons_of_mem _ listed, inside⟩
      · rw [if_neg (by simpa using separates), List.modifyHead_cons]
        rcases List.mem_cons.mp mem with rfl | later
        · exact Or.inr ⟨_, List.mem_cons_self, List.mem_cons_self⟩
        · obtain same | ⟨part, listed, inside⟩ := ih later
          · exact Or.inl same
          · rcases List.mem_cons.mp listed with rfl | listed
            · exact Or.inr ⟨_, List.mem_cons_self, List.mem_cons_of_mem _ inside⟩
            · exact Or.inr ⟨part, List.mem_cons_of_mem _ listed, inside⟩

theorem keyString_chars {chars : List Char} (key : isKeyString chars = true) :
    ∀ c ∈ chars, isKeyChar c = true := by
  cases chars with
  | nil => simp
  | cons lead rest =>
    rw [isKeyString, Bool.and_eq_true, List.all_eq_true] at key
    refine List.forall_mem_cons.mpr ⟨?_, key.2⟩
    simp [isKeyChar, Char.isAlphanum, key.1]

theorem number_chars {chars : List Char} (number : isNumber chars = true) :
    ∀ c ∈ chars, isKeyChar c = true := by
  have digit : ∀ c : Char, c.isDigit = true → isKeyChar c = true := by
    intro c digit
    simp [isKeyChar, Char.isAlphanum, digit]
  unfold isNumber at number
  split at number
  · cases number
  · simp; decide
  · simp only [Bool.and_eq_true, List.all_eq_true] at number
    exact List.forall_mem_cons.mpr ⟨digit _ number.1.1, fun c mem => digit c (number.2 c mem)⟩

theorem numericOid_chars {chars : List Char} (oid : isNumericOid chars = true) :
    ∀ c ∈ chars, isKeyChar c = true ∨ c = '.' := by
  simp only [isNumericOid, Bool.and_eq_true, List.all_eq_true] at oid
  intro c mem
  rcases mem_splitOn '.' c chars mem with dot | inside
  · exact Or.inr dot
  · obtain ⟨part, listed, inside⟩ := inside
    exact Or.inl (number_chars (oid.2 part listed) c inside)

theorem attribute_chars {chars : List Char} (described : isAttributeDescription chars = true) :
    ∀ c ∈ chars, isAttributeChar c = true := by
  intro c mem
  have key : ∀ d, isKeyChar d = true → isAttributeChar d = true := by
    intro d key
    simp [isAttributeChar, key]
  rcases mem_splitOn ';' c chars mem with rfl | inside
  · decide
  · obtain ⟨part, listed, inside⟩ := inside
    unfold isAttributeDescription at described
    split at described
    · cases described
    · rename_i type options parts
      simp only [Bool.and_eq_true, Bool.or_eq_true, List.all_eq_true] at described
      rw [parts] at listed
      rcases List.mem_cons.mp listed with rfl | option
      · rcases described.1 with named | numbered
        · exact key c (keyString_chars named c inside)
        · rcases numericOid_chars numbered c inside with own | rfl
          · exact key c own
          · decide
      · exact key c ((described.2 part option).2 c inside)

theorem attribute_begins {chars : List Char} (described : isAttributeDescription chars = true) :
    ∃ first rest, chars = first :: rest := by
  cases chars with
  | nil => exact absurd described (by decide)
  | cons first rest => exact ⟨first, rest, rfl⟩

theorem takeWhile_until {c : Char} {start : List Char} (absent : c ∉ start) (rest : List Char) :
    (start ++ c :: rest).takeWhile (· != c) = start ∧
      (start ++ c :: rest).dropWhile (· != c) = c :: rest := by
  have before : ∀ d ∈ start, (d != c) = true := by
    intro d mem
    rw [bne_iff_ne]
    intro same
    exact absent (same ▸ mem)
  rw [List.takeWhile_append_of_pos before, List.dropWhile_append_of_pos before]
  simp

theorem attribute_absent {chars : List Char} (described : isAttributeDescription chars = true)
    {c : Char} (foreign : isAttributeChar c = false) : c ∉ chars := by
  intro mem
  rw [attribute_chars described c mem] at foreign
  cases foreign

theorem parseItem_assertion {attr value : List Char}
    (described : isAttributeDescription attr = true) :
    parseItem (attr ++ '=' :: value) = parseEquality (.ofList attr) value := by
  have noEquals : '=' ∉ attr := attribute_absent described (by decide)
  obtain ⟨left, right⟩ := takeWhile_until noEquals value
  unfold parseItem
  rw [right]
  dsimp only
  rw [left]
  split
  · rename_i last
    exact absurd (List.mem_of_getLast? last) (attribute_absent described (by decide))
  · rename_i last
    exact absurd (List.mem_of_getLast? last) (attribute_absent described (by decide))
  · rename_i last
    exact absurd (List.mem_of_getLast? last) (attribute_absent described (by decide))
  · rename_i last
    exact absurd (List.mem_of_getLast? last) (attribute_absent described (by decide))
  · rw [if_pos described]

theorem parseFilter_item (fuel : Nat) {chars : List Char}
    (plain : ∀ c ∈ ['&', '|', '!'], chars.head? ≠ some c) :
    parseFilter (fuel + 1) ('(' :: chars) =
      match chars.dropWhile (· != ')') with
      | [] => none
      | _ :: after => (parseItem (chars.takeWhile (· != ')'))).map (·, after) := by
  rw [parseFilter]
  · intro rest same
    exact plain '&' (by simp) (same ▸ rfl)
  · intro rest same
    exact plain '|' (by simp) (same ▸ rfl)
  · intro rest same
    exact plain '!' (by simp) (same ▸ rfl)

theorem parseFilter_closed (fuel : Nat) {item : List Char} (after : List Char)
    (plain : ∀ c ∈ ['&', '|', '!'], (item ++ ')' :: after).head? ≠ some c) (open' : ')' ∉ item) :
    parseFilter (fuel + 1) ('(' :: (item ++ ')' :: after)) = (parseItem item).map (·, after) := by
  obtain ⟨before, rest⟩ := takeWhile_until open' after
  rw [parseFilter_item fuel plain, before, rest]

theorem read_assertion {attr value : List Char} (described : isAttributeDescription attr = true) :
    read (.ofList ('(' :: (attr ++ '=' :: value ++ [')']))) =
      if ')' ∈ value then none else parseEquality (.ofList attr) value := by
  obtain ⟨first, others, begun⟩ := attribute_begins described
  have own : isAttributeChar first = true :=
    attribute_chars described first (begun ▸ List.mem_cons_self)
  have plain : ∀ (rest : List Char), ∀ c ∈ ['&', '|', '!'], (attr ++ rest).head? ≠ some c := by
    intro rest c listed same
    have foreign : ∀ c ∈ ['&', '|', '!'], isAttributeChar c = false := by
      intro c listed
      simp only [List.mem_cons, List.not_mem_nil, or_false] at listed
      rcases listed with rfl | rfl | rfl
      · decide
      · decide
      · decide
    rw [begun, List.cons_append, List.head?_cons] at same
    rw [Option.some.inj same, foreign c listed] at own
    cases own
  have noClose : ')' ∉ attr := attribute_absent described (by decide)
  unfold read
  rw [String.toList_ofList]
  by_cases closed' : ')' ∈ value
  · rw [if_pos closed']
    obtain ⟨before, after, rfl, absent⟩ := List.eq_append_cons_of_mem closed'
    have shape : attr ++ '=' :: (before ++ ')' :: after) ++ [')'] =
        (attr ++ '=' :: before) ++ ')' :: (after ++ [')']) := by simp
    rw [shape, parseFilter_closed]
    · cases parseItem (attr ++ '=' :: before) with
      | none => rfl
      | some filter =>
        cases after <;> rfl
    · rw [List.append_assoc]
      exact plain _
    · simp [noClose, absent]
  · have shape : attr ++ '=' :: value ++ [')'] = (attr ++ '=' :: value) ++ ')' :: [] := rfl
    rw [if_neg closed', shape, parseFilter_closed, parseItem_assertion described]
    · cases parseEquality (.ofList attr) value <;> rfl
    · rw [List.append_assoc]
      exact plain _
    · simp [noClose, closed']

theorem read_equality_iff {attr : String} (value : String)
    (described : isAttributeDescription attr.toList = true) :
    read ("(" ++ attr ++ "=" ++ value ++ ")") = some (.equality attr (utf8 value)) ↔
      ∀ c ∈ value.toList, plainChar c = true := by
  have text : "(" ++ attr ++ "=" ++ value ++ ")" =
      .ofList ('(' :: (attr.toList ++ '=' :: value.toList ++ [')'])) := by
    rw [← String.toList_inj]
    simp
  rw [text, read_assertion described, String.ofList_toList, utf8_chars]
  constructor
  · intro parsed
    by_cases closed' : ')' ∈ value.toList
    · rw [if_pos closed'] at parsed
      cases parsed
    · rw [if_neg closed'] at parsed
      exact parseEquality_itself parsed
  · intro plain
    rw [if_neg, parseEquality_of_plain attr plain]
    intro closed'
    have apart := plain ')' closed'
    cases apart

end Assertions

end SearchFilter
