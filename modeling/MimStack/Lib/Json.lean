import Mathlib.Data.List.Sort

/-!
JSON values as a serializer with key-sorted objects holds them, and their compact
text. A number is its canonical decimal text, since only its text is ever observed.
-/
namespace JsonText

inductive Value where
  | null
  | bool (b : Bool)
  | number (text : String)
  | string (s : String)
  | array (items : List Value)
  | object (fields : List (String × Value))

namespace Value

def asStr : Value → Option String
  | .string s => some s
  | _ => none

def asObject : Value → Option (List (String × Value))
  | .object fields => some fields
  | _ => none

def asArray : Value → Option (List Value)
  | .array items => some items
  | _ => none

/-- An object built by inserting the fields one by one; keys are assumed distinct. -/
def ofFields (fields : List (String × Value)) : Value :=
  .object (fields.insertionSort fun a b => a.1 ≤ b.1)

end Value

def field (key : String) : List (String × Value) → Option Value
  | [] => none
  | e :: rest => if e.1 = key then some e.2 else field key rest

theorem field_some_iff {fields : List (String × Value)} (distinct : (fields.map Prod.fst).Nodup)
    (key : String) (v : Value) : field key fields = some v ↔ (key, v) ∈ fields := by
  induction fields with
  | nil => simp [field]
  | cons e rest ih =>
    obtain ⟨fresh, distinct⟩ := List.nodup_cons.mp distinct
    by_cases here : e.1 = key
    · have absent : (key, v) ∉ rest := fun mem =>
        fresh (here ▸ List.mem_map.mpr ⟨(key, v), mem, rfl⟩)
      simp only [field, here, if_true, Option.some.injEq, List.mem_cons, absent, or_false]
      exact ⟨fun same => Prod.ext here.symm same.symm, fun same => congrArg Prod.snd same.symm⟩
    · have other : (key, v) ≠ e := fun same => here (congrArg Prod.fst same.symm)
      simp only [field, here, if_false, ih distinct, List.mem_cons, other, false_or]

theorem field_sorted {fields : List (String × Value)} (distinct : (fields.map Prod.fst).Nodup)
    (key : String) : field key (fields.insertionSort fun a b => a.1 ≤ b.1) = field key fields := by
  have perm := List.perm_insertionSort (fun a b : String × Value => a.1 ≤ b.1) fields
  have sorted : ((fields.insertionSort fun a b => a.1 ≤ b.1).map Prod.fst).Nodup :=
    (perm.map Prod.fst).nodup_iff.mpr distinct
  refine Option.ext fun v => ?_
  rw [field_some_iff sorted, field_some_iff distinct, perm.mem_iff]

def hexDigit (n : Nat) : Char := if n < 10 then Char.ofNat (48 + n) else Char.ofNat (87 + n)

def escapeChar (c : Char) : List Char :=
  if c == '"' then ['\\', '"']
  else if c == '\\' then ['\\', '\\']
  else if c.toNat == 8 then ['\\', 'b']
  else if c.toNat == 9 then ['\\', 't']
  else if c.toNat == 10 then ['\\', 'n']
  else if c.toNat == 12 then ['\\', 'f']
  else if c.toNat == 13 then ['\\', 'r']
  else if c.toNat < 32 then
    ['\\', 'u', '0', '0', hexDigit (c.toNat / 16), hexDigit (c.toNat % 16)]
  else [c]

def quoted (s : String) : List Char := '"' :: (s.toList.flatMap escapeChar ++ ['"'])

mutual

def compact : Value → List Char
  | .null => "null".toList
  | .bool true => "true".toList
  | .bool false => "false".toList
  | .number text => text.toList
  | .string s => quoted s
  | .array items => '[' :: (compactItems items ++ [']'])
  | .object fields => '\x7b' :: (compactFields fields ++ ['\x7d'])

def compactItems : List Value → List Char
  | [] => []
  | [v] => compact v
  | v :: rest => compact v ++ ',' :: compactItems rest

def compactFields : List (String × Value) → List Char
  | [] => []
  | [(k, v)] => quoted k ++ ':' :: compact v
  | (k, v) :: rest => quoted k ++ ':' :: (compact v ++ ',' :: compactFields rest)

end

def Value.toText (v : Value) : String := .ofList (compact v)

def newLine (depth : Nat) : List Char := '\n' :: List.replicate (2 * depth) ' '

mutual

def prettyAt (depth : Nat) : Value → List Char
  | .array items =>
    '[' :: prettyItems (depth + 1) true items ++
      (if items.isEmpty then [] else newLine depth) ++ [']']
  | .object fields =>
    '\x7b' :: prettyFields (depth + 1) true fields ++
      (if fields.isEmpty then [] else newLine depth) ++ ['\x7d']
  | other => compact other

def prettyItems (depth : Nat) (first : Bool) : List Value → List Char
  | [] => []
  | v :: rest =>
    (if first then [] else [',']) ++ newLine depth ++ prettyAt depth v ++
      prettyItems depth false rest

def prettyFields (depth : Nat) (first : Bool) : List (String × Value) → List Char
  | [] => []
  | (k, v) :: rest =>
    (if first then [] else [',']) ++ newLine depth ++ quoted k ++ ':' :: ' ' :: prettyAt depth v ++
      prettyFields depth false rest

end

def Value.toPrettyText (v : Value) : String := .ofList (prettyAt 0 v)

theorem pretty_first_member (k : String) (v : Value) (rest : List (String × Value)) :
    ∃ later, (Value.object ((k, v) :: rest)).toPrettyText.toList =
      '\x7b' :: (newLine 1 ++ quoted k ++ ':' :: ' ' :: (prettyAt 1 v ++ later)) := by
  refine ⟨prettyFields 1 false rest ++ newLine 0 ++ ['\x7d'], ?_⟩
  rw [Value.toPrettyText, String.toList_ofList, prettyAt, prettyFields]
  simp

theorem prettyFields_last (depth : Nat) (k : String) (fields : List (String × Value)) (first : Bool) :
    ∃ front, ∀ v, prettyFields depth first (fields ++ [(k, v)]) = front ++ prettyAt depth v := by
  induction fields generalizing first with
  | nil =>
    refine ⟨(if first then [] else [',']) ++ newLine depth ++ quoted k ++ [':', ' '], fun v => ?_⟩
    simp [prettyFields]
  | cons field rest ih =>
    obtain ⟨front, texts⟩ := ih false
    refine ⟨(if first then [] else [',']) ++ newLine depth ++ quoted field.1 ++
      ':' :: ' ' :: prettyAt depth field.2 ++ front, fun v => ?_⟩
    rw [List.cons_append, prettyFields, texts]
    simp

theorem pretty_last_member (k : String) (fields : List (String × Value)) :
    ∃ front back, ∀ v, (Value.object (fields ++ [(k, v)])).toPrettyText =
      front ++ .ofList (prettyAt 1 v) ++ back := by
  obtain ⟨front, texts⟩ := prettyFields_last 1 k fields true
  refine ⟨.ofList ('\x7b' :: front), .ofList (newLine 0 ++ ['\x7d']), fun v => ?_⟩
  apply String.toList_injective
  simp [Value.toPrettyText, prettyAt, texts]

mutual

def Value.NumberFree : Value → Prop
  | .number _ => False
  | .array items => ItemsNumberFree items
  | .object fields => FieldsNumberFree fields
  | _ => True

def ItemsNumberFree : List Value → Prop
  | [] => True
  | v :: rest => v.NumberFree ∧ ItemsNumberFree rest

def FieldsNumberFree : List (String × Value) → Prop
  | [] => True
  | (_, v) :: rest => v.NumberFree ∧ FieldsNumberFree rest

end

theorem itemsNumberFree_iff (items : List Value) :
    ItemsNumberFree items ↔ ∀ v ∈ items, v.NumberFree := by
  induction items with
  | nil => simp [ItemsNumberFree]
  | cons v rest ih => simp [ItemsNumberFree, ih]

theorem escapeChar_unbroken (c : Char) : '\n' ∉ escapeChar c := by
  have hex : ∀ n < 16, hexDigit n ≠ '\n' := by decide
  have high := hex (c.toNat / 16)
  have low := hex (c.toNat % 16) (Nat.mod_lt _ (by omega))
  unfold escapeChar
  split_ifs with quote slash back tab feed form ret control
  all_goals first
    | decide
    | skip
  · have bounded := high (by omega)
    simp [Ne.symm bounded, Ne.symm low]
  · intro member
    obtain rfl := List.mem_singleton.mp member
    exact feed rfl

theorem quoted_unbroken (s : String) : '\n' ∉ quoted s := by
  simp only [quoted, List.mem_cons, List.mem_append, List.mem_flatMap, not_or, not_exists, not_and]
  exact ⟨by decide, fun c _ => escapeChar_unbroken c, by decide⟩

mutual

theorem compact_unbroken : ∀ v : Value, v.NumberFree → '\n' ∉ compact v
  | .null, _ => by decide
  | .bool true, _ => by decide
  | .bool false, _ => by decide
  | .string s, _ => quoted_unbroken s
  | .array items, free => by
    have inner := compactItems_unbroken items free
    simp [compact, inner]
  | .object fields, free => by
    have inner := compactFields_unbroken fields free
    simp [compact, inner]

theorem compactItems_unbroken : ∀ items, ItemsNumberFree items → '\n' ∉ compactItems items
  | [], _ => by simp [compactItems]
  | [v], free => compact_unbroken v free.1
  | v :: w :: rest, free => by
    have first := compact_unbroken v free.1
    have later := compactItems_unbroken (w :: rest) free.2
    simp [compactItems, first, later]

theorem compactFields_unbroken : ∀ fields, FieldsNumberFree fields → '\n' ∉ compactFields fields
  | [], _ => by simp [compactFields]
  | [(k, v)], free => by
    have first := compact_unbroken v free.1
    simp [compactFields, quoted_unbroken k, first]
  | (k, v) :: w :: rest, free => by
    have first := compact_unbroken v free.1
    have later := compactFields_unbroken (w :: rest) free.2
    simp [compactFields, quoted_unbroken k, first, later]

end

section Ends

def NumberText (text : String) : Prop :=
  text ≠ "" ∧ ∀ c ∈ text.toList, c.isDigit = true ∨ c ∈ ['+', '-', '.', 'e', 'E']

def Value.Printed : Value → Prop
  | .number text => NumberText text
  | _ => True

def Graphic (c : Char) : Prop := 33 ≤ c.toNat ∧ c.toNat ≤ 126

instance (c : Char) : Decidable (Graphic c) := instDecidableAnd

theorem graphic_number {c : Char} (used : c.isDigit = true ∨ c ∈ ['+', '-', '.', 'e', 'E']) :
    Graphic c := by
  rcases used with digit | sign
  · simp only [Char.isDigit, Bool.and_eq_true, decide_eq_true_eq, ge_iff_le,
      UInt32.le_iff_toNat_le] at digit
    have low : 48 ≤ c.toNat := digit.1
    have high : c.toNat ≤ 57 := digit.2
    exact ⟨by omega, by omega⟩
  · simp only [List.mem_cons, List.not_mem_nil, or_false] at sign
    rcases sign with rfl | rfl | rfl | rfl | rfl <;> decide

theorem fenced_ends {first last : Char} (opening : Graphic first) (closing : Graphic last)
    (inner : List Char) : first :: (inner ++ [last]) ≠ [] ∧
      (∀ c ∈ (first :: (inner ++ [last])).head?, Graphic c) ∧
      ∀ c ∈ (first :: (inner ++ [last])).getLast?, Graphic c := by
  refine ⟨List.cons_ne_nil _ _, ?_, ?_⟩
  · intro c same
    obtain rfl := Option.some.inj same
    exact opening
  · intro c same
    rw [← List.cons_append, List.getLast?_concat] at same
    obtain rfl := Option.some.inj same
    exact closing

theorem compact_ends {v : Value} (printed : v.Printed) : compact v ≠ [] ∧
    (∀ c ∈ (compact v).head?, Graphic c) ∧ ∀ c ∈ (compact v).getLast?, Graphic c := by
  cases v with
  | null =>
    have text : compact .null = 'n' :: (['u', 'l'] ++ ['l']) := by decide
    rw [text]
    exact fenced_ends (by decide) (by decide) _
  | bool b =>
    cases b with
    | false =>
      have text : compact (.bool false) = 'f' :: (['a', 'l', 's'] ++ ['e']) := by decide
      rw [text]
      exact fenced_ends (by decide) (by decide) _
    | true =>
      have text : compact (.bool true) = 't' :: (['r', 'u'] ++ ['e']) := by decide
      rw [text]
      exact fenced_ends (by decide) (by decide) _
  | number text =>
    obtain ⟨filled, used⟩ := printed
    refine ⟨fun empty => filled (String.toList_inj.mp empty), ?_, ?_⟩
    · intro c first
      exact graphic_number (used c (List.mem_of_mem_head? first))
    · intro c last
      exact graphic_number (used c (List.mem_of_mem_getLast? last))
  | string s => exact fenced_ends (by decide) (by decide) _
  | array items => exact fenced_ends (by decide) (by decide) _
  | object fields => exact fenced_ends (by decide) (by decide) _

end Ends

example : (Value.array [.null, .string "a\"b", .bool true]).toText = "[null,\"a\\\"b\",true]" := by
  decide

example : (Value.object [("a", .array [.null]), ("b", .array [])]).toPrettyText =
    "\x7b\n  \"a\": [\n    null\n  ],\n  \"b\": []\n\x7d" := by
  decide

end JsonText
