import MimStack.Lib.Text

/-!
The core vocabulary: semantic identifiers, nil reasons, nillable values and the
unified error type. A `DateTime` is only ever rendered and re-parsed, never
compared or computed with, so it is represented by its RFC 3339 rendering.
-/
namespace MimCore
open RustText

inductive MimError where
  | invalidSemanticId (message : String)
  | invalidUri (message : String)
  | invalidRepresentationTerm (message : String)
  | invalidNilReason (message : String)
  | parse (message : String)
  | validation (message : String)
  | model (message : String)
  | serialization (message : String)
  | compliance (message : String)
  | notFound (message : String)
  | io (message : String)
  deriving DecidableEq

def MimError.toString : MimError → String
  | .invalidSemanticId m => "invalid semantic id: " ++ m
  | .invalidUri m => "invalid MIM URI: " ++ m
  | .invalidRepresentationTerm m => "invalid representation term: " ++ m
  | .invalidNilReason m => "invalid nil reason: " ++ m
  | .parse m => "parse error: " ++ m
  | .validation m => "validation error: " ++ m
  | .model m => "model error: " ++ m
  | .serialization m => "serialization error: " ++ m
  | .compliance m => "compliance error: " ++ m
  | .notFound m => "not found: " ++ m
  | .io m => "io error: " ++ m

structure SemanticId where
  uuid : BitVec 128
  deriving DecidableEq

def hexDigits (uuid : BitVec 128) (start count : Nat) : List Char :=
  (List.range' start count).map fun i =>
    let digit := (uuid.toNat >>> (4 * (31 - i))) % 16
    if digit < 10 then Char.ofNat (48 + digit) else Char.ofNat (87 + digit)

/-- The lowercase hyphenated form. -/
def SemanticId.asStr (id : SemanticId) : String :=
  .ofList (hexDigits id.uuid 0 8 ++ '-' :: hexDigits id.uuid 8 4 ++ '-' :: hexDigits id.uuid 12 4 ++
    '-' :: hexDigits id.uuid 16 4 ++ '-' :: hexDigits id.uuid 20 12)

theorem semanticId_asStr_nonempty (id : SemanticId) : isEmpty id.asStr = false := by
  have first : ∃ c rest, hexDigits id.uuid 0 8 = c :: rest := ⟨_, _, rfl⟩
  obtain ⟨c, rest, shape⟩ := first
  simp [isEmpty, SemanticId.asStr, shape]

theorem hexDigits_visible (uuid : BitVec 128) (start count : Nat) :
    ∀ c ∈ hexDigits uuid start count, isWhitespace c = false := by
  have digits : ∀ digit < 16, isWhitespace
      (if digit < 10 then Char.ofNat (48 + digit) else Char.ofNat (87 + digit)) = false := by
    decide
  intro c mem
  obtain ⟨i, _, rfl⟩ := List.mem_map.mp mem
  exact digits _ (Nat.mod_lt _ (by omega))

theorem semanticId_asStr_trimmed (id : SemanticId) : trim id.asStr = id.asStr := by
  have visible : ∀ c ∈ id.asStr.toList, isWhitespace c = false := by
    have hyphen : isWhitespace '-' = false := by decide
    intro c mem
    simp only [SemanticId.asStr, String.toList_ofList, List.mem_append, List.mem_cons, or_assoc] at mem
    rcases mem with own | rfl | own | rfl | own | rfl | own | rfl | own
    all_goals first
      | exact hexDigits_visible _ _ _ c own
      | exact hyphen
  rw [trim_whole_iff]
  exact ⟨fun c first => visible c (List.mem_of_mem_head? first),
    fun c last => visible c (List.mem_of_mem_getLast? last)⟩

structure DateTime where
  toRfc3339 : String
  deriving DecidableEq

/-- The serializer's form, with `Z` for the UTC offset. -/
def DateTime.serialized (t : DateTime) : String :=
  match stripSuffix "+00:00" t.toRfc3339 with
  | some stem => stem ++ "Z"
  | none => t.toRfc3339

inductive NilReason where
  | inapplicable
  | missing
  | unknown
  | withheld
  | unknownSender
  | pending
  deriving DecidableEq

def NilReason.asStr : NilReason → String
  | .inapplicable => "inapplicable"
  | .missing => "missing"
  | .unknown => "unknown"
  | .withheld => "withheld"
  | .unknownSender => "unknownSender"
  | .pending => "pending"

def NilReason.fromStr (s : String) : Except MimError NilReason :=
  if s = "inapplicable" then .ok .inapplicable
  else if s = "missing" then .ok .missing
  else if s = "unknown" then .ok .unknown
  else if s = "withheld" then .ok .withheld
  else if s = "unknownSender" ∨ s = "unknown_sender" then .ok .unknownSender
  else if s = "pending" then .ok .pending
  else .error (.invalidNilReason s)

theorem NilReason.fromStr_asStr (r : NilReason) : NilReason.fromStr r.asStr = .ok r := by
  cases r <;> decide

inductive Nillable (T : Type) where
  | value (value : T)
  | nil (reason : NilReason)
  | absent
  deriving DecidableEq

def Nillable.asOption {T : Type} : Nillable T → Option T
  | .value v => some v
  | .nil _ => none
  | .absent => none

def Nillable.isAbsent {T : Type} : Nillable T → Bool
  | .absent => true
  | _ => false

def u64Max : Nat := 18446744073709551615

/-- Unsigned 64-bit addition that stays at the maximum. -/
def saturatingAdd (a b : Nat) : Nat := min (a + b) u64Max

inductive RepresentationTerm where
  | identifier | name | text | indicator | speed | dimension | duration | quantity | amount
  | percent | measure | date | time | dateTime | graphic | sound | video | value | code | ratio
  | numeric
  deriving DecidableEq

section Uri

def mimBaseUrl : String := "https://www.mimworld.org/mim"

structure MimQualifiedName where
  version : String
  path : String

def MimQualifiedName.normalizePath (path : String) : String :=
  join "/" ((split (· == '/') path).filter fun segment => !isEmpty segment)

/-- Both the version and the path after it have to be there. -/
def MimQualifiedName.parse (value : String) : Except MimError MimQualifiedName :=
  let trimmed := trim value
  match stripPrefix (mimBaseUrl ++ "/") trimmed with
  | none => .error (.invalidUri trimmed)
  | some withoutBase =>
    match splitAtChar '/' withoutBase with
    | none => .error (.invalidUri trimmed)
    | some (version, rest) =>
      let path : String := .ofList (rest.toList.drop 1)
      if isEmpty version || isEmpty path then .error (.invalidUri trimmed)
      else .ok ⟨version, normalizePath path⟩

structure MimUri where
  inner : String
  deriving DecidableEq

def MimUri.parse (value : String) : Except MimError MimUri :=
  let trimmed := trim value
  if !startsWith mimBaseUrl trimmed then .error (.invalidUri trimmed)
  else
    match MimQualifiedName.parse trimmed with
    | .error e => .error e
    | .ok _ => .ok ⟨trimmed⟩

def UsableVersion (version : String) : Prop := ∃ c rest, version.toList = c :: rest ∧ c ≠ '/'

theorem usable_iff_segment (version rest : List Char) :
    ((version ++ '/' :: rest).takeWhile (· != '/')).isEmpty = false ↔
      ∃ c more, version = c :: more ∧ c ≠ '/' := by
  cases version with
  | nil => simp
  | cons c more =>
    rw [List.cons_append, List.takeWhile_cons]
    by_cases slash : c = '/'
    · simp [slash]
    · simp [slash]

theorem takeWhile_before (version rest : List Char) :
    ((version ++ '/' :: rest).takeWhile (· != '/')).length ≤ version.length := by
  induction version with
  | nil => simp
  | cons c more ih =>
    rw [List.cons_append, List.takeWhile_cons]
    split
    · exact Nat.succ_le_succ ih
    · exact Nat.zero_le _

theorem dropWhile_after {c : Char} (version rest : List Char) :
    (((version ++ '/' :: c :: rest).dropWhile (· != '/')).drop 1).isEmpty = false := by
  have whole := congrArg List.length
    (List.takeWhile_append_dropWhile (p := (· != '/')) (l := version ++ '/' :: c :: rest))
  have short := takeWhile_before version (c :: rest)
  rw [List.isEmpty_eq_false_iff, ← List.length_pos_iff, List.length_drop]
  simp only [List.length_append, List.length_cons] at whole
  omega

theorem trim_url (version : String) {c : Char} (rest : List Char)
    (visible : isWhitespace c = false) :
    trim (mimBaseUrl ++ "/" ++ (version ++ "/" ++ .ofList (c :: rest))) =
      mimBaseUrl ++ "/" ++ (version ++ "/" ++ .ofList (c :: rest.rdropWhile isWhitespace)) := by
  have head : (mimBaseUrl ++ "/").toList.head? = some 'h' := by decide
  obtain ⟨start, base⟩ := List.head?_eq_some_iff.mp head
  have shape : ∀ tail : List Char,
      mimBaseUrl ++ "/" ++ (version ++ "/" ++ .ofList (c :: tail)) =
        .ofList ('h' :: (start ++ (version ++ "/").toList) ++ c :: tail) := by
    intro tail
    rw [← String.toList_inj, String.toList_append, base, String.toList_append,
      String.toList_ofList, String.toList_ofList, List.cons_append, List.cons_append,
      List.append_assoc]
  rw [shape, trim_visible _ _ (by decide) visible, ← shape]

theorem qualifiedName_parse_ok_iff (version : String) {c : Char} (rest : List Char)
    (visible : isWhitespace c = false) :
    (∃ name, MimQualifiedName.parse
      (mimBaseUrl ++ "/" ++ (version ++ "/" ++ .ofList (c :: rest))) = .ok name) ↔
        UsableVersion version := by
  have base := (stripPrefix_some_iff (mimBaseUrl ++ "/") _ _).mpr (trim_url version rest visible)
  unfold MimQualifiedName.parse
  dsimp only
  rw [base]
  dsimp only
  have chars : (version ++ "/" ++ String.ofList (c :: rest.rdropWhile isWhitespace)).toList =
      version.toList ++ '/' :: c :: rest.rdropWhile isWhitespace := by
    have separator : "/".toList = ['/'] := by decide
    simp only [String.toList_append, String.toList_ofList, List.append_assoc, separator,
      List.singleton_append]
  have slash : '/' ∈ (version ++ "/" ++ String.ofList (c :: rest.rdropWhile isWhitespace)).toList := by
    rw [chars]
    exact List.mem_append_right _ List.mem_cons_self
  rw [splitAtChar, if_pos slash]
  dsimp only
  rw [chars, UsableVersion, ← usable_iff_segment version.toList
    (c :: rest.rdropWhile isWhitespace)]
  have path := dropWhile_after (c := c) version.toList (rest.rdropWhile isWhitespace)
  simp only [isEmpty, String.toList_ofList, path, Bool.or_false]
  split
  · rename_i unusable
    rw [unusable]
    constructor
    · rintro ⟨name, failed⟩
      cases failed
    · intro usable
      cases usable
  · rename_i usable
    exact ⟨fun _ => Bool.eq_false_iff.mpr usable, fun _ => ⟨_, rfl⟩⟩

theorem uri_parse_ok_iff (version : String) {c : Char} (rest : List Char)
    (visible : isWhitespace c = false) :
    (∃ uri, MimUri.parse (mimBaseUrl ++ "/" ++ (version ++ "/" ++ .ofList (c :: rest))) = .ok uri) ↔
      UsableVersion version := by
  have based : startsWith mimBaseUrl (trim (mimBaseUrl ++ "/" ++
      (version ++ "/" ++ String.ofList (c :: rest)))) = true := by
    rw [trim_url version rest visible, startsWith, List.isPrefixOf_iff_prefix,
      String.toList_append, String.toList_append, List.append_assoc]
    exact List.prefix_append _ _
  rw [← qualifiedName_parse_ok_iff version (rest.rdropWhile isWhitespace) visible]
  unfold MimUri.parse
  dsimp only
  rw [based, trim_url version rest visible, if_neg (by decide)]
  cases MimQualifiedName.parse (mimBaseUrl ++ "/" ++
      (version ++ "/" ++ String.ofList (c :: rest.rdropWhile isWhitespace))) with
  | error e =>
    constructor
    · rintro ⟨uri, failed⟩
      cases failed
    · rintro ⟨name, failed⟩
      cases failed
  | ok name => exact ⟨fun _ => ⟨name, rfl⟩, fun _ => ⟨_, rfl⟩⟩

end Uri

example : (SemanticId.mk 0x080de7fafc13420183640aa47e5c10bc).asStr =
    "080de7fa-fc13-4201-8364-0aa47e5c10bc" := by decide

end MimCore
