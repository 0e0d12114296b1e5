import MimStack.Transport.Rest

/-!
How a read or a delete finds its object. The router hands over one decoded path
segment, the handler decodes it again, and the identifier is cut off the path that
is built from the result.
-/
namespace MimHttp
open RustText ByteText PercentText MimCore MimRuntime MimTransport

def percentDecodePathSegment (segment : String) : String :=
  match fromUtf8 (decode (utf8 segment)) with
  | .ok decoded => decoded
  | .error _ => segment

/-- The router's extractor decodes a segment once when that gives a text. -/
def DecodesOnce (extract : String → Option String) : Prop :=
  ∀ segment text, fromUtf8 (decode (utf8 segment)) = .ok text → extract segment = some text

def objectPath (encodedOid : String) : String :=
  "/mip4-ies/v1/objects/" ++ percentDecodePathSegment encodedOid

def getByOidRequest (extract : String → Option String) (segment : String) :
    Option (Except TransportError GetByOidRequest) :=
  (extract segment).map fun encodedOid => parseGetByOid (objectPath encodedOid)

def deleteObjectRequest (extract : String → Option String) (segment : String) :
    Option (Except TransportError DeleteObjectRequest) :=
  (extract segment).map fun encodedOid => parseDelete (objectPath encodedOid)

/-- An identifier that holds no escape which stands for text, no question mark, and
ends neither in a slash nor in a blank. -/
structure Addressable (text : String) : Prop where
  unescaped : escaped (utf8 text) = true → ∀ decoded, utf8 decoded ≠ decode (utf8 text)
  unqueried : '?' ∉ text.toList
  closed : ∀ c ∈ text.toList.getLast?, c ≠ '/' ∧ isWhitespace c = false

section Segment

theorem percentDecode_eq_self_iff (segment : String) :
    percentDecodePathSegment segment = segment ↔
      (escaped (utf8 segment) = true → ∀ decoded, utf8 decoded ≠ decode (utf8 segment)) := by
  unfold percentDecodePathSegment
  constructor
  · intro kept found decoded read
    rw [(fromUtf8_ok_iff _ _).mpr read] at kept
    have shorter := decode_length_lt found
    rw [← read, show decoded = segment from kept] at shorter
    exact Nat.lt_irrefl _ shorter
  · intro unread
    split
    · rename_i decoded read
      have same := utf8_of_fromUtf8 read
      have plain : escaped (utf8 segment) = false :=
        Bool.eq_false_iff.mpr fun found => unread found decoded same
      rw [decode_of_unescaped plain] at same
      exact utf8_injective same
    · rfl

theorem percentDecode_length_le (segment : String) :
    (utf8 (percentDecodePathSegment segment)).length ≤ (utf8 segment).length := by
  unfold percentDecodePathSegment
  split
  · rename_i decoded read
    rw [utf8_of_fromUtf8 read]
    exact decode_length_le _
  · exact Nat.le_refl _

theorem percentDecode_of_prefix {segment : String}
    (start : segment.toList <+: (percentDecodePathSegment segment).toList) :
    percentDecodePathSegment segment = segment := by
  obtain ⟨rest, whole⟩ := start
  have decoded : percentDecodePathSegment segment = segment ++ .ofList rest := by
    rw [← String.toList_inj, String.toList_append, String.toList_ofList, whole]
  have short := percentDecode_length_le segment
  rw [decoded, utf8_append, List.length_append] at short
  have none_left : utf8 (.ofList rest) = utf8 "" := by
    refine List.eq_nil_of_length_eq_zero ?_
    omega
  rw [decoded, utf8_injective none_left, String.append_empty]

theorem router_decodes {extract : String → Option String} (once : DecodesOnce extract)
    (oid : String) : extract (encodeOidForPath oid) = some oid := by
  refine once _ _ ?_
  rw [encodeOidForPath, decode_encode isPathToken_sound, fromUtf8_utf8]

end Segment

section Path

theorem objects_solid (text : String) :
    (objectsPath ++ "/" ++ text).toList.dropWhile isWhitespace =
      (objectsPath ++ "/" ++ text).toList := by
  have head : (objectsPath ++ "/").toList.head? = some '/' := by decide
  obtain ⟨rest, shape⟩ := List.head?_eq_some_iff.mp head
  rw [String.toList_append, shape, List.cons_append]
  exact List.dropWhile_cons_of_neg (by decide)

theorem normalize_objects_iff {text : String} (filled : isEmpty text = false) :
    normalizePath (objectsPath ++ "/" ++ text) = objectsPath ++ "/" ++ text ↔
      '?' ∉ text.toList ∧ ∀ c ∈ text.toList.getLast?, c ≠ '/' ∧ isWhitespace c = false := by
  have plain : '?' ∉ (objectsPath ++ "/").toList := by decide
  have some_left : text.toList ≠ [] := by
    intro none_left
    rw [isEmpty, none_left] at filled
    cases filled
  rw [normalizePath_eq_self_iff (objects_solid text), String.toList_append, List.mem_append,
    List.getLast?_append_of_ne_nil _ some_left]
  simp only [plain, false_or]

theorem oidFromPath_object_iff {text : String} (filled : isEmpty text = false) :
    oidFromPath (objectPath text) = .ok text ↔ Addressable text := by
  have literal : "/mip4-ies/v1/objects/" = objectsPath ++ "/" := by decide
  have built : objectPath text = objectsPath ++ "/" ++ percentDecodePathSegment text :=
    congrArg (· ++ percentDecodePathSegment text) literal
  rw [oidFromPath_ok_iff, built]
  constructor
  · rintro ⟨normalized, _⟩
    have start := normalizePath_prefix (objects_solid (percentDecodePathSegment text))
    rw [normalized, String.toList_append, String.toList_append (s := objectsPath ++ "/"),
      List.prefix_append_right_inj] at start
    have kept := percentDecode_of_prefix start
    rw [kept] at normalized
    obtain ⟨unqueried, closed⟩ := (normalize_objects_iff filled).mp normalized
    exact ⟨(percentDecode_eq_self_iff text).mp kept, unqueried, closed⟩
  · rintro ⟨unescaped, unqueried, closed⟩
    rw [(percentDecode_eq_self_iff text).mpr unescaped]
    exact ⟨(normalize_objects_iff filled).mpr ⟨unqueried, closed⟩, filled⟩

end Path

section Addressed

theorem identifier_filled {text : String} {oid : ObjectIdentifier}
    (accepted : ObjectIdentifier.new text = .ok oid) : isEmpty text = false := by
  unfold ObjectIdentifier.new at accepted
  refine Bool.eq_false_iff.mpr fun blank => ?_
  have nothing : text = "" := String.toList_eq_nil_iff.mp (List.isEmpty_iff.mp blank)
  subst nothing
  rw [if_pos (by decide)] at accepted
  cases accepted

/-- A read and a delete at the segment a client builds are for the very identifier it was
built from just when that identifier is addressable. -/
theorem addressed_exactly_iff {extract : String → Option String} (once : DecodesOnce extract)
    {value : String} {oid : ObjectIdentifier} (accepted : ObjectIdentifier.new value = .ok oid) :
    (getByOidRequest extract (encodeOidForPath value) = some (.ok ⟨oid⟩) ∧
      deleteObjectRequest extract (encodeOidForPath value) = some (.ok ⟨oid⟩)) ↔
        Addressable value := by
  obtain rfl := identifier_new_ok accepted
  have filled := identifier_filled accepted
  simp only [getByOidRequest, deleteObjectRequest, router_decodes once, Option.map_some,
    Option.some.injEq, parseGetByOid_ok_iff _ accepted, parseDelete_ok_iff _ accepted,
    oidFromPath_object_iff filled, and_self]

def decodingExtract (segment : String) : Option String :=
  (fromUtf8 (decode (utf8 segment))).toOption

theorem decodingExtract_once : DecodesOnce decodingExtract := by
  intro segment text read
  rw [decodingExtract, read]
  rfl

theorem addressed_exactly_urn :
    (getByOidRequest decodingExtract (encodeOidForPath "urn:uuid:7/x y") =
        some (.ok ⟨⟨"urn:uuid:7/x y"⟩⟩) ∧
      deleteObjectRequest decodingExtract (encodeOidForPath "urn:uuid:7/x y") =
        some (.ok ⟨⟨"urn:uuid:7/x y"⟩⟩)) ↔ Addressable "urn:uuid:7/x y" :=
  addressed_exactly_iff decodingExtract_once (by decide)

/-- The identifiers `A%42` and `a?b` are accepted, and requests for them are requests for
the objects `AB` and `a`. -/
theorem escape_addresses_other :
    DecodesOnce decodingExtract ∧
      ObjectIdentifier.new "A%42" = .ok ⟨"A%42"⟩ ∧ ObjectIdentifier.new "a?b" = .ok ⟨"a?b"⟩ ∧
      getByOidRequest decodingExtract (encodeOidForPath "A%42") = some (.ok ⟨⟨"AB"⟩⟩) ∧
      deleteObjectRequest decodingExtract (encodeOidForPath "A%42") = some (.ok ⟨⟨"AB"⟩⟩) ∧
      deleteObjectRequest decodingExtract (encodeOidForPath "a?b") = some (.ok ⟨⟨"a"⟩⟩) := by
  have decodedTwice : oidFromPath (objectPath "A%42") = .ok "AB" := by decide
  have cutShort : oidFromPath (objectPath "a?b") = .ok "a" := by decide
  simp only [getByOidRequest, deleteObjectRequest, router_decodes decodingExtract_once,
    Option.map_some, Option.some.injEq]
  exact ⟨decodingExtract_once, by decide, by decide,
    (parseGetByOid_ok_iff _ (by decide)).mpr decodedTwice,
    (parseDelete_ok_iff _ (by decide)).mpr decodedTwice,
    (parseDelete_ok_iff _ (by decide)).mpr cutShort⟩

end Addressed

end MimHttp
