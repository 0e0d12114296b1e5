import MimStack.Lib.Percent
import MimStack.Transport.Envelope

/-!
Addresses of objects in the REST binding. A client escapes the identifier into one
path segment; the server normalizes the path it is given and cuts the identifier off.
-/
namespace MimTransport
open RustText ByteText PercentText Fallible MimCore MimRuntime

def objectsPath : String := "/mip4-ies/v1/objects"

/-- The bytes a path token keeps: letters, digits and `-_.~`. -/
def isPathToken (b : UInt8) : Bool :=
  (65 ≤ b && b ≤ 90) || (97 ≤ b && b ≤ 122) || (48 ≤ b && b ≤ 57) ||
    b == 45 || b == 95 || b == 46 || b == 126

def encodeOidForPath (oid : String) : String := encode isPathToken (utf8 oid)

theorem isPathToken_sound : Sound isPathToken := by
  intro b token
  simp only [isPathToken, Bool.or_eq_true, Bool.and_eq_true, decide_eq_true_eq,
    UInt8.le_iff_toNat_le, beq_iff_eq, ← UInt8.toNat_inj, ne_eq] at token ⊢
  simp only [UInt8.reduceToNat] at token ⊢
  omega

def normalizePath (path : String) : String :=
  let trimmed := trim path
  if isEmpty trimmed then ""
  else trimEndMatches (· == '/') ((split (· == '?') trimmed).headD trimmed)

def oidFromPath (path : String) : Except TransportError String :=
  match (stripPrefix (objectsPath ++ "/") (normalizePath path)).filter fun oid => !isEmpty oid with
  | some oid => .ok oid
  | none => .error (.invalidRequest
      ("expected path " ++ objectsPath ++ "/\x7boid\x7d, got " ++ path))

def parseGetByOid (path : String) : Except TransportError GetByOidRequest := do
  let oid ← (ObjectIdentifier.new (← oidFromPath path)).mapError .ofMim
  pure ⟨oid⟩

def parseDelete (path : String) : Except TransportError DeleteObjectRequest := do
  let oid ← (ObjectIdentifier.new (← oidFromPath path)).mapError .ofMim
  pure ⟨oid⟩

section Normalize

theorem normalizePath_toList (path : String) :
    (normalizePath path).toList =
      (((path.toList.dropWhile isWhitespace).rdropWhile isWhitespace).takeWhile
        (· != '?')).rdropWhile (· == '/') := by
  have trimmed : (trim path).toList =
      (path.toList.dropWhile isWhitespace).rdropWhile isWhitespace := by
    simp only [trim, trimMatches, trimEndMatches, trimStartMatches, String.toList_ofList]
  unfold normalizePath
  simp only [split_head, trimEndMatches, isEmpty]
  rw [← trimmed]
  split
  · rename_i blank
    rw [List.isEmpty_iff.mp blank]
    rfl
  · simp only [String.toList_ofList, bne]

theorem normalizePath_prefix {path : String}
    (solid : path.toList.dropWhile isWhitespace = path.toList) :
    (normalizePath path).toList <+: path.toList := by
  rw [normalizePath_toList, solid]
  exact (List.rdropWhile_prefix _ _).trans
    ((List.takeWhile_prefix _).trans (List.rdropWhile_prefix _ _))

theorem normalizePath_eq_self_iff {path : String}
    (solid : path.toList.dropWhile isWhitespace = path.toList) :
    normalizePath path = path ↔ '?' ∉ path.toList ∧
      ∀ c ∈ path.toList.getLast?, c ≠ '/' ∧ isWhitespace c = false := by
  rw [← String.toList_inj, normalizePath_toList, solid]
  constructor
  · intro same
    have unclosed : path.toList <+: (path.toList.rdropWhile isWhitespace).takeWhile (· != '?') := by
      conv_lhs => rw [← same]
      exact List.rdropWhile_prefix _ _
    have unblanked : path.toList.rdropWhile isWhitespace = path.toList :=
      (List.rdropWhile_prefix _ _).eq_of_length_le
        (unclosed.trans (List.takeWhile_prefix _)).length_le
    rw [unblanked] at unclosed same
    have unasked : path.toList.takeWhile (· != '?') = path.toList :=
      (List.takeWhile_prefix _).eq_of_length_le unclosed.length_le
    rw [unasked] at same
    have kept := List.takeWhile_eq_self_iff.mp unasked
    refine ⟨fun asked => ?_, fun c mem => ⟨?_, (rdropWhile_whole_iff _ _).mp unblanked c mem⟩⟩
    · simpa using kept '?' asked
    · simpa using (rdropWhile_whole_iff _ _).mp same c mem
  · rintro ⟨unasked, ends⟩
    rw [(rdropWhile_whole_iff _ _).mpr fun c mem => (ends c mem).2,
      List.takeWhile_eq_self_iff.mpr, (rdropWhile_whole_iff _ _).mpr]
    · intro c mem
      simpa using (ends c mem).1
    · intro c mem
      simpa using fun same : c = '?' => unasked (same ▸ mem)

end Normalize

section Parse

theorem oidFromPath_ok_iff (path oid : String) :
    oidFromPath path = .ok oid ↔
      normalizePath path = objectsPath ++ "/" ++ oid ∧ isEmpty oid = false := by
  have cut : (stripPrefix (objectsPath ++ "/") (normalizePath path)).filter
      (fun oid => !isEmpty oid) = some oid ↔
        normalizePath path = objectsPath ++ "/" ++ oid ∧ isEmpty oid = false := by
    generalize objectsPath ++ "/" = start
    simp only [Option.filter_eq_some_iff, stripPrefix_some_iff, Bool.not_eq_true']
  refine Iff.trans ?_ cut
  unfold oidFromPath
  generalize (stripPrefix (objectsPath ++ "/") (normalizePath path)).filter
    (fun oid => !isEmpty oid) = found
  cases found with
  | none =>
    constructor
    · intro failed
      cases failed
    · intro failed
      cases failed
  | some text => rw [Except.ok.injEq, Option.some.injEq]

theorem identifier_new_ok {text : String} {oid : ObjectIdentifier}
    (accepted : ObjectIdentifier.new text = .ok oid) : oid.text = text := by
  unfold ObjectIdentifier.new at accepted
  split at accepted
  · cases accepted
  · cases accepted
    rfl

theorem readIdentifier_ok_iff (path : String) {oid : ObjectIdentifier}
    (accepted : ObjectIdentifier.new oid.text = .ok oid) :
    (oidFromPath path >>= fun text => (ObjectIdentifier.new text).mapError TransportError.ofMim) =
      .ok oid ↔ oidFromPath path = .ok oid.text := by
  constructor
  · intro parsed
    obtain ⟨text, cut, made⟩ := bind_ok.mp parsed
    rw [cut, identifier_new_ok ((mapError_ok _ _ _).mp made)]
  · intro cut
    exact bind_ok.mpr ⟨_, cut, (mapError_ok _ _ _).mpr accepted⟩

theorem parseGetByOid_ok_iff (path : String) {oid : ObjectIdentifier}
    (accepted : ObjectIdentifier.new oid.text = .ok oid) :
    parseGetByOid path = .ok ⟨oid⟩ ↔ oidFromPath path = .ok oid.text := by
  rw [← readIdentifier_ok_iff path accepted]
  simp only [parseGetByOid, bind_ok, pure_ok, GetByOidRequest.mk.injEq, exists_eq_right]

theorem parseDelete_ok_iff (path : String) {oid : ObjectIdentifier}
    (accepted : ObjectIdentifier.new oid.text = .ok oid) :
    parseDelete path = .ok ⟨oid⟩ ↔ oidFromPath path = .ok oid.text := by
  rw [← readIdentifier_ok_iff path accepted]
  simp only [parseDelete, bind_ok, pure_ok, DeleteObjectRequest.mk.injEq, exists_eq_right]

end Parse

end MimTransport
