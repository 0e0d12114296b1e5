import Mathlib.Init

/-!
Byte sequences and the UTF-8 text in them. A sequence that is not UTF-8 is
described by how long its well-formed part is and what follows it.
-/
namespace ByteText

abbrev Bytes := List UInt8

def utf8 (s : String) : Bytes := s.toByteArray.data.toList

theorem utf8_injective {s t : String} (same : utf8 s = utf8 t) : s = t := by
  refine String.toByteArray_inj.mp (ByteArray.ext ?_)
  exact Array.toList_inj.mp same

theorem utf8_append (s t : String) : utf8 (s ++ t) = utf8 s ++ utf8 t := by
  simp only [utf8, String.toByteArray_append, ByteArray.data_append, Array.toList_append]

theorem utf8_chars (s : String) : utf8 s = s.toList.flatMap String.utf8EncodeChar := by
  have whole : s = .ofList s.toList := String.ofList_toList.symm
  rw [whole, utf8, String.toByteArray_ofList, String.toList_ofList, List.utf8Encode]
  exact List.toList_data_toByteArray

theorem utf8EncodeChar_low {c : Char} {b : UInt8} (mem : b ∈ String.utf8EncodeChar c)
    (low : b.toNat < 128) : String.utf8EncodeChar c = [b] ∧ c.toNat = b.toNat := by
  have high : ∀ n m, 128 ≤ m → m + n < 256 → b ≠ UInt8.ofNat (n + m) := by
    intro n m large small same
    rw [same, UInt8.toNat_ofNat_of_lt' (by rw [UInt8.size]; omega)] at low
    omega
  unfold String.utf8EncodeChar at mem ⊢
  dsimp only at mem ⊢
  split at mem
  · rename_i single
    obtain rfl := List.mem_singleton.mp mem
    have own : c.val.toNat = c.toNat := rfl
    rw [if_pos single, UInt8.toNat_ofNat_of_lt' (by rw [UInt8.size]; omega)]
    exact ⟨rfl, own.symm⟩
  · split at mem
    · simp only [List.mem_cons, List.not_mem_nil, or_false] at mem
      rcases mem with same | same <;> exact absurd same (high _ _ (by omega) (by omega))
    · split at mem
      · simp only [List.mem_cons, List.not_mem_nil, or_false] at mem
        rcases mem with same | same | same <;> exact absurd same (high _ _ (by omega) (by omega))
      · simp only [List.mem_cons, List.not_mem_nil, or_false] at mem
        rcases mem with same | same | same | same <;>
          exact absurd same (high _ _ (by omega) (by omega))

theorem mem_utf8_low {s : String} {b : UInt8} (mem : b ∈ utf8 s) (low : b.toNat < 128) :
    ∃ c ∈ s.toList, c.toNat = b.toNat := by
  rw [utf8_chars] at mem
  obtain ⟨c, listed, inside⟩ := List.mem_flatMap.mp mem
  exact ⟨c, listed, (utf8EncodeChar_low inside low).2⟩

theorem utf8_begins {s : String} {b : UInt8} {rest : Bytes} (begins : utf8 s = b :: rest)
    (low : b.toNat < 128) : ∃ c chars, s.toList = c :: chars ∧ c.toNat = b.toNat := by
  rw [utf8_chars] at begins
  cases chars : s.toList with
  | nil =>
    rw [chars] at begins
    cases begins
  | cons c later =>
    rw [chars, List.flatMap_cons] at begins
    have own : b ∈ String.utf8EncodeChar c := by
      cases encoded : String.utf8EncodeChar c with
      | nil =>
        have size := String.length_utf8EncodeChar c
        rw [encoded] at size
        exact absurd size.symm (Nat.ne_of_gt c.utf8Size_pos)
      | cons first others =>
        rw [encoded] at begins
        exact (List.cons.inj begins).1 ▸ List.mem_cons_self
    exact ⟨c, later, rfl, (utf8EncodeChar_low own low).2⟩

def continuation (b : UInt8) : Option (List (UInt8 × UInt8)) :=
  let any : UInt8 × UInt8 := (0x80, 0xBF)
  if b < 0x80 then some []
  else if 0xC2 ≤ b && b ≤ 0xDF then some [any]
  else if b == 0xE0 then some [(0xA0, 0xBF), any]
  else if b == 0xED then some [(0x80, 0x9F), any]
  else if 0xE1 ≤ b && b ≤ 0xEF then some [any, any]
  else if b == 0xF0 then some [(0x90, 0xBF), any, any]
  else if 0xF1 ≤ b && b ≤ 0xF3 then some [any, any, any]
  else if b == 0xF4 then some [(0x80, 0x8F), any, any]
  else none

/-- How many bytes match their bounds, and whether the bytes ran out first. -/
def matched : List (UInt8 × UInt8) → Bytes → Nat × Bool
  | [], _ => (0, false)
  | _ :: _, [] => (0, true)
  | bound :: bounds, b :: rest =>
    if bound.1 ≤ b && b ≤ bound.2 then
      let later := matched bounds rest
      (later.1 + 1, later.2)
    else (0, false)

structure Utf8Error where
  validUpTo : Nat
  errorLen : Option Nat

def utf8Error : Nat → Nat → Bytes → Option Utf8Error
  | 0, _, _ => none
  | _, _, [] => none
  | fuel + 1, position, b :: rest =>
    match continuation b with
    | none => some ⟨position, some 1⟩
    | some bounds =>
      let (count, ended) := matched bounds rest
      if count == bounds.length then utf8Error fuel (position + count + 1) (rest.drop count)
      else some ⟨position, if ended then none else some (count + 1)⟩

def Utf8Error.toString (e : Utf8Error) : String :=
  match e.errorLen with
  | some n => "invalid utf-8 sequence of " ++ Nat.repr n ++ " bytes from index " ++
      Nat.repr e.validUpTo
  | none => "incomplete utf-8 byte sequence from index " ++ Nat.repr e.validUpTo

/-- `String::from_utf8`, with the text of its error. -/
def fromUtf8 (bytes : Bytes) : Except String String :=
  match String.fromUTF8? ⟨bytes.toArray⟩ with
  | some s => .ok s
  | none => .error (((utf8Error bytes.length 0 bytes).map Utf8Error.toString).getD "")

theorem fromUtf8_utf8 (s : String) : fromUtf8 (utf8 s) = .ok s := by
  have whole : (⟨(utf8 s).toArray⟩ : ByteArray) = s.toByteArray :=
    ByteArray.ext Array.toArray_toList
  have decoded : String.fromUTF8? s.toByteArray = some s := dif_pos s.isValidUTF8
  rw [fromUtf8, whole, decoded]

theorem utf8_of_fromUtf8 {bytes : Bytes} {s : String} (read : fromUtf8 bytes = .ok s) :
    utf8 s = bytes := by
  unfold fromUtf8 String.fromUTF8? at read
  split at read
  · rename_i text found
    split at found
    · cases found
      cases read
      rfl
    · cases found
  · cases read

theorem fromUtf8_ok_iff (bytes : Bytes) (s : String) :
    fromUtf8 bytes = .ok s ↔ utf8 s = bytes := by
  constructor
  · exact utf8_of_fromUtf8
  · intro same
    rw [← same, fromUtf8_utf8]

def base64Digit (n : Nat) : Char :=
  if n < 26 then Char.ofNat (65 + n)
  else if n < 52 then Char.ofNat (71 + n)
  else if n < 62 then Char.ofNat (n - 4)
  else if n = 62 then '+'
  else '/'

def base64 : Bytes → List Char
  | [] => []
  | [a] => [base64Digit (a.toNat / 4), base64Digit (a.toNat % 4 * 16), '=', '=']
  | [a, b] =>
    [base64Digit (a.toNat / 4), base64Digit (a.toNat % 4 * 16 + b.toNat / 16),
      base64Digit (b.toNat % 16 * 4), '=']
  | a :: b :: c :: rest =>
    base64Digit (a.toNat / 4) :: base64Digit (a.toNat % 4 * 16 + b.toNat / 16) ::
      base64Digit (b.toNat % 16 * 4 + c.toNat / 64) :: base64Digit (c.toNat % 64) :: base64 rest

theorem base64_length : ∀ bytes : Bytes, (base64 bytes).length = (bytes.length + 2) / 3 * 4
  | [] => rfl
  | [_] => by simp [base64]
  | [_, _] => by simp [base64]
  | _ :: _ :: _ :: rest => by
    simp only [base64, List.length_cons, base64_length rest]
    omega

example : base64 [0x66, 0x6F, 0x6F, 0x62] = "Zm9vYg==".toList := by decide

example : ((utf8Error 9 0 [0x61, 0xC3, 0x28]).map Utf8Error.toString) =
    some "invalid utf-8 sequence of 1 bytes from index 1" := by decide

end ByteText
