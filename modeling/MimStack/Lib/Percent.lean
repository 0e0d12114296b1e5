import MimStack.Lib.Bytes

/-!
Percent-encoding of bytes. An escape is a percent sign with two hexadecimal digits
after it; decoding reads each escape as the byte it stands for and keeps all else.
-/
namespace PercentText
open ByteText

def hexNibble (b : UInt8) : Option UInt8 :=
  if 48 ≤ b && b ≤ 57 then some (b - 48)
  else if 97 ≤ b && b ≤ 102 then some (b - 97 + 10)
  else if 65 ≤ b && b ≤ 70 then some (b - 65 + 10)
  else none

def octet (hi lo : UInt8) : Option UInt8 :=
  match hexNibble hi, hexNibble lo with
  | some h, some l => some (h <<< 4 ||| l)
  | _, _ => none

def decode : Bytes → Bytes
  | b :: hi :: lo :: rest =>
    if b = 37 then
      match octet hi lo with
      | some v => v :: decode rest
      | none => b :: decode (hi :: lo :: rest)
    else b :: decode (hi :: lo :: rest)
  | short => short

def escaped : Bytes → Bool
  | b :: hi :: lo :: rest => (b == 37 && (octet hi lo).isSome) || escaped (hi :: lo :: rest)
  | _ => false

def hexDigit (n : UInt8) : Char := "0123456789ABCDEF".toList.getD n.toNat '0'

def encodeByte (keep : UInt8 → Bool) (b : UInt8) : List Char :=
  if keep b then [Char.ofNat b.toNat] else ['%', hexDigit (b >>> 4), hexDigit (b &&& 0x0f)]

def encode (keep : UInt8 → Bool) (bytes : Bytes) : String :=
  .ofList (bytes.flatMap (encodeByte keep))

section Decoding

theorem decode_of_unescaped {bytes : Bytes} (plain : escaped bytes = false) :
    decode bytes = bytes := by
  fun_induction decode bytes with
  | case1 hi lo rest v read ih => simp [escaped, read] at plain
  | case2 hi lo rest unread ih =>
    simp only [escaped, Bool.or_eq_false_iff] at plain
    rw [ih plain.2]
  | case3 b hi lo rest apart ih =>
    simp only [escaped, Bool.or_eq_false_iff] at plain
    rw [ih plain.2]
  | case4 short _ => rfl

theorem decode_length_le (bytes : Bytes) : (decode bytes).length ≤ bytes.length := by
  fun_induction decode bytes with
  | case1 hi lo rest v read ih => simp only [List.length_cons]; omega
  | case2 hi lo rest unread ih => simp only [List.length_cons] at ih ⊢; omega
  | case3 b hi lo rest apart ih => simp only [List.length_cons] at ih ⊢; omega
  | case4 short _ => exact Nat.le_refl _

theorem decode_length_lt {bytes : Bytes} (found : escaped bytes = true) :
    (decode bytes).length < bytes.length := by
  fun_induction decode bytes with
  | case1 hi lo rest v read ih =>
    have := decode_length_le rest
    simp only [List.length_cons]
    omega
  | case2 hi lo rest unread ih =>
    simp only [escaped, unread, Option.isSome_none, Bool.and_false, Bool.false_or] at found
    have := ih found
    simp only [List.length_cons] at this ⊢
    omega
  | case3 b hi lo rest apart ih =>
    simp only [escaped, beq_eq_false_iff_ne.mpr apart, Bool.false_and, Bool.false_or] at found
    have := ih found
    simp only [List.length_cons] at this ⊢
    omega
  | case4 short few =>
    rcases short with _ | ⟨b, _ | ⟨hi, _ | ⟨lo, rest⟩⟩⟩
    · cases found
    · cases found
    · cases found
    · exact absurd rfl (few _ _ _ _)

end Decoding

section RoundTrip

def asciiBytes (chars : List Char) : Bytes := chars.map fun c => UInt8.ofNat c.toNat

theorem utf8_ascii (chars : List Char) (ascii : ∀ c ∈ chars, c.toNat < 128) :
    utf8 (.ofList chars) = asciiBytes chars := by
  induction chars with
  | nil => rfl
  | cons c rest ih =>
    have single : c.utf8Size = 1 :=
      Char.utf8Size_eq_one_iff.mpr (Nat.le_of_lt_succ (ascii c List.mem_cons_self))
    have head : utf8 (.ofList [c]) = [UInt8.ofNat c.toNat] := by
      simp only [utf8, String.toByteArray_ofList, List.utf8Encode_singleton,
        String.utf8EncodeChar_eq_singleton single]
      rfl
    rw [← List.singleton_append, String.ofList_append, utf8_append, head,
      ih fun d mem => ascii d (List.mem_cons_of_mem _ mem)]
    rfl

set_option maxRecDepth 4000 in
theorem octet_hexDigits : ∀ n < 256,
    octet (UInt8.ofNat (hexDigit (UInt8.ofNat n >>> 4)).toNat)
      (UInt8.ofNat (hexDigit (UInt8.ofNat n &&& 0x0f)).toNat) = some (UInt8.ofNat n) := by decide

set_option maxRecDepth 4000 in
theorem hexDigits_ascii : ∀ n < 256, (hexDigit (UInt8.ofNat n >>> 4)).toNat < 128 ∧
    (hexDigit (UInt8.ofNat n &&& 0x0f)).toNat < 128 := by decide

def Sound (keep : UInt8 → Bool) : Prop := ∀ b, keep b = true → b.toNat < 128 ∧ b ≠ 37

variable {keep : UInt8 → Bool}

theorem ascii_toNat : ∀ n < 128, (Char.ofNat n).toNat = n := by decide

theorem encodeByte_ascii (sound : Sound keep) (b : UInt8) :
    ∀ c ∈ encodeByte keep b, c.toNat < 128 := by
  intro c mem
  unfold encodeByte at mem
  split at mem
  · rename_i kept
    have small := (sound b kept).1
    rw [List.mem_singleton.mp mem, ascii_toNat b.toNat small]
    exact small
  · have digits := hexDigits_ascii b.toNat b.toNat_lt
    rw [UInt8.ofNat_toNat] at digits
    simp only [List.mem_cons, List.not_mem_nil, or_false] at mem
    rcases mem with rfl | rfl | rfl
    · decide
    · exact digits.1
    · exact digits.2

theorem decode_cons {b : UInt8} (apart : b ≠ 37) (rest : Bytes) :
    decode (b :: rest) = b :: decode rest := by
  rcases rest with _ | ⟨hi, _ | ⟨lo, rest⟩⟩
  · rfl
  · rfl
  · rw [decode, if_neg apart]

theorem decode_encodeByte (sound : Sound keep) (b : UInt8) (rest : Bytes) :
    decode (asciiBytes (encodeByte keep b) ++ rest) = b :: decode rest := by
  unfold encodeByte
  split
  · rename_i kept
    obtain ⟨small, apart⟩ := sound b kept
    simp only [asciiBytes, List.map_cons, List.map_nil, List.cons_append, List.nil_append,
      ascii_toNat b.toNat small, UInt8.ofNat_toNat]
    exact decode_cons apart rest
  · have digits := octet_hexDigits b.toNat b.toNat_lt
    rw [UInt8.ofNat_toNat] at digits
    have sign : UInt8.ofNat '%'.toNat = 37 := by decide
    simp only [asciiBytes, List.map_cons, List.map_nil, List.cons_append, List.nil_append, sign]
    rw [decode, if_pos rfl, digits]

theorem decode_encode (sound : Sound keep) (bytes : Bytes) :
    decode (utf8 (encode keep bytes)) = bytes := by
  have ascii : ∀ c ∈ bytes.flatMap (encodeByte keep), c.toNat < 128 := by
    intro c mem
    obtain ⟨b, _, part⟩ := List.mem_flatMap.mp mem
    exact encodeByte_ascii sound b c part
  rw [encode, utf8_ascii _ ascii]
  clear ascii
  induction bytes with
  | nil => rfl
  | cons b rest ih =>
    rw [List.flatMap_cons, asciiBytes, List.map_append]
    exact (decode_encodeByte sound b _).trans (congrArg (b :: ·) ih)

end RoundTrip

example : encode (fun b => 97 ≤ b && b ≤ 122) [97, 37, 255] = "a%25%FF" := by decide
example : decode [37, 52, 49, 37, 122, 122] = [65, 37, 122, 122] := by decide

end PercentText
