import MimStack.Lib.Bytes
import MimStack.Lib.Outcome

/-!
Signatures, digests and payload encryption as the bindings and packages use them.
The cryptographic backend is a parameter; its randomness is part of it, so that
one provider stands for one run.
-/
namespace MimCrypto
open ByteText Fallible

inductive CryptoError where
  | operation (message : String)
  | invalidKey (message : String)
  | verificationFailed
  | unsupportedAlgorithm (message : String)

def CryptoError.toString : CryptoError → String
  | .operation m => "cryptographic operation failed: " ++ m
  | .invalidKey m => "invalid key material: " ++ m
  | .verificationFailed => "signature verification failed"
  | .unsupportedAlgorithm m => "unsupported algorithm: " ++ m

structure SigningKey where
  keyId : String
  der : Bytes

structure VerifyingKey where
  keyId : String
  der : Bytes

structure ContentEncryptionKey where
  bytes : Vector UInt8 32

structure AesGcmCiphertext where
  iv : Vector UInt8 12
  ciphertext : Bytes
  tag : Vector UInt8 16

namespace AesGcmCiphertext

def toBytes (c : AesGcmCiphertext) : Bytes := c.iv.toList ++ c.ciphertext ++ c.tag.toList

def fromBytes (data : Bytes) : Except CryptoError AesGcmCiphertext :=
  if short : data.length < 28 then .error (.operation "ciphertext too short for AES-256-GCM")
  else .ok {
    iv := ⟨(data.take 12).toArray, by simp; omega⟩
    ciphertext := (data.take (data.length - 16)).drop 12
    tag := ⟨(data.drop (data.length - 16)).toArray, by simp; omega⟩ }

theorem fromBytes_toBytes (c : AesGcmCiphertext) : fromBytes c.toBytes = .ok c := by
  have size : c.toBytes.length = 28 + c.ciphertext.length := by
    simp only [toBytes, List.length_append, Vector.length_toList]
    omega
  have body : c.toBytes.length - 16 = (c.iv.toList ++ c.ciphertext).length := by
    rw [size, List.length_append, Vector.length_toList]
    omega
  have front : c.toBytes.take (c.toBytes.length - 16) = c.iv.toList ++ c.ciphertext := by
    rw [body]
    exact List.take_left
  have back : c.toBytes.drop (c.toBytes.length - 16) = c.tag.toList := by
    rw [body]
    exact List.drop_left
  have lead : c.toBytes.take 12 = c.iv.toList := by
    rw [toBytes, List.append_assoc]
    exact List.take_left' c.iv.length_toList
  have middle : (c.iv.toList ++ c.ciphertext).drop 12 = c.ciphertext :=
    List.drop_left' c.iv.length_toList
  rw [fromBytes, dif_neg (by omega)]
  cases c
  simp only [front, back, lead, middle, Except.ok.injEq, mk.injEq]
  exact ⟨Vector.toArray_inj.mp Array.toArray_toList, trivial,
    Vector.toArray_inj.mp Array.toArray_toList⟩

end AesGcmCiphertext

structure CryptoProvider where
  hashSha256 : Bytes → Bytes
  signRsaPssSha256 : SigningKey → Bytes → Except CryptoError Bytes
  verifyRsaPssSha256 : VerifyingKey → Bytes → Bytes → Except CryptoError Unit
  generateContentKey : Except CryptoError ContentEncryptionKey
  wrapKeyRsaOaepSha256 : VerifyingKey → ContentEncryptionKey → Except CryptoError Bytes
  unwrapKeyRsaOaepSha256 : SigningKey → Bytes → Except CryptoError ContentEncryptionKey
  encryptAes256Gcm : ContentEncryptionKey → Bytes → Bytes → Except CryptoError AesGcmCiphertext
  decryptAes256Gcm : ContentEncryptionKey → AesGcmCiphertext → Bytes → Except CryptoError Bytes
  base64Encode : Bytes → String
  base64Decode : String → Except String Bytes

def nmbsAlgorithm : String := "RSA-PSS-SHA256"

def nmbsAlgorithmUri : String := "urn:nato:stanag:4778:binding:rsa-pss-sha256"

def nmbMessage (labelBytes : Bytes) (payloadDigest : String) : Bytes :=
  labelBytes ++ 124 :: utf8 payloadDigest

theorem nmbMessage_injective {a b : Bytes} {digest : String}
    (same : nmbMessage a digest = nmbMessage b digest) : a = b :=
  List.append_cancel_right same

theorem nmbMessage_text (label payloadDigest : String) :
    nmbMessage (utf8 label) payloadDigest = utf8 (label ++ "|" ++ payloadDigest) := by
  have delimiter : utf8 "|" = [124] := by decide
  rw [nmbMessage, utf8_append, utf8_append, delimiter, List.append_assoc]
  rfl

namespace CryptoProvider

variable (P : CryptoProvider)

def sha256Base64 (data : Bytes) : String := P.base64Encode (P.hashSha256 data)

def signNmbBinding (key : SigningKey) (labelBytes : Bytes) (payloadDigest : String) :
    Except CryptoError String := do
  let sig ← P.signRsaPssSha256 key (nmbMessage labelBytes payloadDigest)
  return P.base64Encode sig

def verifyNmbBinding (key : VerifyingKey) (labelBytes : Bytes) (payloadDigest signature : String) :
    Except CryptoError Unit := do
  let sig ← (P.base64Decode signature).mapError .operation
  P.verifyRsaPssSha256 key (nmbMessage labelBytes payloadDigest) sig

/-- Ideal signatures over an ideal hash: under one key, a signature is valid for one message. -/
structure IdealSignature : Prop where
  oneMessage : ∀ key sig m m', P.verifyRsaPssSha256 key m sig = .ok () →
    P.verifyRsaPssSha256 key m' sig = .ok () → m = m'

theorem IdealSignature.nmbMessage_eq {P : CryptoProvider} (ideal : P.IdealSignature)
    {key : VerifyingKey} {a b : Bytes} {digest digest' signature : String}
    (first : P.verifyNmbBinding key a digest signature = .ok ())
    (second : P.verifyNmbBinding key b digest' signature = .ok ()) :
    nmbMessage a digest = nmbMessage b digest' := by
  obtain ⟨sig, decoded, validA⟩ := bind_ok.mp first
  obtain ⟨sig', decoded', validB⟩ := bind_ok.mp second
  rw [decoded] at decoded'
  obtain rfl := Except.ok.inj decoded'
  exact ideal.oneMessage key sig _ _ validA validB

theorem IdealSignature.label_bytes {P : CryptoProvider} (ideal : P.IdealSignature)
    {key : VerifyingKey} {a b : Bytes} {digest signature : String}
    (first : P.verifyNmbBinding key a digest signature = .ok ())
    (second : P.verifyNmbBinding key b digest signature = .ok ()) : a = b :=
  nmbMessage_injective (ideal.nmbMessage_eq first second)

theorem IdealSignature.digest {P : CryptoProvider} (ideal : P.IdealSignature)
    {key : VerifyingKey} {labelBytes : Bytes} {digest digest' signature : String}
    (first : P.verifyNmbBinding key labelBytes digest signature = .ok ())
    (second : P.verifyNmbBinding key labelBytes digest' signature = .ok ()) : digest = digest' := by
  have rest := List.append_cancel_left (ideal.nmbMessage_eq first second)
  exact utf8_injective (List.cons.inj rest).2

/-- The two keys belong together and the backend works for them. -/
structure Paired (signing : SigningKey) (verifying : VerifyingKey) : Prop where
  keyId : signing.keyId = verifying.keyId
  signs : ∀ m, ∃ sig, P.signRsaPssSha256 signing m = .ok sig ∧
    P.verifyRsaPssSha256 verifying m sig = .ok ()
  decodes : ∀ bytes, P.base64Decode (P.base64Encode bytes) = .ok bytes

theorem Paired.nmbBinding {P : CryptoProvider} {signing : SigningKey} {verifying : VerifyingKey}
    (paired : P.Paired signing verifying) (labelBytes : Bytes) (digest : String) :
    ∃ signature, P.signNmbBinding signing labelBytes digest = .ok signature ∧
      P.verifyNmbBinding verifying labelBytes digest signature = .ok () := by
  obtain ⟨sig, signed, valid⟩ := paired.signs (nmbMessage labelBytes digest)
  refine ⟨P.base64Encode sig, ?_, ?_⟩
  · exact bind_ok.mpr ⟨sig, signed, rfl⟩
  · exact bind_ok.mpr ⟨sig, (mapError_ok _ _ _).mpr (paired.decodes sig), valid⟩

end CryptoProvider

structure NmbTrustStore where
  keys : List VerifyingKey

def NmbTrustStore.verifyKeyFor (t : NmbTrustStore) (keyId : String) :
    Except CryptoError VerifyingKey :=
  match t.keys.find? fun k => k.keyId == keyId with
  | some key => .ok key
  | none => .error (.invalidKey ("unknown NMBS verifying key id: " ++ keyId))

def echoProvider : CryptoProvider where
  hashSha256 data := data
  signRsaPssSha256 key m := .ok (key.der ++ m)
  verifyRsaPssSha256 key m sig :=
    if sig = key.der ++ m then .ok () else .error .verificationFailed
  generateContentKey := .ok ⟨.replicate 32 0⟩
  wrapKeyRsaOaepSha256 _ cek := .ok cek.bytes.toList
  unwrapKeyRsaOaepSha256 _ wrapped :=
    if size : wrapped.length = 32 then .ok ⟨⟨wrapped.toArray, size⟩⟩
    else .error (.operation "wrapped key size")
  encryptAes256Gcm _ plaintext _ := .ok ⟨.replicate 12 0, plaintext, .replicate 16 0⟩
  decryptAes256Gcm _ c _ := .ok c.ciphertext
  base64Encode bytes := .ofList (bytes.map fun b => Char.ofNat b.toNat)
  base64Decode s := .ok (s.toList.map fun c => UInt8.ofNat c.toNat)

theorem echoProvider_ideal : echoProvider.IdealSignature where
  oneMessage := by
    intro key sig m m' first second
    simp only [echoProvider, ite_eq_left_iff, reduceCtorEq, imp_false, Decidable.not_not] at first second
    exact List.append_cancel_left (first.symm.trans second)

theorem echoProvider_paired (signing : SigningKey) (verifying : VerifyingKey)
    (keyId : signing.keyId = verifying.keyId) (der : signing.der = verifying.der) :
    echoProvider.Paired signing verifying where
  keyId := keyId
  signs m := ⟨signing.der ++ m, rfl, if_pos (congrArg (· ++ m) der)⟩
  decodes bytes := by
    have each : ∀ b : UInt8, UInt8.ofNat (Char.ofNat b.toNat).toNat = b := by
      intro b
      have small : b.toNat.isValidChar := .inl (by have := b.toNat_lt; omega)
      have kept : (Char.ofNat b.toNat).toNat = b.toNat := by
        rw [Char.ofNat, dif_pos small]
        rfl
      rw [kept, UInt8.ofNat_toNat]
    simp only [echoProvider, String.toList_ofList, List.map_map, Except.ok.injEq]
    exact (List.map_congr_left fun b _ => each b).trans bytes.map_id

theorem echoProvider_injective : Function.Injective echoProvider.sha256Base64 := by
  intro a b same
  have decodes := (echoProvider_paired ⟨"", []⟩ ⟨"", []⟩ rfl rfl).decodes
  have encoded : echoProvider.base64Encode a = echoProvider.base64Encode b := same
  have decoded := decodes a
  rw [encoded, decodes b] at decoded
  exact (Except.ok.inj decoded).symm

end MimCrypto
