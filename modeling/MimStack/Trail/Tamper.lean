import MimStack.Lib.Markup
import MimStack.Trail.Handles

/-!
What the last digest of a chain says about everything before it.
-/
namespace MimAudit.Trail
open ByteText MarkupText Fallible MimCrypto

def AuditEnvelope.hashed (e : AuditEnvelope) : Bytes :=
  utf8 (e.previousHash ++ "|" ++ (recordValue e.record).toText)

/-- The digest tells the hashed bytes of these entries apart, no digest text is the chain's start or
has the separator in it, and the records' texts are those of the records. -/
structure Distinguishes (P : CryptoProvider) (entries : List AuditEnvelope) : Prop where
  injective : ∀ a ∈ entries, ∀ b ∈ entries,
    P.sha256Base64 a.hashed = P.sha256Base64 b.hashed → a.hashed = b.hashed
  unlike : ∀ e ∈ entries, P.sha256Base64 e.hashed ≠ genesis
  unseparated : ∀ e ∈ entries, '|' ∉ (P.sha256Base64 e.hashed).toList
  texts : ∀ a ∈ entries, ∀ b ∈ entries,
    (recordValue a.record).toText = (recordValue b.record).toText → a.record = b.record

theorem linked_of_verifyEnvelopes {B : AuditBackend} {verifying : Option VerifyingKey}
    {previous : String} {entries : List AuditEnvelope}
    (verified : AuditLog.verifyEnvelopes B verifying previous entries = .ok ()) :
    Linked B.crypto previous entries := by
  induction entries generalizing previous with
  | nil => trivial
  | cons e rest ih =>
    rw [AuditLog.verifyEnvelopes] at verified
    obtain ⟨own, verified⟩ := check_ok.mp verified
    obtain ⟨link, intact⟩ := (e.verifyChain_ok B.crypto previous).mp own
    refine ⟨link, intact, ih ?_⟩
    cases verifying with
    | none => exact verified
    | some key => exact (check_ok.mp verified).2

section Tips

variable {P : CryptoProvider} {first second : List AuditEnvelope}

theorem digest_hashed {e : AuditEnvelope} (intact : e.Intact P) :
    P.sha256Base64 e.hashed = e.recordHash := intact

theorem hashed_cut {a b : AuditEnvelope} (freeA : '|' ∉ a.previousHash.toList)
    (freeB : '|' ∉ b.previousHash.toList) (same : a.hashed = b.hashed) :
    a.previousHash = b.previousHash ∧
      (recordValue a.record).toText = (recordValue b.record).toText := by
  have texts := congrArg String.toList (utf8_injective same)
  simp only [String.toList_append, List.append_assoc] at texts
  obtain ⟨links, records⟩ := cut_at freeA freeB texts
  exact ⟨String.toList_inj.mp links, String.toList_inj.mp records⟩

theorem Linked.unseparated {entries all : List AuditEnvelope} (linked : Linked P genesis entries)
    (tells : Distinguishes P all) (among : ∀ e ∈ entries, e ∈ all) :
    ∀ e ∈ entries, '|' ∉ e.previousHash.toList := by
  intro e member
  rcases HashChain.chained_previous _ _ _ linked e member with start | ⟨x, inside, named⟩
  · rw [start]
    decide
  · rw [named, ← digest_hashed (HashChain.chained_intact _ _ _ linked x inside)]
    exact tells.unseparated x (among x inside)

theorem records_of_tip (tells : Distinguishes P (first ++ second))
    (linkedFirst : Linked P genesis first) (linkedSecond : Linked P genesis second)
    (same : tipOf first = tipOf second) : first.map (·.record) = second.map (·.record) := by
  have inFirst : ∀ e ∈ first, e ∈ first ++ second := fun _ mem => List.mem_append_left _ mem
  have inSecond : ∀ e ∈ second, e ∈ first ++ second := fun _ mem => List.mem_append_right _ mem
  have intactFirst := HashChain.chained_intact _ _ _ linkedFirst
  have intactSecond := HashChain.chained_intact _ _ _ linkedSecond
  refine HashChain.contents_of_tip _ _ _ (·.record) linkedFirst linkedSecond ?_ ?_ ?_ same
  · intro a inA b inB digests
    rw [← digest_hashed (intactFirst a inA), ← digest_hashed (intactSecond b inB)] at digests
    have hashed := tells.injective a (inFirst a inA) b (inSecond b inB) digests
    obtain ⟨links, texts⟩ := hashed_cut (linkedFirst.unseparated tells inFirst a inA)
      (linkedSecond.unseparated tells inSecond b inB) hashed
    exact ⟨links, tells.texts a (inFirst a inA) b (inSecond b inB) texts⟩
  · intro e member
    rw [← digest_hashed (intactFirst e member)]
    exact tells.unlike e (inFirst e member)
  · intro e member
    rw [← digest_hashed (intactSecond e member)]
    exact tells.unlike e (inSecond e member)

/-- Two lists that verify and end in one digest carry the same records in the same order. -/
theorem verified_records_of_tip {B : AuditBackend} {keyFirst keySecond : Option VerifyingKey}
    (tells : Distinguishes B.crypto (first ++ second))
    (verifiedFirst : AuditLog.verifyEnvelopes B keyFirst genesis first = .ok ())
    (verifiedSecond : AuditLog.verifyEnvelopes B keySecond genesis second = .ok ())
    (same : tipOf first = tipOf second) : first.map (·.record) = second.map (·.record) :=
  records_of_tip tells (linked_of_verifyEnvelopes verifiedFirst)
    (linked_of_verifyEnvelopes verifiedSecond) same

end Tips

theorem sealed_digest (P : CryptoProvider) (r : StampedRecord) (previous : String) :
    P.sha256Base64 (AuditEnvelope.sealed P r previous).hashed =
      (AuditEnvelope.sealed P r previous).recordHash := rfl

theorem pair_linked (P : CryptoProvider) (r later : StampedRecord) (signature : Option AuditSignature) :
    Linked P genesis [{ AuditEnvelope.sealed P r genesis with signature },
      .sealed P later (AuditEnvelope.sealed P r genesis).recordHash] :=
  ⟨rfl, rfl, rfl, rfl, trivial⟩

theorem pair_tip (P : CryptoProvider) (r later : StampedRecord) (signature : Option AuditSignature) :
    tipOf [{ AuditEnvelope.sealed P r genesis with signature },
      .sealed P later (AuditEnvelope.sealed P r genesis).recordHash] =
      (AuditEnvelope.sealed P later (AuditEnvelope.sealed P r genesis).recordHash).recordHash := rfl

theorem records_distinguished {entries : List AuditEnvelope}
    (each : ∀ e ∈ entries, (e.hashed = earlyEnvelope.hashed ∧ e.record = earlyRecord) ∨
      (e.hashed = nextEnvelope.hashed ∧ e.record = lateRecord)) :
    Distinguishes recordsBackend.crypto entries := by
  have earlyDigest : recordsBackend.crypto.sha256Base64 earlyEnvelope.hashed =
      "ShN50brdAVCpgX2OCJH6HX+NpUbK9VKibjfyuF5xPLQ=" :=
    (sealed_digest recordsCrypto earlyRecord genesis).trans early_hash
  have nextDigest : recordsBackend.crypto.sha256Base64 nextEnvelope.hashed =
      "czpUz9p4MHf+vafTFSZdQWszBIz2+E/FqkvrE+8eD0s=" :=
    (sealed_digest recordsCrypto lateRecord earlyEnvelope.recordHash).trans next_hash
  have digests : ("ShN50brdAVCpgX2OCJH6HX+NpUbK9VKibjfyuF5xPLQ=" : String) ≠
      "czpUz9p4MHf+vafTFSZdQWszBIz2+E/FqkvrE+8eD0s=" := by decide
  have texts : (recordValue earlyRecord).toText ≠ (recordValue lateRecord).toText := by
    have chars : (JsonText.compact (recordValue earlyRecord))[7]? ≠
        (JsonText.compact (recordValue lateRecord))[7]? := by
      decide +kernel
    intro same
    exact chars (congrArg (·[7]?) (String.ofList_inj.mp same))
  refine ⟨fun a inA b inB same => ?_, fun e member => ?_, fun e member => ?_, fun a inA b inB same => ?_⟩
  · rcases each a inA with ⟨hashedA, _⟩ | ⟨hashedA, _⟩ <;>
      rcases each b inB with ⟨hashedB, _⟩ | ⟨hashedB, _⟩ <;>
      rw [hashedA, hashedB] at same ⊢
    · exact absurd (earlyDigest.symm.trans (same.trans nextDigest)) digests
    · exact absurd (earlyDigest.symm.trans (same.symm.trans nextDigest)) digests
  · rcases each e member with ⟨hashed, _⟩ | ⟨hashed, _⟩
    · rw [hashed, earlyDigest]
      decide
    · rw [hashed, nextDigest]
      decide
  · rcases each e member with ⟨hashed, _⟩ | ⟨hashed, _⟩
    · rw [hashed, earlyDigest]
      decide
    · rw [hashed, nextDigest]
      decide
  · rcases each a inA with ⟨_, recordA⟩ | ⟨_, recordA⟩ <;>
      rcases each b inB with ⟨_, recordB⟩ | ⟨_, recordB⟩ <;>
      rw [recordA, recordB] at same ⊢
    · exact absurd same texts
    · exact absurd same.symm texts

theorem verified_records_fixture :
    let signed : AuditEnvelope :=
      { earlyEnvelope with signature := some ⟨nmbsAlgorithm, "audit", "c2lnbmVk"⟩ }
    let first := [earlyEnvelope, nextEnvelope]
    let second := [signed, nextEnvelope]
    Distinguishes recordsBackend.crypto (first ++ second) ∧
      AuditLog.verifyEnvelopes recordsBackend none genesis first = .ok () ∧
      AuditLog.verifyEnvelopes recordsBackend none genesis second = .ok () ∧
      first.map (·.record) = second.map (·.record) := by
  intro signed first second
  have each : ∀ e ∈ first ++ second, (e.hashed = earlyEnvelope.hashed ∧ e.record = earlyRecord) ∨
      (e.hashed = nextEnvelope.hashed ∧ e.record = lateRecord) := by
    intro e member
    simp only [first, second, List.cons_append, List.nil_append, List.mem_cons, List.not_mem_nil,
      or_false] at member
    rcases member with rfl | rfl | rfl | rfl
    · exact .inl ⟨rfl, rfl⟩
    · exact .inr ⟨rfl, rfl⟩
    · exact .inl ⟨rfl, rfl⟩
    · exact .inr ⟨rfl, rfl⟩
  have tells : Distinguishes recordsBackend.crypto (first ++ second) := records_distinguished each
  have verifiedFirst : AuditLog.verifyEnvelopes recordsBackend none genesis first = .ok () :=
    (verifyEnvelopes_linked genesis _).mpr (pair_linked recordsCrypto earlyRecord lateRecord none)
  have verifiedSecond : AuditLog.verifyEnvelopes recordsBackend none genesis second = .ok () :=
    (verifyEnvelopes_linked genesis _).mpr (pair_linked recordsCrypto earlyRecord lateRecord _)
  have tips : tipOf first = tipOf second :=
    (pair_tip recordsCrypto earlyRecord lateRecord none).trans
      (pair_tip recordsCrypto earlyRecord lateRecord _).symm
  exact ⟨tells, verifiedFirst, verifiedSecond,
    verified_records_of_tip tells verifiedFirst verifiedSecond tips⟩

end MimAudit.Trail
