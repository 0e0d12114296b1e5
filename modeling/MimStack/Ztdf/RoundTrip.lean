import MimStack.Stanag4778.Carriers
import MimStack.Ztdf

/-!
What becomes of a package between its making and its opening. The archive keeps the
manifest and the payload; the key server's key opens the payload, the signature
holds for the plaintext packaged and no other, and the label decoded is the one
packaged as far as decisions go.
-/
namespace MimZtdf
open ByteText Fallible MarkupText MimCore MimLabeling MimSpif MimCrypto MimStanag

/-- The manifest and the archive of a package can be written. -/
structure ZipFormat.WritesPackage (z : ZipFormat) (p : ZtdfPackage) : Prop where
  manifest : ∃ text, z.textOfManifest p.manifest = .ok text
  archive : ∀ text, z.textOfManifest p.manifest = .ok text → ∃ zip,
    z.writeArchive [(ZipFormat.manifestEntry, utf8 text), (ZipFormat.payloadEntry, p.encryptedPayload)] =
      .ok zip

namespace ZtdfPackage

theorem toZipBytes_ok_iff {z : ZipFormat} {p : ZtdfPackage} {zip : Bytes} :
    p.toZipBytes z = .ok zip ↔ ∃ text, z.textOfManifest p.manifest = .ok text ∧
      z.writeArchive [(ZipFormat.manifestEntry, utf8 text), (ZipFormat.payloadEntry, p.encryptedPayload)] =
        .ok zip := by
  constructor
  · intro written
    obtain ⟨text, manifest, archive⟩ := bind_ok.mp written
    exact ⟨text, (mapError_ok _ _ _).mp manifest, (mapError_ok _ _ _).mp archive⟩
  · intro held
    obtain ⟨text, manifest, archive⟩ := held
    apply bind_ok.mpr
    exact ⟨text, (mapError_ok _ _ _).mpr manifest, (mapError_ok _ _ _).mpr archive⟩

open Classical in
theorem faithful_archive (p : ZtdfPackage) : ∃ (z : ZipFormat) (text : String) (zip : Bytes),
    z.Faithful ∧ z.manifestJson p.manifest = .ok text ∧ p.toZipBytes z = .ok zip := by
  let entries := [(ZipFormat.manifestEntry, utf8 "manifest"),
    (ZipFormat.payloadEntry, p.encryptedPayload)]
  let read : Bytes → String → Except String Bytes := fun data name =>
    if data = [80, 75] then ((entries.find? (·.1 = name)).map Prod.snd).elim (.error "entry") .ok
    else .error "archive"
  let z : ZipFormat := {
    entryText := fun data name => read data name >>= fromUtf8
    entryBytes := read
    writeArchive := fun written => if written = entries then .ok [80, 75] else .error "entries"
    manifestOfText := fun text => if text = "manifest" then .ok p.manifest else .error "manifest"
    textOfManifest := fun m => if m = p.manifest then .ok "manifest" else .error "manifest" }
  have stored : ∀ written zip name bytes, z.writeArchive written = .ok zip →
      (name, bytes) ∈ written → read zip name = .ok bytes := by
    intro written zip name bytes archive mem
    simp only [z] at archive
    split at archive
    · rename_i same
      obtain rfl := Except.ok.inj archive
      rw [same] at mem
      rcases List.mem_cons.mp mem with first | second
      · obtain ⟨rfl, rfl⟩ := Prod.mk.inj first
        rfl
      · obtain ⟨rfl, rfl⟩ := Prod.mk.inj (List.mem_singleton.mp second)
        rfl
    · cases archive
  have manifest : z.manifestJson p.manifest = .ok "manifest" :=
    (mapError_ok _ _ _).mpr (if_pos rfl)
  have archive : p.toZipBytes z = .ok [80, 75] :=
    bind_ok.mpr ⟨_, manifest, (mapError_ok _ _ _).mpr (if_pos rfl)⟩
  refine ⟨z, _, _, ⟨fun written zip name bytes _ => stored written zip name bytes, ?_, ?_⟩,
    manifest, archive⟩
  · intro written zip name text _ written' mem
    exact bind_ok.mpr ⟨_, stored written zip name _ written' mem, fromUtf8_utf8 text⟩
  · intro m text written
    simp only [z] at written
    split at written
    · rename_i same
      obtain rfl := Except.ok.inj written
      exact same ▸ rfl
    · cases written

section RoundTrip

variable [MarkupEscape] {P : CryptoProvider}

theorem sealed_verifies_one {readTime : TimeReader} {manifest : ZtdfManifest} {payload : Bytes}
    {assertion : ZtdfAssertion} {label : ConfidentialityLabel}
    (ideal : P.IdealSignature) (injective : Function.Injective P.sha256Base64)
    (found : manifest.natoLabelAssertion = some assertion)
    (decoded : deserializeJson readTime assertion.statement.value = .ok label)
    {a b : Bytes} {key : VerifyingKey}
    (first : (sealedPackage manifest payload assertion label).verifyBindingPlaintext P readTime a key =
      .ok ())
    (second : (sealedPackage manifest payload assertion label).verifyBindingPlaintext P readTime b key =
      .ok ()) : a = b := by
  obtain ⟨xml, text, signed⟩ := ((sealed_verify_iff found decoded _ _).mp first).signed
  obtain ⟨xml', text', signed'⟩ := ((sealed_verify_iff found decoded _ _).mp second).signed
  obtain rfl := Except.ok.inj (text.symm.trans text')
  exact injective (ideal.digest signed signed')

variable (P) in
/-- The archive of a package opens, decrypts to its plaintext, verifies for that plaintext alone and
states its label. -/
def KeptByArchive (z : ZipFormat) (readTime : TimeReader) (p : ZtdfPackage)
    (label : ConfidentialityLabel) (plaintext : Bytes) (kasSigningKey : SigningKey)
    (verifyingKey : VerifyingKey) : Prop :=
  ∃ zip opened, p.toZipBytes z = .ok zip ∧ fromZipSealed z readTime zip = .ok opened ∧
    opened.decryptWithKas P (localKasClient P kasSigningKey) = .ok plaintext ∧
    VerifiesExactly (opened.verifyBindingPlaintext P readTime · verifyingKey) plaintext ∧
    ∃ l, opened.manifest.label readTime = .ok l ∧ Agree l label

/-- A package that was created is kept by its archive exactly if the times of its label can be
read back. -/
theorem package_round_trip_iff {z : ZipFormat} {readTime : TimeReader}
    {resolver : DetachedLabelResolver} {label : ConfidentialityLabel} {plaintext : Bytes}
    {signing : SigningKey} {verifying kasPublicKey : VerifyingKey} {p : ZtdfPackage}
    (ideal : P.IdealSignature) (injective : Function.Injective P.sha256Base64)
    (faithful : z.Faithful)
    (created : create P resolver label plaintext signing verifying kasPublicKey = .ok p)
    (writes : z.WritesPackage p) {matching : VerifyingKey} (paired : P.Paired signing matching)
    {kasSigningKey : SigningKey} (unsealing : Unseals P kasSigningKey kasPublicKey) :
    KeptByArchive P z readTime p label plaintext kasSigningKey matching ↔
      TimesReadable readTime label := by
  obtain ⟨encrypted, wrapped, a, built⟩ := create_ok_iff.mp created
  have policy := ((AssertionBinding.create_ok_iff _ _ _ _).mp (fromLabel_made built.made).binding).1
  have valid := (accepted_stages policy).1
  obtain ⟨text, manifest⟩ := writes.manifest
  obtain ⟨zip, archive⟩ := writes.archive text manifest
  have written : p.toZipBytes z = .ok zip := toZipBytes_ok_iff.mpr ⟨text, manifest, archive⟩
  have entries := readZipEntries_toZipBytes faithful written
  rw [← json_decoded_iff valid]
  constructor
  · rintro ⟨zip', package, written', opening, _⟩
    obtain rfl := Except.ok.inj (written.symm.trans written')
    obtain ⟨_, _, _, back, opened, _⟩ := fromZipSealed_ok_iff.mp opening
    exact ⟨back, opened_decodes built entries opened⟩
  · rintro ⟨back, decoded⟩
    rw [← relabelled_self built] at entries
    have opened := opened_relabelled built entries decoded
    have accepted := accepted_relabelled (l := label) built paired
      (validateLabel_decoded decoded policy)
    have verified : (sealedPackage (p.manifest.relabelled label) p.encryptedPayload
        (a.relabelled label) back).verifyBindingPlaintext P readTime plaintext matching = .ok () :=
      (sealed_verify_iff opened.found opened.decoded plaintext matching).mpr accepted
    refine ⟨zip, _, written, fromZipSealed_ok_iff.mpr ⟨_, _, _, _, opened, rfl⟩, ?_, ?_,
      back, ?_, json_decoded_agrees valid decoded⟩
    · rw [decrypts_sealed]
      exact create_decrypts unsealing built
    · apply verifiesExactly_of_digest
      · exact verified
      · intro other accepted
        exact sealed_verifies_one ideal injective opened.found opened.decoded accepted verified
    · exact (ZtdfManifest.label_ok opened.found).mpr opened.decoded

end RoundTrip

theorem faithful_package (p : ZtdfPackage) : ∃ z : ZipFormat, z.Faithful ∧ z.WritesPackage p := by
  obtain ⟨z, text, zip, faithful, _, archive⟩ := faithful_archive p
  obtain ⟨text', manifest, written⟩ := toZipBytes_ok_iff.mp archive
  refine ⟨z, faithful, ⟨text', manifest⟩, ?_⟩
  intro other same
  obtain rfl := Except.ok.inj (manifest.symm.trans same)
  exact ⟨zip, written⟩

def secretAt (time : DateTime) : ConfidentialityLabel :=
  { (ConfidentialityLabel.new .nato .secret).withCategory (.releasableTo ["USA"]) with
    creationTime := some time }

theorem secretAt_accepted (time : DateTime) :
    SpifRegistry.withDefaults.validateLabel (secretAt time) = .ok () := by
  obtain ⟨valid, policy, found, agreed⟩ := accepted_stages
    (nato_accepts .secret (by decide) [.releasableTo ["USA"]] (by decide))
  have valid' : (secretAt time).validate = .ok () := valid
  have found' : SpifRegistry.withDefaults.policyForLabel (secretAt time) = some policy := found
  simp only [SpifRegistry.validateLabel, valid', found']
  rw [← agreed]
  apply validateAgainstPolicy_congr <;> rfl

theorem secretAt_readable {readTime : TimeReader} {time : DateTime} :
    TimesReadable readTime (secretAt time) ↔ ∃ back, readTime time.toRfc3339 = .ok back := by
  constructor
  · intro readable
    exact readable time (.inl rfl)
  · rintro taken t (created | reviewed)
    · obtain rfl := Option.some.inj created
      exact taken
    · cases reviewed

theorem secretAt_packaged (time : DateTime) : letI := entityEscape
    ∃ (z : ZipFormat) (p : ZtdfPackage), z.Faithful ∧ create echoProvider (fun uri => .error (.parse uri)) (secretAt time) (utf8 "m")
        ⟨"nmb", [3]⟩ ⟨"nmb", [3]⟩ ⟨"kas", [4]⟩ = .ok p ∧ z.WritesPackage p := by
  let : MarkupEscape := entityEscape
  have digest : RustText.isEmpty (echoProvider.sha256Base64 (utf8 "m")) = false := by
    decide +kernel
  have paired := echoProvider_paired ⟨"nmb", [3]⟩ ⟨"nmb", [3]⟩ rfl rfl
  obtain ⟨p, created, _⟩ := create_released paired (echoProvider_seals ⟨"kas", [4]⟩)
    (secretAt_accepted time) digest yearReader fun uri => .error (.parse uri)
  obtain ⟨z, faithful, writes⟩ := faithful_package p
  exact ⟨z, p, faithful, created, writes⟩

theorem package_round_trip_fixture : letI := entityEscape
    ∃ z p, create echoProvider (fun uri => .error (.parse uri)) (secretAt ⟨"2024-05-01T08:00:00+00:00"⟩)
        (utf8 "m") ⟨"nmb", [3]⟩ ⟨"nmb", [3]⟩ ⟨"kas", [4]⟩ = .ok p ∧
      KeptByArchive echoProvider z yearReader p (secretAt ⟨"2024-05-01T08:00:00+00:00"⟩) (utf8 "m")
        ⟨"kas", [4]⟩ ⟨"nmb", [3]⟩ := by
  let : MarkupEscape := entityEscape
  obtain ⟨z, p, faithful, created, writes⟩ := secretAt_packaged ⟨"2024-05-01T08:00:00+00:00"⟩
  have readable : TimesReadable yearReader (secretAt ⟨"2024-05-01T08:00:00+00:00"⟩) :=
    secretAt_readable.mpr ⟨_, yearReader_takes (by decide +kernel)⟩
  exact ⟨z, p, created, (package_round_trip_iff echoProvider_ideal echoProvider_injective faithful created
    writes (echoProvider_paired ⟨"nmb", [3]⟩ ⟨"nmb", [3]⟩ rfl rfl)
    (echoProvider_unseals ⟨"kas", [4]⟩ ⟨"kas", [4]⟩)).mpr readable⟩

/-- The package of a label made in the year 10000 is written, and cannot be opened again. -/
theorem far_year_lost : letI := entityEscape
    ∃ (z : ZipFormat) (p : ZtdfPackage) (zip : Bytes), z.Faithful ∧
      create echoProvider (fun uri => .error (.parse uri)) (secretAt ⟨"+10000-01-01T00:00:00+00:00"⟩)
        (utf8 "m") ⟨"nmb", [3]⟩ ⟨"nmb", [3]⟩ ⟨"kas", [4]⟩ = .ok p ∧
      p.toZipBytes z = .ok zip ∧ ∀ opened, fromZipSealed z yearReader zip ≠ .ok opened := by
  let : MarkupEscape := entityEscape
  obtain ⟨z, p, faithful, created, writes⟩ := secretAt_packaged ⟨"+10000-01-01T00:00:00+00:00"⟩
  obtain ⟨encrypted, wrapped, a, built⟩ := create_ok_iff.mp created
  obtain ⟨text, manifest⟩ := writes.manifest
  obtain ⟨zip, archive⟩ := writes.archive text manifest
  have written : p.toZipBytes z = .ok zip := toZipBytes_ok_iff.mpr ⟨text, manifest, archive⟩
  refine ⟨z, p, zip, faithful, created, written, ?_⟩
  intro opened opening
  obtain ⟨_, _, _, back, taken, _⟩ := fromZipSealed_ok_iff.mp opening
  have decoded := opened_decodes built (readZipEntries_toZipBytes faithful written) taken
  have valid := (accepted_stages (secretAt_accepted ⟨"+10000-01-01T00:00:00+00:00"⟩)).1
  obtain ⟨time, read⟩ := secretAt_readable.mp ((json_decoded_iff valid).mp ⟨back, decoded⟩)
  exact yearReader_refuses (by decide +kernel) read

end ZtdfPackage

end MimZtdf
