import MimStack.Audit
import MimStack.Stanag4774.RoundTrip
import MimStack.Stanag4778

/-!
Labelled, encrypted packages. A manifest carries the label as a JSON value, which
access decisions read, and the label text that the binding signature covers. The
archive format and the JSON text of a manifest are parameters.
-/
namespace MimZtdf
open RustText ByteText Fallible MarkupText JsonText MimLabeling MimPolicy MimAudit MimCrypto MimStanag

structure ZtdfStatement where
  format : String
  schema : String
  value : Value

structure ZtdfAssertionBinding where
  method : String
  algorithm : String
  keyId : String
  signature : String

structure ZtdfAssertion where
  id : String
  assertionType : String
  scope : String
  appliesToState : String
  statement : ZtdfStatement
  binding : ZtdfAssertionBinding
  signedLabelXml : String

structure ZtdfPayloadRef where
  payloadType : String
  url : String
  protocol : String
  isEncrypted : Bool
  mimeType : String

structure ZtdfEncryptionMethod where
  algorithm : String
  isStreamable : Bool
  iv : String
  authTag : String

structure ZtdfKeyWrap where
  algorithm : String
  keyId : String
  wrappedKey : String

structure ZtdfEncryptionInformation where
  encryptionType : String
  method : ZtdfEncryptionMethod
  keyWrap : ZtdfKeyWrap
  policy : String

structure ZtdfManifest where
  tdfSpecVersion : String
  payload : ZtdfPayloadRef
  encryptionInformation : ZtdfEncryptionInformation
  assertions : List ZtdfAssertion

def currentSpecVersion : String := "1.0.0"

def cryptoFailure (e : CryptoError) : LabelError := .binding e.toString

variable [MarkupEscape] (P : CryptoProvider)

def ZtdfAssertion.fromLabel (label : ConfidentialityLabel) (payload : Bytes)
    (signingKey : SigningKey) : Except LabelError ZtdfAssertion := do
  label.validate
  let labelXml ← serializeXml label
  let jsonValue ← serializeJson label
  let assertion ← AssertionBinding.create P label payload signingKey
  return {
    id := "nato-label-1"
    assertionType := "handling"
    scope := "payload"
    appliesToState := "encrypted"
    statement := ⟨"json-structured", stanag4774Namespace, jsonValue⟩
    binding := ⟨"nmb", assertion.signature.algorithm, assertion.signature.keyId,
      assertion.signature.signature⟩
    signedLabelXml := labelXml }

def ZtdfAssertion.relabelled (a : ZtdfAssertion) (l : ConfidentialityLabel) : ZtdfAssertion :=
  { a with statement := { a.statement with value := toJsonValue l } }

namespace ZtdfManifest

def relabelled (m : ZtdfManifest) (l : ConfidentialityLabel) : ZtdfManifest :=
  { m with assertions := m.assertions.map (·.relabelled l) }

def assembled (encrypted : AesGcmCiphertext) (kasKeyId : String) (wrapped : Bytes)
    (policyB64 : String) (assertion : ZtdfAssertion) : ZtdfManifest where
  tdfSpecVersion := currentSpecVersion
  payload := ⟨"reference", "0.payload", "zip", true, "application/octet-stream"⟩
  encryptionInformation := {
    encryptionType := "split"
    method := ⟨"AES-256-GCM", true, P.base64Encode encrypted.iv.toList,
      P.base64Encode encrypted.tag.toList⟩
    keyWrap := ⟨"RSA-OAEP-SHA256", kasKeyId, P.base64Encode wrapped⟩
    policy := policyB64 }
  assertions := [assertion]

def forMimPayload (label : ConfidentialityLabel) (plaintext : Bytes) (encrypted : AesGcmCiphertext)
    (cek : ContentEncryptionKey) (signingKey : SigningKey) (kasPublicKey : VerifyingKey)
    (policyB64 : String) : Except LabelError ZtdfManifest := do
  let wrapped ← (P.wrapKeyRsaOaepSha256 kasPublicKey cek).mapError cryptoFailure
  let assertion ← ZtdfAssertion.fromLabel P label plaintext signingKey
  return assembled P encrypted kasPublicKey.keyId wrapped policyB64 assertion

def natoLabelAssertion (m : ZtdfManifest) : Option ZtdfAssertion :=
  m.assertions.find? (·.id == "nato-label-1")

def validate (m : ZtdfManifest) : Except LabelError Unit :=
  if m.tdfSpecVersion ≠ currentSpecVersion then
    .error (.validation ("unsupported tdf_spec_version: " ++ m.tdfSpecVersion))
  else if !m.payload.isEncrypted then .error (.validation "ZTDF payload must be encrypted")
  else if m.encryptionInformation.method.algorithm ≠ "AES-256-GCM" then
    .error (.validation "ZTDF requires AES-256-GCM payload encryption")
  else if m.assertions.isEmpty then
    .error (.validation "ZTDF manifest requires at least one assertion")
  else
    match m.natoLabelAssertion with
    | none => .error (.validation "ZTDF manifest requires nato-label-1 assertion")
    | some nato =>
      if nato.statement.schema ≠ stanag4774Namespace then
        .error (.validation "assertion schema must be STANAG 4774 namespace")
      else if nato.binding.method ≠ "nmb" then
        .error (.validation "ZTDF assertion must use NMBS binding method")
      else .ok ()

/-- The label that the manifest's JSON value encodes; every failure to decode it reads the same. -/
def label (readTime : TimeReader) (m : ZtdfManifest) : Except LabelError ConfidentialityLabel :=
  match m.natoLabelAssertion.bind fun a => (deserializeJson readTime a.statement.value).toOption with
  | some l => .ok l
  | none => .error (.validation "missing label assertion")

omit [MarkupEscape] in
theorem label_ok {readTime : TimeReader} {m : ZtdfManifest} {a : ZtdfAssertion}
    (found : m.natoLabelAssertion = some a) {l : ConfidentialityLabel} :
    m.label readTime = .ok l ↔ deserializeJson readTime a.statement.value = .ok l := by
  unfold label
  rw [found, Option.bind_some]
  cases deserializeJson readTime a.statement.value with
  | error e => simp [Except.toOption]
  | ok l' => simp [Except.toOption]

omit [MarkupEscape] in
theorem label_found {readTime : TimeReader} {m : ZtdfManifest} {l : ConfidentialityLabel}
    (decoded : m.label readTime = .ok l) : ∃ a, m.natoLabelAssertion = some a := by
  cases found : m.natoLabelAssertion with
  | none =>
    rw [label, found] at decoded
    cases decoded
  | some a => exact ⟨a, rfl⟩

end ZtdfManifest

def defaultPolicyB64 : String :=
  P.base64Encode (utf8 (Value.ofFields [
    ("uuid", .string "61333466-4f0a-4a12-95fb-b6d8bd0b8b26"),
    ("body", .ofFields [
      ("attributes", .array [.string "classification", .string "releasableTo"]),
      ("dissem", .array [.string "coalition"])])]).toText)

abbrev KasClient := ZtdfManifest → Except LabelError ContentEncryptionKey

def localKasClient (signingKey : SigningKey) : KasClient := fun m => do
  let wrapped ← (P.base64Decode m.encryptionInformation.keyWrap.wrappedKey).mapError .parse
  (P.unwrapKeyRsaOaepSha256 signingKey wrapped).mapError cryptoFailure

/-- Archives and the JSON text of manifests, with the text of their errors. -/
structure ZipFormat where
  entryText : Bytes → String → Except String String
  entryBytes : Bytes → String → Except String Bytes
  writeArchive : List (String × Bytes) → Except String Bytes
  manifestOfText : String → Except String ZtdfManifest
  textOfManifest : ZtdfManifest → Except String String

namespace ZipFormat

def manifestEntry : String := "manifest.json"

def payloadEntry : String := "0.payload"

def readZipEntries (z : ZipFormat) (data : Bytes) : Except LabelError (ZtdfManifest × Bytes) := do
  let text ← (z.entryText data manifestEntry).mapError .parse
  let manifest ← (z.manifestOfText text).mapError .parse
  let payload ← (z.entryBytes data payloadEntry).mapError .parse
  return (manifest, payload)

def manifestJson (z : ZipFormat) (m : ZtdfManifest) : Except LabelError String :=
  (z.textOfManifest m).mapError .serialization

structure Writes (z : ZipFormat) : Prop where
  manifest : ∀ m, ∃ text, z.textOfManifest m = .ok text
  archive : ∀ entries, ∃ zip, z.writeArchive entries = .ok zip

/-- Archives keep their entries, and manifest text reads back as the manifest it was written
from. -/
structure Faithful (z : ZipFormat) : Prop where
  bytes : ∀ entries zip name bytes, (entries.map Prod.fst).Nodup →
    z.writeArchive entries = .ok zip → (name, bytes) ∈ entries → z.entryBytes zip name = .ok bytes
  text : ∀ entries zip name text, (entries.map Prod.fst).Nodup →
    z.writeArchive entries = .ok zip → (name, utf8 text) ∈ entries →
    z.entryText zip name = .ok text
  manifest : ∀ m text, z.textOfManifest m = .ok text → z.manifestOfText text = .ok m

end ZipFormat

structure ZtdfPackage where
  manifest : ZtdfManifest
  encryptedPayload : Bytes
  contentKey : ContentEncryptionKey
  binding : BindingDataObject

namespace ZtdfPackage

def payloadAad : Bytes := utf8 "ztdf/0.payload"

def create (resolver : DetachedLabelResolver) (label : ConfidentialityLabel) (plaintext : Bytes)
    (signingKey : SigningKey) (verifyingKey kasPublicKey : VerifyingKey) :
    Except LabelError ZtdfPackage := do
  label.validate
  let cek ← P.generateContentKey.mapError cryptoFailure
  let encrypted ← (P.encryptAes256Gcm cek plaintext payloadAad).mapError cryptoFailure
  let manifest ← ZtdfManifest.forMimPayload P label plaintext encrypted cek signingKey kasPublicKey
    (defaultPolicyB64 P)
  manifest.validate
  let binding ← BindingDataObject.assertionBound P label plaintext signingKey
  binding.verify P plaintext (some verifyingKey) resolver
  return ⟨manifest, encrypted.toBytes, cek, binding⟩

def decryptWithKas (p : ZtdfPackage) (kas : KasClient) : Except LabelError Bytes := do
  let cek ← kas p.manifest
  let ciphertext ← (AesGcmCiphertext.fromBytes p.encryptedPayload).mapError cryptoFailure
  (P.decryptAes256Gcm cek ciphertext payloadAad).mapError cryptoFailure

def decryptWithPolicy {σ : Type} (readTime : TimeReader) (p : ZtdfPackage)
    (subject : SubjectAttributes) (pep : AuditedPep σ) (domain : SecurityDomain)
    (kas : KasClient) : Effect LabelError σ Bytes := do
  let label ← Effect.ofExcept (p.manifest.label readTime)
  let _ ← (pep.enforceAccess subject label .read domain).mapError fun e => .validation e.toString
  Effect.ofExcept (p.decryptWithKas P kas)

def reassembled (assertion : ZtdfAssertion) (label : ConfidentialityLabel)
    (payloadDigest : String) : AssertionBinding where
  label := label
  payloadDigest := payloadDigest
  signature := ⟨assertion.binding.algorithm, nmbsAlgorithmUri, assertion.binding.keyId,
    assertion.binding.signature⟩
  signedLabelXml := some assertion.signedLabelXml

def ownAssertion (p : ZtdfPackage) : Option AssertionBinding :=
  p.binding.assertion.filter fun a => !isEmpty a.payloadDigest

def verifyBindingPlaintext (readTime : TimeReader) (p : ZtdfPackage) (plaintext : Bytes)
    (verifyingKey : VerifyingKey) : Except LabelError Unit :=
  match p.ownAssertion with
  | some assertion => assertion.verify P plaintext verifyingKey
  | none => do
    let label ← p.manifest.label readTime
    match p.manifest.natoLabelAssertion with
    | none => .error (.validation "missing nato-label-1")
    | some assertion =>
      (reassembled assertion label (P.sha256Base64 plaintext)).verify P plaintext verifyingKey

def verifyRelease (readTime : TimeReader) (p : ZtdfPackage) (verifyingKey : VerifyingKey)
    (plaintext : Bytes) : Except LabelError Unit := do
  p.manifest.validate
  p.verifyBindingPlaintext P readTime plaintext verifyingKey

def toZipBytes (z : ZipFormat) (p : ZtdfPackage) : Except LabelError Bytes := do
  let manifestJson ← z.manifestJson p.manifest
  (z.writeArchive [(ZipFormat.manifestEntry, utf8 manifestJson),
    (ZipFormat.payloadEntry, p.encryptedPayload)]).mapError .serialization

omit [MarkupEscape] in
theorem toZipBytes_ok {z : ZipFormat} (writes : z.Writes) (p : ZtdfPackage) :
    (∃ text, z.manifestJson p.manifest = .ok text) ∧ ∃ zip, p.toZipBytes z = .ok zip := by
  obtain ⟨text, manifest⟩ := writes.manifest p.manifest
  obtain ⟨zip, archive⟩ := writes.archive [(ZipFormat.manifestEntry, utf8 text),
    (ZipFormat.payloadEntry, p.encryptedPayload)]
  have written : z.manifestJson p.manifest = .ok text := (mapError_ok _ _ _).mpr manifest
  exact ⟨⟨text, written⟩, zip, bind_ok.mpr ⟨text, written, (mapError_ok _ _ _).mpr archive⟩⟩

omit [MarkupEscape] in
theorem readZipEntries_toZipBytes {z : ZipFormat} (faithful : z.Faithful) {p : ZtdfPackage}
    {zip : Bytes} (written : p.toZipBytes z = .ok zip) :
    z.readZipEntries zip = .ok (p.manifest, p.encryptedPayload) := by
  obtain ⟨text, manifest, archive⟩ := bind_ok.mp written
  rw [mapError_ok] at archive
  have distinct : ([(ZipFormat.manifestEntry, utf8 text),
      (ZipFormat.payloadEntry, p.encryptedPayload)].map Prod.fst).Nodup := by
    simp [ZipFormat.manifestEntry, ZipFormat.payloadEntry]
  refine bind_ok.mpr ⟨text, (mapError_ok _ _ _).mpr ?_, bind_ok.mpr ⟨p.manifest, ?_, ?_⟩⟩
  · exact faithful.text _ _ _ _ distinct archive (by simp)
  · exact (mapError_ok _ _ _).mpr (faithful.manifest _ _ ((mapError_ok _ _ _).mp manifest))
  · refine bind_ok.mpr ⟨p.encryptedPayload, (mapError_ok _ _ _).mpr ?_, rfl⟩
    exact faithful.bytes _ _ _ _ distinct archive (by simp)

def bindingFromManifest (m : ZtdfManifest) (label : ConfidentialityLabel) :
    Except LabelError BindingDataObject :=
  match m.natoLabelAssertion with
  | none => .error (.validation "missing nato-label-1")
  | some assertion => do
    let labelEncoding ← serializeXml label
    return ⟨.assertionZtdf, label, labelEncoding, "", some (reassembled assertion label "")⟩

def fromZipSealed (z : ZipFormat) (readTime : TimeReader) (data : Bytes) :
    Except LabelError ZtdfPackage := do
  let (manifest, encryptedPayload) ← z.readZipEntries data
  manifest.validate
  let label ← manifest.label readTime
  let binding ← bindingFromManifest manifest label
  return ⟨manifest, encryptedPayload, ⟨.replicate 32 0⟩, binding⟩

structure Opened (z : ZipFormat) (readTime : TimeReader) (data : Bytes) (manifest : ZtdfManifest)
    (payload : Bytes) (assertion : ZtdfAssertion) (label : ConfidentialityLabel) : Prop where
  entries : z.readZipEntries data = .ok (manifest, payload)
  valid : manifest.validate = .ok ()
  found : manifest.natoLabelAssertion = some assertion
  decoded : deserializeJson readTime assertion.statement.value = .ok label

def sealedPackage (manifest : ZtdfManifest) (payload : Bytes) (assertion : ZtdfAssertion)
    (label : ConfidentialityLabel) : ZtdfPackage where
  manifest := manifest
  encryptedPayload := payload
  contentKey := ⟨.replicate 32 0⟩
  binding := ⟨.assertionZtdf, label, xmlSerialize label, "", some (reassembled assertion label "")⟩

theorem fromZipSealed_ok_iff {z : ZipFormat} {readTime : TimeReader} {data : Bytes}
    {p : ZtdfPackage} : fromZipSealed z readTime data = .ok p ↔
      ∃ manifest payload assertion label,
        Opened z readTime data manifest payload assertion label ∧
        p = sealedPackage manifest payload assertion label := by
  constructor
  · intro opened
    obtain ⟨⟨manifest, payload⟩, entries, opened⟩ := bind_ok.mp opened
    obtain ⟨valid, opened⟩ := check_ok.mp opened
    obtain ⟨label, decoded, opened⟩ := bind_ok.mp opened
    obtain ⟨binding, bound, built⟩ := bind_ok.mp opened
    obtain ⟨assertion, found⟩ := ZtdfManifest.label_found decoded
    rw [bindingFromManifest, found] at bound
    obtain ⟨labelEncoding, text, bound⟩ := bind_ok.mp bound
    obtain ⟨_, rfl⟩ := serializeXml_ok.mp text
    obtain rfl := pure_ok.mp bound
    exact ⟨manifest, payload, assertion, label,
      ⟨entries, valid, found, (ZtdfManifest.label_ok found).mp decoded⟩, (pure_ok.mp built).symm⟩
  · rintro ⟨manifest, payload, assertion, label, opened, rfl⟩
    have decoded := (ZtdfManifest.label_ok opened.found).mpr opened.decoded
    have text := serializeXml_ok.mpr ⟨deserializeJson_valid opened.decoded, rfl⟩
    refine bind_ok.mpr ⟨_, opened.entries, check_ok.mpr ⟨opened.valid, ?_⟩⟩
    refine bind_ok.mpr ⟨label, decoded, bind_ok.mpr ⟨_, ?_, rfl⟩⟩
    rw [bindingFromManifest, opened.found]
    exact bind_ok.mpr ⟨_, text, rfl⟩

variable {P}

omit [MarkupEscape] in
theorem decryptWithPolicy_yields {σ : Type} {readTime : TimeReader} {p : ZtdfPackage}
    {subject : SubjectAttributes} {pep : AuditedPep σ} {domain : SecurityDomain} {kas : KasClient}
    {s t : σ} {plaintext : Bytes} :
    (p.decryptWithPolicy P readTime subject pep domain kas).Yields s plaintext t ↔
      ∃ label decision, p.manifest.label readTime = .ok label ∧
        pep.pep.enforceAccess subject label .read domain = .ok decision ∧
        p.decryptWithKas P kas = .ok plaintext ∧
        t = pep.noted (AuditedPep.accessRecord subject label domain decision) s := by
  constructor
  · intro yields
    obtain ⟨label, _, labelling, rest⟩ := Effect.yields_bind.mp yields
    obtain ⟨decoded, rfl⟩ := Effect.yields_ofExcept.mp labelling
    obtain ⟨decision, _, enforcing, last⟩ := Effect.yields_bind.mp rest
    obtain ⟨permitted, rfl⟩ := AuditedPep.enforceAccess_yields.mp
      (Effect.yields_mapError.mp enforcing)
    obtain ⟨decrypted, rfl⟩ := Effect.yields_ofExcept.mp last
    exact ⟨label, decision, decoded, permitted, decrypted, rfl⟩
  · rintro ⟨label, decision, decoded, permitted, decrypted, rfl⟩
    refine Effect.yields_bind.mpr ⟨label, _, Effect.yields_ofExcept.mpr ⟨decoded, rfl⟩, ?_⟩
    exact Effect.yields_bind.mpr ⟨decision, _, Effect.yields_mapError.mpr
      (AuditedPep.enforceAccess_yields.mpr ⟨permitted, rfl⟩),
      Effect.yields_ofExcept.mpr ⟨decrypted, rfl⟩⟩

theorem sealed_verify_iff {readTime : TimeReader} {manifest : ZtdfManifest} {payload : Bytes}
    {assertion : ZtdfAssertion} {label : ConfidentialityLabel}
    (found : manifest.natoLabelAssertion = some assertion)
    (decoded : deserializeJson readTime assertion.statement.value = .ok label)
    (plaintext : Bytes) (key : VerifyingKey) :
    (sealedPackage manifest payload assertion label).verifyBindingPlaintext P readTime plaintext
        key = .ok () ↔
      (reassembled assertion label (P.sha256Base64 plaintext)).Accepted P plaintext key := by
  have own : (sealedPackage manifest payload assertion label).ownAssertion = none := by
    have blank : isEmpty "" = true := by decide
    simp [ownAssertion, sealedPackage, reassembled, blank]
  rw [← AssertionBinding.verify_ok_iff, verifyBindingPlaintext, own]
  simp only [sealedPackage, found]
  rw [(ZtdfManifest.label_ok found).mpr decoded]
  rfl

structure MadeFrom (P : CryptoProvider) (label : ConfidentialityLabel) (payload : Bytes)
    (signingKey : SigningKey) (a : ZtdfAssertion) : Prop where
  id : a.id = "nato-label-1"
  schema : a.statement.schema = stanag4774Namespace
  value : a.statement.value = toJsonValue label
  method : a.binding.method = "nmb"
  stored : a.signedLabelXml = xmlSerialize label
  binding : AssertionBinding.create P label payload signingKey =
    .ok (reassembled a label (P.sha256Base64 payload))

theorem fromLabel_made {label : ConfidentialityLabel} {payload : Bytes} {signingKey : SigningKey}
    {a : ZtdfAssertion} (made : ZtdfAssertion.fromLabel P label payload signingKey = .ok a) :
    MadeFrom P label payload signingKey a := by
  obtain ⟨valid, made⟩ := check_ok.mp made
  obtain ⟨xml, text, made⟩ := bind_ok.mp made
  obtain ⟨_, rfl⟩ := serializeXml_ok.mp text
  obtain ⟨json, encoded, made⟩ := bind_ok.mp made
  obtain ⟨b, created, made⟩ := bind_ok.mp made
  obtain rfl := pure_ok.mp made
  rw [serializeJson, valid] at encoded
  obtain ⟨_, signature, _, rfl⟩ := (AssertionBinding.create_ok_iff _ _ _ _).mp created
  exact ⟨rfl, rfl, (Except.ok.inj encoded).symm, rfl, rfl, created⟩

omit [MarkupEscape] in
theorem assembled_valid {a : ZtdfAssertion} (id : a.id = "nato-label-1")
    (schema : a.statement.schema = stanag4774Namespace) (method : a.binding.method = "nmb")
    (encrypted : AesGcmCiphertext) (kasKeyId : String) (wrapped : Bytes) (policyB64 : String) :
    (ZtdfManifest.assembled P encrypted kasKeyId wrapped policyB64 a).natoLabelAssertion = some a ∧
      (ZtdfManifest.assembled P encrypted kasKeyId wrapped policyB64 a).validate = .ok () := by
  have found : (ZtdfManifest.assembled P encrypted kasKeyId wrapped policyB64 a).natoLabelAssertion =
      some a := by
    simp [ZtdfManifest.natoLabelAssertion, ZtdfManifest.assembled, id]
  refine ⟨found, ?_⟩
  rw [ZtdfManifest.validate, found]
  simp [ZtdfManifest.assembled, schema, method]

theorem MadeFrom.assembled_valid {label : ConfidentialityLabel} {payload : Bytes}
    {signingKey : SigningKey} {a : ZtdfAssertion} (made : MadeFrom P label payload signingKey a)
    (encrypted : AesGcmCiphertext) (kasKeyId : String) (wrapped : Bytes) (policyB64 : String) :
    (ZtdfManifest.assembled P encrypted kasKeyId wrapped policyB64 a).validate = .ok () :=
  (ZtdfPackage.assembled_valid made.id made.schema made.method encrypted kasKeyId wrapped policyB64).2

structure Created (P : CryptoProvider) (label : ConfidentialityLabel) (plaintext : Bytes)
    (signingKey : SigningKey) (verifyingKey kasPublicKey : VerifyingKey)
    (encrypted : AesGcmCiphertext) (wrapped : Bytes) (a : ZtdfAssertion) (p : ZtdfPackage) :
    Prop where
  generated : P.generateContentKey = .ok p.contentKey
  encryption : P.encryptAes256Gcm p.contentKey plaintext payloadAad = .ok encrypted
  wraps : P.wrapKeyRsaOaepSha256 kasPublicKey p.contentKey = .ok wrapped
  made : ZtdfAssertion.fromLabel P label plaintext signingKey = .ok a
  manifest : p.manifest =
    .assembled P encrypted kasPublicKey.keyId wrapped (defaultPolicyB64 P) a
  payload : p.encryptedPayload = encrypted.toBytes
  bound : BindingDataObject.assertionBound P label plaintext signingKey = .ok p.binding
  accepted : p.binding.Accepted P plaintext verifyingKey

theorem assertionBound_method {label : ConfidentialityLabel} {payload : Bytes} {key : SigningKey}
    {b : BindingDataObject} (bound : BindingDataObject.assertionBound P label payload key = .ok b) :
    b.binding.method = .assertion := by
  obtain ⟨_, _, rfl⟩ := (BindingDataObject.assertionBound_ok_iff _ _ _ _).mp bound
  rfl

theorem create_ok_iff {resolver : DetachedLabelResolver} {label : ConfidentialityLabel}
    {plaintext : Bytes} {signingKey : SigningKey} {verifyingKey kasPublicKey : VerifyingKey}
    {p : ZtdfPackage} :
    create P resolver label plaintext signingKey verifyingKey kasPublicKey = .ok p ↔
      ∃ encrypted wrapped a, Created P label plaintext signingKey verifyingKey kasPublicKey
        encrypted wrapped a p := by
  constructor
  · intro created
    obtain ⟨_, created⟩ := check_ok.mp created
    obtain ⟨cek, generating, created⟩ := bind_ok.mp created
    obtain ⟨encrypted, encrypting, created⟩ := bind_ok.mp created
    obtain ⟨m, building, created⟩ := bind_ok.mp created
    obtain ⟨_, created⟩ := check_ok.mp created
    obtain ⟨b, bound, created⟩ := bind_ok.mp created
    obtain ⟨verified, created⟩ := check_ok.mp created
    obtain rfl := pure_ok.mp created
    obtain ⟨wrapped, wrapping, building⟩ := bind_ok.mp building
    obtain ⟨a, made, building⟩ := bind_ok.mp building
    obtain rfl := pure_ok.mp building
    exact ⟨encrypted, wrapped, a, (mapError_ok _ _ _).mp generating,
      (mapError_ok _ _ _).mp encrypting, (mapError_ok _ _ _).mp wrapping, made, rfl, rfl, bound,
      (BindingDataObject.verify_ok_iff (assertionBound_method bound) _ _ _).mp verified⟩
  · rintro ⟨encrypted, wrapped, a, created⟩
    obtain ⟨m, payload, cek, b⟩ := p
    obtain ⟨generated, encryption, wraps, made, rfl, rfl, bound, accepted⟩ := created
    have valid := (fromLabel_made made).assembled_valid encrypted kasPublicKey.keyId wrapped
      (defaultPolicyB64 P)
    have building : ZtdfManifest.forMimPayload P label plaintext encrypted cek signingKey
        kasPublicKey (defaultPolicyB64 P) = .ok _ :=
      bind_ok.mpr ⟨wrapped, (mapError_ok _ _ _).mpr wraps, bind_ok.mpr ⟨a, made, rfl⟩⟩
    refine check_ok.mpr ⟨(check_ok.mp made).1, ?_⟩
    refine bind_ok.mpr ⟨cek, (mapError_ok _ _ _).mpr generated, ?_⟩
    refine bind_ok.mpr ⟨encrypted, (mapError_ok _ _ _).mpr encryption, ?_⟩
    refine bind_ok.mpr ⟨_, building, check_ok.mpr ⟨valid, ?_⟩⟩
    refine bind_ok.mpr ⟨b, bound, check_ok.mpr ⟨?_, rfl⟩⟩
    exact (BindingDataObject.verify_ok_iff (assertionBound_method bound) _ _ _).mpr accepted

structure Seals (P : CryptoProvider) (kasPublicKey : VerifyingKey) : Prop where
  seals : ∃ cek wrapped, P.generateContentKey = .ok cek ∧
    P.wrapKeyRsaOaepSha256 kasPublicKey cek = .ok wrapped ∧
    ∀ plaintext aad, ∃ c, P.encryptAes256Gcm cek plaintext aad = .ok c

/-- The key server's key undoes the wrapping, and decryption undoes encryption. -/
structure Unseals (P : CryptoProvider) (kasSigningKey : SigningKey) (kasPublicKey : VerifyingKey) :
    Prop where
  unwraps : ∀ cek wrapped, P.wrapKeyRsaOaepSha256 kasPublicKey cek = .ok wrapped →
    P.unwrapKeyRsaOaepSha256 kasSigningKey wrapped = .ok cek
  decrypts : ∀ cek plaintext aad c, P.encryptAes256Gcm cek plaintext aad = .ok c →
    P.decryptAes256Gcm cek c aad = .ok plaintext
  decodes : ∀ bytes, P.base64Decode (P.base64Encode bytes) = .ok bytes

omit [MarkupEscape] in
theorem echoProvider_seals (kasPublicKey : VerifyingKey) : Seals echoProvider kasPublicKey where
  seals := ⟨⟨.replicate 32 0⟩, _, rfl, rfl, fun plaintext _ =>
    ⟨⟨.replicate 12 0, plaintext, .replicate 16 0⟩, rfl⟩⟩

theorem create_released {signing : SigningKey} {verifying kasPublicKey : VerifyingKey}
    (paired : P.Paired signing verifying) (sealing : Seals P kasPublicKey)
    {label : ConfidentialityLabel}
    (policy : MimSpif.SpifRegistry.withDefaults.validateLabel label = .ok ()) {plaintext : Bytes}
    (digest : isEmpty (P.sha256Base64 plaintext) = false) (readTime : TimeReader)
    (resolver : DetachedLabelResolver) :
    ∃ p, create P resolver label plaintext signing verifying kasPublicKey = .ok p ∧
      p.verifyRelease P readTime verifying plaintext = .ok () := by
  have valid := (MimSpif.accepted_stages policy).1
  obtain ⟨cek, wrapped, generated, wraps, encrypts⟩ := sealing.seals
  obtain ⟨encrypted, encryption⟩ := encrypts plaintext payloadAad
  obtain ⟨b, a, bound, _, _, held, _, own, _, accepted⟩ :=
    BindingDataObject.assertionBound_verifies paired policy plaintext
  obtain ⟨a', created, _⟩ := (BindingDataObject.assertionBound_ok_iff _ _ _ _).mp bound
  have json : serializeJson label = .ok (toJsonValue label) := by rw [serializeJson, valid]
  have made : ZtdfAssertion.fromLabel P label plaintext signing = .ok _ :=
    check_ok.mpr ⟨valid, bind_ok.mpr ⟨_, serializeXml_ok.mpr ⟨valid, rfl⟩,
      bind_ok.mpr ⟨_, json, bind_ok.mpr ⟨a', created, rfl⟩⟩⟩⟩
  refine ⟨⟨_, encrypted.toBytes, cek, b⟩, create_ok_iff.mpr ⟨encrypted, wrapped, _, generated,
    encryption, wraps, made, rfl, rfl, bound, accepted⟩, ?_⟩
  refine check_ok.mpr ⟨(fromLabel_made made).assembled_valid _ _ _ _, ?_⟩
  have kept : ∀ m, ZtdfPackage.ownAssertion ⟨m, encrypted.toBytes, cek, b⟩ = some a := by
    intro m
    simp [ownAssertion, held, own, digest]
  obtain ⟨a'', held', signed⟩ := accepted.assertion
  obtain rfl := Option.some.inj (held.symm.trans held')
  rw [verifyBindingPlaintext, kept]
  exact (AssertionBinding.verify_ok_iff _ _ _).mpr signed

theorem create_decrypts {kasSigningKey : SigningKey} {kasPublicKey : VerifyingKey}
    (unsealing : Unseals P kasSigningKey kasPublicKey) {label : ConfidentialityLabel}
    {plaintext : Bytes} {signingKey : SigningKey} {verifyingKey : VerifyingKey}
    {encrypted : AesGcmCiphertext} {wrapped : Bytes} {a : ZtdfAssertion} {p : ZtdfPackage}
    (created : Created P label plaintext signingKey verifyingKey kasPublicKey encrypted wrapped a p) :
    p.decryptWithKas P (localKasClient P kasSigningKey) = .ok plaintext := by
  refine bind_ok.mpr ⟨p.contentKey, ?_, bind_ok.mpr ⟨encrypted, ?_, ?_⟩⟩
  · rw [created.manifest]
    exact bind_ok.mpr ⟨wrapped, (mapError_ok _ _ _).mpr (unsealing.decodes wrapped),
      (mapError_ok _ _ _).mpr (unsealing.unwraps _ _ created.wraps)⟩
  · rw [created.payload]
    exact (mapError_ok _ _ _).mpr (AesGcmCiphertext.fromBytes_toBytes encrypted)
  · exact (mapError_ok _ _ _).mpr (unsealing.decrypts _ _ _ _ created.encryption)

omit [MarkupEscape] in
theorem echoProvider_unseals (kasSigningKey : SigningKey) (kasPublicKey : VerifyingKey) :
    Unseals echoProvider kasSigningKey kasPublicKey where
  unwraps cek wrapped wrapping := by
    obtain rfl := Except.ok.inj wrapping
    simp only [echoProvider, Vector.length_toList, dif_pos]
    exact congrArg _ (congrArg _ (Vector.toArray_inj.mp Array.toArray_toList))
  decrypts cek plaintext aad c encryption := by
    obtain rfl := Except.ok.inj encryption
    rfl
  decodes := (echoProvider_paired ⟨"", []⟩ ⟨"", []⟩ rfl rfl).decodes

theorem opened_relabelled {z : ZipFormat} {readTime : TimeReader} {data : Bytes}
    {label l back : ConfidentialityLabel} {plaintext : Bytes} {signingKey : SigningKey}
    {verifyingKey kasPublicKey : VerifyingKey} {encrypted : AesGcmCiphertext} {wrapped : Bytes}
    {a : ZtdfAssertion} {p : ZtdfPackage}
    (created : Created P label plaintext signingKey verifyingKey kasPublicKey encrypted wrapped a p)
    (entries : z.readZipEntries data = .ok (p.manifest.relabelled l, p.encryptedPayload))
    (decoded : deserializeJson readTime (toJsonValue l) = .ok back) :
    Opened z readTime data (p.manifest.relabelled l) p.encryptedPayload (a.relabelled l) back := by
  have made := fromLabel_made created.made
  have kept := assembled_valid (P := P) (a := a.relabelled l) made.id made.schema made.method
    encrypted kasPublicKey.keyId wrapped (defaultPolicyB64 P)
  have shape : p.manifest.relabelled l = .assembled P encrypted kasPublicKey.keyId wrapped
      (defaultPolicyB64 P) (a.relabelled l) := by
    rw [created.manifest]
    rfl
  exact ⟨entries, shape ▸ kept.2, shape ▸ kept.1, decoded⟩

theorem opened_decodes {z : ZipFormat} {readTime : TimeReader} {data payload : Bytes}
    {label back : ConfidentialityLabel} {plaintext : Bytes} {signingKey : SigningKey}
    {verifyingKey kasPublicKey : VerifyingKey} {encrypted : AesGcmCiphertext} {wrapped : Bytes}
    {a assertion : ZtdfAssertion} {p : ZtdfPackage} {manifest : ZtdfManifest}
    (created : Created P label plaintext signingKey verifyingKey kasPublicKey encrypted wrapped a p)
    (entries : z.readZipEntries data = .ok (p.manifest, p.encryptedPayload))
    (opened : Opened z readTime data manifest payload assertion back) :
    deserializeJson readTime (toJsonValue label) = .ok back := by
  have made := fromLabel_made created.made
  obtain ⟨rfl, _⟩ := Prod.mk.inj (Except.ok.inj (entries.symm.trans opened.entries))
  have found := (assembled_valid (P := P) made.id made.schema made.method encrypted
    kasPublicKey.keyId wrapped (defaultPolicyB64 P)).1
  rw [← created.manifest] at found
  obtain rfl := Option.some.inj (found.symm.trans opened.found)
  rw [← made.value]
  exact opened.decoded

theorem relabelled_self {label : ConfidentialityLabel} {plaintext : Bytes}
    {signingKey : SigningKey} {verifyingKey kasPublicKey : VerifyingKey}
    {encrypted : AesGcmCiphertext} {wrapped : Bytes} {a : ZtdfAssertion} {p : ZtdfPackage}
    (created : Created P label plaintext signingKey verifyingKey kasPublicKey encrypted wrapped a p) :
    p.manifest.relabelled label = p.manifest := by
  have own : a.relabelled label = a := by
    rw [ZtdfAssertion.relabelled, ← (fromLabel_made created.made).value]
  rw [created.manifest]
  simp only [ZtdfManifest.relabelled, ZtdfManifest.assembled, List.map_cons, List.map_nil, own]

omit [MarkupEscape] in
theorem validateLabel_decoded {r : MimSpif.SpifRegistry} {readTime : TimeReader}
    {l back : ConfidentialityLabel} (decoded : deserializeJson readTime (toJsonValue l) = .ok back)
    (accepted : r.validateLabel l = .ok ()) : r.validateLabel back = .ok () := by
  obtain ⟨valid, policy, found, agreed⟩ := MimSpif.accepted_stages accepted
  obtain ⟨_, _, _, _, same⟩ := (deserializeJson_ok_iff valid).mp decoded
  have found' : r.policyForLabel back = some policy := same ▸ found
  simp only [MimSpif.SpifRegistry.validateLabel, deserializeJson_valid decoded, found']
  have agree := json_decoded_agrees valid decoded
  exact (MimSpif.validateAgainstPolicy_congr agree.classification agree.categories policy).trans
    agreed

theorem accepted_relabelled {label l back : ConfidentialityLabel} {plaintext : Bytes}
    {signing : SigningKey} {verifying verifyingKey kasPublicKey : VerifyingKey}
    {encrypted : AesGcmCiphertext} {wrapped : Bytes} {a : ZtdfAssertion} {p : ZtdfPackage}
    (created : Created P label plaintext signing verifyingKey kasPublicKey encrypted wrapped a p)
    (paired : P.Paired signing verifying)
    (policy : MimSpif.SpifRegistry.withDefaults.validateLabel back = .ok ()) :
    (reassembled (a.relabelled l) back (P.sha256Base64 plaintext)).Accepted P plaintext
      verifying :=
  AssertionBinding.withLabel_accepted rfl
    (AssertionBinding.create_accepted paired (fromLabel_made created.made).binding) policy

theorem decrypts_sealed (p : ZtdfPackage) (l l' : ConfidentialityLabel) (a : ZtdfAssertion)
    (kasSigningKey : SigningKey) :
    (sealedPackage (p.manifest.relabelled l) p.encryptedPayload a l').decryptWithKas P
      (localKasClient P kasSigningKey) = p.decryptWithKas P (localKasClient P kasSigningKey) := rfl

end ZtdfPackage

end MimZtdf
