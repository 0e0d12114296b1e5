import MimStack.Audit
import MimStack.Crypto
import MimStack.Lib.HashChain
import MimStack.Lib.Json
import MimStack.Lib.Lines

/-!
Hash-chained audit envelopes and the JSON lines they are kept as. The serializer's
derived forms are written out; its parser is a parameter of whoever reads lines.
-/
namespace MimAudit.Trail
open ByteText RustText Fallible JsonText TextLines MimCore MimCrypto MimLabeling

section Serialized

def optionValue {α : Type} (value : α → Value) : Option α → Value
  | none => .null
  | some a => value a

def classificationName : ClassificationLevel → String
  | .unmarked => "UNMARKED"
  | .publicLevel => "PUBLIC"
  | .unclassified => "UNCLASSIFIED"
  | .internal => "INTERNAL"
  | .restricted => "RESTRICTED"
  | .confidential => "CONFIDENTIAL"
  | .secret => "SECRET"
  | .cosmicTopSecret => "COSMIC_TOP_SECRET"

def categoryTypeName : CategoryType → String
  | .restrictive => "RESTRICTIVE"
  | .permissive => "PERMISSIVE"
  | .informative => "INFORMATIVE"

def eventKindName : AuditEventKind → String
  | .crossDomainEvaluate => "crossDomainEvaluate"
  | .crossDomainTransfer => "crossDomainTransfer"
  | .transportAccess => "transportAccess"
  | .bindingVerify => "bindingVerify"
  | .bindingReject => "bindingReject"

def policyValue (p : LabelPolicy) : Value :=
  .object [("identifier", .string p.identifier), ("oid", optionValue .string p.oid),
    ("allowedClassifications",
      .array (p.allowedClassifications.map fun level => .string (classificationName level)))]

def categoryValue (c : CategoryMarking) : Value :=
  .object [("tagName", .string c.tagName),
    ("categoryType", .string (categoryTypeName c.categoryType)),
    ("values", .array (c.values.map .string))]

def domainValue (d : DomainId) : Value := .string d.text

def timeValue (t : DateTime) : Value := .string t.serialized

mutual

def labelValue : ConfidentialityLabel → Value
  | ⟨policy, classification, privacyMark, colour, markingData, categories, alternativeLabels,
      creationTime, reviewDateTime⟩ =>
    .object [("policy", policyValue policy),
      ("classification", .string (classificationName classification)),
      ("privacyMark", optionValue .string privacyMark), ("colour", optionValue .string colour),
      ("markingData", optionValue .string markingData),
      ("categories", .array (categories.map categoryValue)),
      ("alternativeLabels", .array (labelValues alternativeLabels)),
      ("creationTime", optionValue timeValue creationTime),
      ("reviewDateTime", optionValue timeValue reviewDateTime)]

def labelValues : List ConfidentialityLabel → List Value
  | [] => []
  | label :: rest => labelValue label :: labelValues rest

end

structure StampedRecord extends AuditRecord where
  id : String
  timestamp : DateTime

def recordValue (r : StampedRecord) : Value :=
  .object [("id", .string r.id), ("timestamp", timeValue r.timestamp),
    ("eventKind", .string (eventKindName r.eventKind)), ("subjectId", .string r.subjectId),
    ("sourceDomain", optionValue domainValue r.sourceDomain),
    ("targetDomain", optionValue domainValue r.targetDomain),
    ("originalLabel", labelValue r.originalLabel),
    ("effectiveLabel", optionValue labelValue r.effectiveLabel),
    ("policyRuleId", .string r.policyRuleId), ("decision", .string r.decision),
    ("reason", .string r.reason), ("payloadDigest", optionValue .string r.payloadDigest)]

theorem string_numberFree (s : String) : (Value.string s).NumberFree := trivial

theorem optionValue_numberFree {α : Type} {value : α → Value} (free : ∀ a, (value a).NumberFree)
    (o : Option α) : (optionValue value o).NumberFree := by
  cases o with
  | none => trivial
  | some a => exact free a

theorem map_numberFree {α : Type} {value : α → Value} (free : ∀ a, (value a).NumberFree)
    (items : List α) : (Value.array (items.map value)).NumberFree := by
  refine (itemsNumberFree_iff _).mpr fun v mem => ?_
  obtain ⟨a, _, rfl⟩ := List.mem_map.mp mem
  exact free a

theorem policyValue_numberFree (p : LabelPolicy) : (policyValue p).NumberFree :=
  ⟨trivial, optionValue_numberFree string_numberFree _,
    map_numberFree (fun _ => string_numberFree _) _, trivial⟩

theorem categoryValue_numberFree (c : CategoryMarking) : (categoryValue c).NumberFree :=
  ⟨trivial, trivial, map_numberFree string_numberFree _, trivial⟩

theorem timeValue_numberFree (t : DateTime) : (timeValue t).NumberFree := trivial

theorem domainValue_numberFree (d : DomainId) : (domainValue d).NumberFree := trivial

mutual

theorem labelValue_numberFree : ∀ label : ConfidentialityLabel, (labelValue label).NumberFree
  | ⟨policy, _, privacyMark, colour, markingData, categories, alternativeLabels, creationTime,
      reviewDateTime⟩ =>
    ⟨policyValue_numberFree policy, trivial, optionValue_numberFree string_numberFree privacyMark,
      optionValue_numberFree string_numberFree colour,
      optionValue_numberFree string_numberFree markingData,
      map_numberFree categoryValue_numberFree categories, labelValues_numberFree alternativeLabels,
      optionValue_numberFree timeValue_numberFree creationTime,
      optionValue_numberFree timeValue_numberFree reviewDateTime, trivial⟩

theorem labelValues_numberFree : ∀ labels, ItemsNumberFree (labelValues labels)
  | [] => trivial
  | label :: rest => ⟨labelValue_numberFree label, labelValues_numberFree rest⟩

end

theorem recordValue_numberFree (r : StampedRecord) : (recordValue r).NumberFree :=
  ⟨trivial, trivial, trivial, trivial, optionValue_numberFree domainValue_numberFree _,
    optionValue_numberFree domainValue_numberFree _, labelValue_numberFree _,
    optionValue_numberFree labelValue_numberFree _, trivial, trivial, trivial,
    optionValue_numberFree string_numberFree _, trivial⟩

end Serialized

structure AuditSignature where
  algorithm : String
  keyId : String
  signature : String

structure AuditEnvelope where
  record : StampedRecord
  previousHash : String
  recordHash : String
  signature : Option AuditSignature

namespace AuditEnvelope

variable (P : CryptoProvider)

def hashRecord (record : StampedRecord) (previousHash : String) : String :=
  P.sha256Base64 (utf8 (previousHash ++ "|" ++ (recordValue record).toText))

def sealed (record : StampedRecord) (previousHash : String) : AuditEnvelope where
  record := record
  previousHash := previousHash
  recordHash := hashRecord P record previousHash
  signature := none

def sign (e : AuditEnvelope) (key : SigningKey) : Except String AuditEnvelope := do
  let sig ← (P.signNmbBinding key (utf8 "audit-record") e.recordHash).mapError CryptoError.toString
  return { e with signature := some ⟨nmbsAlgorithm, key.keyId, sig⟩ }

def verifyChain (e : AuditEnvelope) (expectedPrevious : String) : Except String Unit :=
  if e.previousHash ≠ expectedPrevious then .error "audit chain previous hash mismatch"
  else if hashRecord P e.record e.previousHash ≠ e.recordHash then
    .error "audit record hash mismatch"
  else .ok ()

def verifySignature (e : AuditEnvelope) (key : VerifyingKey) : Except String Unit :=
  match e.signature with
  | none => .error "audit envelope is not signed"
  | some signature =>
    if signature.keyId ≠ key.keyId then
      .error ("audit signature key id mismatch: expected " ++ key.keyId ++ ", got " ++
        signature.keyId)
    else (P.verifyNmbBinding key (utf8 "audit-record") e.recordHash signature.signature).mapError
      CryptoError.toString

def Intact (e : AuditEnvelope) : Prop := hashRecord P e.record e.previousHash = e.recordHash

theorem verifyChain_ok (e : AuditEnvelope) (expectedPrevious : String) :
    e.verifyChain P expectedPrevious = .ok () ↔ e.previousHash = expectedPrevious ∧ e.Intact P := by
  unfold verifyChain Intact
  split_ifs with linked intact
  · simp [linked]
  · simp [intact]
  · simp_all

theorem sign_ok {e signed : AuditEnvelope} {key : SigningKey} (done : e.sign P key = .ok signed) :
    signed.record = e.record ∧ signed.previousHash = e.previousHash ∧
      signed.recordHash = e.recordHash := by
  obtain ⟨sig, _, rest⟩ := bind_ok.mp done
  obtain rfl := pure_ok.mp rest
  exact ⟨rfl, rfl, rfl⟩

def signatureValue (s : AuditSignature) : Value :=
  .object [("algorithm", .string s.algorithm), ("keyId", .string s.keyId),
    ("signature", .string s.signature)]

def fields (e : AuditEnvelope) : List (String × Value) :=
  [("record", recordValue e.record), ("previousHash", .string e.previousHash),
    ("recordHash", .string e.recordHash), ("signature", optionValue signatureValue e.signature)]

def toJsonLine (e : AuditEnvelope) : String := (Value.object e.fields).toText

theorem signatureValue_numberFree (s : AuditSignature) : (signatureValue s).NumberFree :=
  ⟨trivial, trivial, trivial, trivial⟩

def lineOf (e : AuditEnvelope) : Bytes := utf8 e.toJsonLine

/-- What an append writes. -/
def endedLine (e : AuditEnvelope) : Bytes := utf8 (e.toJsonLine ++ "\n")

theorem endedLine_eq (e : AuditEnvelope) : e.endedLine = e.lineOf ++ [10] := utf8_append _ _

theorem toJsonLine_braced (e : AuditEnvelope) :
    e.toJsonLine.toList = '\x7b' :: (compactFields e.fields ++ ['\x7d']) := String.toList_ofList

theorem lineOf_braced (e : AuditEnvelope) :
    e.lineOf = 123 :: (utf8 (.ofList (compactFields e.fields)) ++ [125]) := by
  have text : e.toJsonLine = "\x7b" ++ .ofList (compactFields e.fields) ++ "\x7d" := by
    apply String.toList_inj.mp
    simp [toJsonLine_braced]
  have begins : utf8 "\x7b" = [123] := by decide
  have ends : utf8 "\x7d" = [125] := by decide
  rw [lineOf, text, utf8_append, utf8_append, begins, ends, List.append_assoc, List.singleton_append]

theorem lineOf_plain (e : AuditEnvelope) : Plain 10 13 e.lineOf where
  unbroken := by
    have unbroken : '\n' ∉ compact (.object e.fields) :=
      compact_unbroken _ ⟨recordValue_numberFree e.record, trivial, trivial,
        optionValue_numberFree signatureValue_numberFree _, trivial⟩
    intro broken
    obtain ⟨c, inside, newline⟩ := mem_utf8_low broken (by decide)
    have same : c = '\n' := Char.toNat_inj.mp newline
    rw [toJsonLine, Value.toText, String.toList_ofList, same] at inside
    exact unbroken inside
  finish := by
    rw [lineOf_braced, ← List.cons_append, List.getLast?_concat]
    decide

theorem toJsonLine_visible (e : AuditEnvelope) : isEmpty (trim e.toJsonLine) = false :=
  trim_begun e.toJsonLine_braced (by decide)

end AuditEnvelope

/-- A chain of whole entries, each after the one before it. -/
def Linked (P : CryptoProvider) (previous : String) (entries : List AuditEnvelope) : Prop :=
  HashChain.Chained AuditEnvelope.previousHash AuditEnvelope.recordHash (AuditEnvelope.Intact P)
    previous entries

def genesis : String := "GENESIS"

/-- What the next entry has to name. -/
def tipOf (entries : List AuditEnvelope) : String :=
  HashChain.tip AuditEnvelope.recordHash genesis entries

end MimAudit.Trail
