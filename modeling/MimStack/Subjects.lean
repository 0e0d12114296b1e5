import MimStack.Policy

/-!
Who a caller is. A directory maps names and certificate fingerprints to subject
attributes, and a bearer token carries its own claims. Base64, JSON decoding and
the search of a live directory are given from outside.
-/
namespace MimPolicy
open RustText IndexedMap MimLabeling

structure CertSubjectMapping where
  cn : String
  principal : String

structure CertFingerprintMapping where
  certSha256 : String
  principal : String

structure LdapPipConfig where
  fixtureMode : Bool := true
  certMappings : List CertSubjectMapping := []
  certFingerprintMappings : List CertFingerprintMapping := []

structure LdapSubjectEntry where
  principal : String
  subjectId : String
  clearance : String
  nationality : Option String := none
  handlingCaveats : List String := []
  missionId : Option String := none

def LdapSubjectEntry.toSubjectAttributes (e : LdapSubjectEntry) :
    Except PolicyError SubjectAttributes :=
  match ClassificationLevel.parse e.clearance with
  | .error err => .error (.fromLabel err)
  | .ok clearance => .ok ⟨e.subjectId, clearance, e.nationality, e.handlingCaveats, e.missionId⟩

/-- `search` is what a live directory answers; it is asked only outside fixture mode. -/
structure LdapSubjectDirectory where
  fixtureMode : Bool
  entries : IndexMap String LdapSubjectEntry
  certToPrincipal : IndexMap String String
  fingerprintToPrincipal : IndexMap String String
  search : String → Except PolicyError SubjectAttributes

def normalizePrincipal (principal : String) : String := toAsciiLowercase (trim principal)

namespace LdapSubjectDirectory

def fromConfig (config : LdapPipConfig) (entries : List LdapSubjectEntry)
    (search : String → Except PolicyError SubjectAttributes) : LdapSubjectDirectory where
  fixtureMode := config.fixtureMode
  entries := IndexMap.ofList (entries.map fun e => (normalizePrincipal e.principal, e))
  certToPrincipal := IndexMap.ofList (config.certMappings.map fun m => (m.cn, m.principal))
  fingerprintToPrincipal := IndexMap.ofList
    (config.certFingerprintMappings.map fun m => (toAsciiLowercase m.certSha256, m.principal))
  search := search

def resolvePrincipal (d : LdapSubjectDirectory) (principal : String) :
    Except PolicyError SubjectAttributes :=
  if d.fixtureMode then
    let normalized := normalizePrincipal principal
    match (d.entries.get normalized).or
        (d.entries.values.find? fun e => e.subjectId == normalized) with
    | none => .error (.notFound ("LDAP principal '" ++ principal ++
        "' not found in fixture directory"))
    | some entry => entry.toSubjectAttributes
  else d.search principal

def resolveCertCn (d : LdapSubjectDirectory) (cn : String) : Except PolicyError SubjectAttributes :=
  d.resolvePrincipal
    ((d.certToPrincipal.get cn).getD ("uid=" ++ cn ++ ",ou=operators,dc=nato,dc=int"))

def resolveCertFingerprint (d : LdapSubjectDirectory) (fingerprint : String) :
    Except PolicyError SubjectAttributes :=
  match d.fingerprintToPrincipal.get (toAsciiLowercase (trim fingerprint)) with
  | none => .error (.notFound ("certificate fingerprint '" ++ fingerprint ++
      "' not registered in LDAP directory"))
  | some principal => d.resolvePrincipal principal

def resolveCertCnOrPrincipal (d : LdapSubjectDirectory) (identity : String) :
    Except PolicyError SubjectAttributes :=
  if d.certToPrincipal.containsKey identity then d.resolveCertCn identity
  else if d.entries.containsKey (normalizePrincipal identity) ||
      d.entries.values.any (fun e => e.subjectId == identity) then
    d.resolvePrincipal identity
  else d.resolveCertCn identity

end LdapSubjectDirectory

structure SamlSubjectClaims where
  subjectId : String
  clearance : String
  nationality : Option String := none
  handlingCaveats : List String := []
  missionId : Option String := none

def SamlSubjectClaims.toSubjectAttributes (c : SamlSubjectClaims) :
    Except PolicyError SubjectAttributes :=
  match ClassificationLevel.parse c.clearance with
  | .error e => .error (.invalid ("SAML clearance '" ++ c.clearance ++ "': " ++ e.toString))
  | .ok clearance => .ok ⟨c.subjectId, clearance, c.nationality, c.handlingCaveats, c.missionId⟩

/-- Base64 and JSON decoding, with the texts of their errors. -/
structure BearerCodec where
  decodeUrlSafeNoPad : String → Except String (List UInt8)
  decodeStandard : String → Except String (List UInt8)
  claimsFromSlice : List UInt8 → Except String SamlSubjectClaims

def resolveSamlBearer (codec : BearerCodec) (authorization : String) :
    Except PolicyError SubjectAttributes :=
  match (stripPrefix "Bearer " authorization).or (stripPrefix "bearer " authorization) with
  | none => .error (.invalid "expected Bearer authorization scheme")
  | some rest =>
    let token := trim rest
    let bytes : Except String (List UInt8) := match codec.decodeUrlSafeNoPad token with
      | .ok bytes => .ok bytes
      | .error _ => codec.decodeStandard token
    match bytes with
    | .error e => .error (.invalid ("SAML bearer decode: " ++ e))
    | .ok bytes =>
      match codec.claimsFromSlice bytes with
      | .error e => .error (.invalid ("SAML bearer JSON: " ++ e))
      | .ok claims => claims.toSubjectAttributes

def isAsciiHexdigit (c : Char) : Bool :=
  c.isDigit || ('a' ≤ c && c ≤ 'f') || ('A' ≤ c && c ≤ 'F')

structure SubjectResolver where
  ldap : LdapSubjectDirectory
  fallback : Option SubjectAttributes := none

namespace SubjectResolver

def resolve (r : SubjectResolver) (identity : String) : Except PolicyError SubjectAttributes :=
  let byName := match r.ldap.resolveCertCnOrPrincipal identity with
    | .ok subject => .ok subject
    | .error _ =>
      match r.fallback with
      | some fallback =>
        if fallback.subjectId = identity then .ok fallback
        else .error (.notFound ("unresolved identity '" ++ identity ++ "'"))
      | none => .error (.notFound ("unresolved identity '" ++ identity ++ "'"))
  if identity.utf8ByteSize = 64 ∧ identity.toList.all isAsciiHexdigit = true then
    match r.ldap.resolveCertFingerprint identity with
    | .ok subject => .ok subject
    | .error _ => byName
  else byName

def resolveCertFingerprint (r : SubjectResolver) (fingerprint : String) :
    Except PolicyError SubjectAttributes :=
  r.ldap.resolveCertFingerprint fingerprint

end SubjectResolver

end MimPolicy
