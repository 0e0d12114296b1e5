import MimStack.Subjects
import MimStack.Transport.Secured

/-!
Under which subject a request is served. The TLS loop writes the identity of the
connection's certificate into the request's headers; the routes then read the
identity from the headers alone, in a fixed order of precedence.
-/
namespace MimHttp
open RustText IndexedMap MimLabeling MimPolicy MimTransport

section Headers

structure HeaderValue where
  bytes : List UInt8
  deriving DecidableEq

def isVisibleAscii (b : UInt8) : Bool := (32 ≤ b && b < 127) || b == 9

def isValidHeaderByte (b : UInt8) : Bool := (32 ≤ b && b != 127) || b == 9

def HeaderValue.fromStr (s : String) : Option HeaderValue :=
  let bytes := s.toList.flatMap String.utf8EncodeChar
  if bytes.all isValidHeaderByte then some ⟨bytes⟩ else none

def HeaderValue.toStr (v : HeaderValue) : Option String :=
  if v.bytes.all isVisibleAscii then some (.ofList (v.bytes.map fun b => Char.ofNat b.toNat))
  else none

/-- Header fields in order, under lower-case names. -/
structure HeaderMap where
  fields : List (String × HeaderValue)

def HeaderMap.get (m : HeaderMap) (name : String) : Option HeaderValue :=
  (m.fields.find? fun f => f.1 == toAsciiLowercase name).map Prod.snd

def HeaderMap.insert (m : HeaderMap) (name : String) (v : HeaderValue) : HeaderMap :=
  ⟨(toAsciiLowercase name, v) :: m.fields.filter fun f => f.1 != toAsciiLowercase name⟩

def HeaderMap.text (m : HeaderMap) (name : String) : Option String :=
  (m.get name).bind HeaderValue.toStr

theorem get_insert_same (m : HeaderMap) (name : String) (v : HeaderValue) :
    (m.insert name v).get name = some v := by
  simp [HeaderMap.get, HeaderMap.insert]

theorem get_insert_other (m : HeaderMap) (name other : String) (v : HeaderValue)
    (apart : toAsciiLowercase other ≠ toAsciiLowercase name) :
    (m.insert name v).get other = m.get other := by
  have miss : (toAsciiLowercase name == toAsciiLowercase other) = false := by
    rw [beq_eq_false_iff_ne]
    exact fun same => apart same.symm
  unfold HeaderMap.get HeaderMap.insert
  simp only [List.find?_cons, miss, List.find?_filter]
  congr 2
  funext f
  by_cases hit : f.1 = toAsciiLowercase other
  · simp [hit, apart]
  · simp [hit]

def Visible (c : Char) : Prop := 32 ≤ c.toNat ∧ c.toNat < 127

theorem utf8_visible (c : Char) (visible : Visible c) :
    String.utf8EncodeChar c = [UInt8.ofNat c.toNat] := by
  obtain ⟨_, small⟩ := visible
  have single : c.utf8Size = 1 := by
    rw [Char.utf8Size_eq_one_iff]
    exact Nat.le_of_lt_succ (Nat.lt_succ_of_lt small)
  rw [String.utf8EncodeChar_eq_singleton single]
  rfl

theorem toStr_fromStr (s : String) (visible : ∀ c ∈ s.toList, Visible c) :
    ∃ v, HeaderValue.fromStr s = some v ∧ v.toStr = some s := by
  have encoded : s.toList.flatMap String.utf8EncodeChar =
      s.toList.map fun c => UInt8.ofNat c.toNat := by
    rw [List.flatMap_def, List.map_congr_left fun c mem => utf8_visible c (visible c mem),
      ← List.flatMap_def, List.map_eq_flatMap]
  have back : ∀ c ∈ s.toList, (UInt8.ofNat c.toNat).toNat = c.toNat := by
    intro c mem
    have := (visible c mem).2
    rw [UInt8.toNat_ofNat']
    omega
  have shown : ∀ c ∈ s.toList, isVisibleAscii (UInt8.ofNat c.toNat) = true := by
    intro c mem
    have low := (visible c mem).1
    have high := (visible c mem).2
    simp [isVisibleAscii, UInt8.le_iff_toNat_le, UInt8.lt_iff_toNat_lt, back c mem, low, high]
  have valid : ∀ c ∈ s.toList, isValidHeaderByte (UInt8.ofNat c.toNat) = true := by
    intro c mem
    have low := (visible c mem).1
    have high := (visible c mem).2
    have apart : UInt8.ofNat c.toNat ≠ 127 := by
      intro same
      have := congrArg UInt8.toNat same
      rw [back c mem] at this
      simp at this
      omega
    simp [isValidHeaderByte, UInt8.le_iff_toNat_le, back c mem, low, apart]
  refine ⟨⟨s.toList.map fun c => UInt8.ofNat c.toNat⟩, ?_, ?_⟩
  · simp only [HeaderValue.fromStr, encoded]
    rw [if_pos]
    simpa using valid
  · simp only [HeaderValue.toStr]
    rw [if_pos (by simpa using shown), List.map_map]
    have same : s.toList.map ((fun b => Char.ofNat b.toNat) ∘ fun c => UInt8.ofNat c.toNat) =
        s.toList := by
      conv_rhs => rw [← List.map_id s.toList]
      refine List.map_congr_left fun c mem => ?_
      simp only [Function.comp_apply, back c mem, Char.ofNat_toNat, id]
    rw [same, String.ofList_toList]

end Headers

section Peer

structure X509Attribute where
  attrType : String
  value : Option String

structure X509Certificate where
  subject : List (List X509Attribute)
  subjectText : String

structure CertificateServices where
  sha256 : List UInt8 → List UInt8
  parseCertificate : List UInt8 → Option X509Certificate

def oidX509CommonName : String := "2.5.4.3"

def hexByte (b : UInt8) : List Char := [Nat.digitChar (b.toNat / 16), Nat.digitChar (b.toNat % 16)]

def sha256Hex (services : CertificateServices) (data : List UInt8) : String :=
  .ofList ((services.sha256 data).flatMap hexByte)

theorem sha256Hex_visible (services : CertificateServices) (data : List UInt8) (c : Char)
    (mem : c ∈ (sha256Hex services data).toList) : Visible c := by
  have digit : ∀ n < 16, Visible (Nat.digitChar n) := by
    unfold Visible
    decide
  rw [sha256Hex, String.toList_ofList, List.mem_flatMap] at mem
  obtain ⟨b, _, digits⟩ := mem
  have bound := b.toNat_lt
  rw [hexByte, List.mem_cons, List.mem_singleton] at digits
  rcases digits with rfl | rfl
  · exact digit _ (by omega)
  · exact digit _ (by omega)

structure TlsClientIdentity where
  cn : String
  certSha256 : Option String
  subjectDn : Option String

def clientCnFromCertDer (services : CertificateServices) (der : List UInt8) : Option String :=
  (services.parseCertificate der).bind fun cert =>
    cert.subject.flatten.findSome? fun attr =>
      if attr.attrType = oidX509CommonName then attr.value else none

def clientSubjectDnFromCertDer (services : CertificateServices) (der : List UInt8) :
    Option String :=
  (services.parseCertificate der).map X509Certificate.subjectText

def extractPeerIdentity (services : CertificateServices) (der : List UInt8) :
    TlsClientIdentity where
  cn := (clientCnFromCertDer services der).getD ("cert-" ++ sha256Hex services der)
  certSha256 := some (sha256Hex services der)
  subjectDn := clientSubjectDnFromCertDer services der

end Peer

section Resolution

def headerMimClientCn : String := "X-MIM-Client-CN"
def headerMimClientPrincipal : String := "X-MIM-Client-Principal"
def headerMimClientCertSha256 : String := "X-MIM-Client-Cert-Sha256"
def headerAuthorization : String := "Authorization"
def headerMimTlsClientCn : String := "X-MIM-Tls-Client-CN"
def headerMimTlsClientDn : String := "X-MIM-Tls-Client-DN"

structure AppState where
  subjectResolver : SubjectResolver
  requireClientIdentity : Bool
  fallbackSubject : Option SubjectAttributes
  federationPullUrl : Option String := none
  federationClientCn : Option String := none

def insertText (headers : HeaderMap) (name : String) (text : Option String) : HeaderMap :=
  match text.bind HeaderValue.fromStr with
  | some value => headers.insert name value
  | none => headers

/-- What the accept loop does to a request's headers on a connection with a certificate. -/
def injectPeerIdentity (identity : TlsClientIdentity) (headers : HeaderMap) : HeaderMap :=
  insertText
    (insertText (insertText headers headerMimTlsClientCn (some identity.cn))
      headerMimClientCertSha256 identity.certSha256)
    headerMimTlsClientDn identity.subjectDn

def requestTlsIdentity (headers : HeaderMap) : Option TlsClientIdentity :=
  (headers.text headerMimTlsClientCn).map fun cn =>
    ⟨cn, headers.text headerMimClientCertSha256, headers.text headerMimTlsClientDn⟩

/-- The Authorization header when it carries a bearer token. -/
def bearerAuthorization (headers : HeaderMap) : Option String :=
  (headers.text headerAuthorization).filter fun authorization =>
    startsWith "Bearer " authorization || startsWith "bearer " authorization

/-- Neither header by which a request names its own subject is there. -/
def Unclaimed (headers : HeaderMap) : Prop :=
  bearerAuthorization headers = none ∧ headers.text headerMimClientPrincipal = none

def resolveTlsIdentity (resolver : SubjectResolver) (identity : TlsClientIdentity) :
    Except PolicyError SubjectAttributes :=
  match identity.certSha256 with
  | none => resolver.resolve identity.cn
  | some fingerprint =>
    match resolver.resolveCertFingerprint fingerprint with
    | .ok subject => .ok subject
    | .error _ => resolver.resolve identity.cn

def resolveRequestSubject (codec : BearerCodec) (resolver : SubjectResolver) (headers : HeaderMap)
    (tlsIdentity : Option TlsClientIdentity) (requireIdentity : Bool) :
    Except PolicyError SubjectAttributes :=
  match bearerAuthorization headers with
  | some authorization => resolveSamlBearer codec authorization
  | none =>
    match headers.text headerMimClientPrincipal with
    | some principal => resolver.resolve principal
    | none =>
      match headers.text headerMimClientCertSha256 with
      | some fingerprint => resolver.resolveCertFingerprint fingerprint
      | none =>
        match headers.text headerMimClientCn with
        | some cn => resolver.resolve cn
        | none =>
          match tlsIdentity with
          | some identity => resolveTlsIdentity resolver identity
          | none =>
            if requireIdentity then
              .error (.denied "mTLS client identity required for PEP-gated access")
            else .error (.notFound
              "no client identity in request (mTLS cert fingerprint, CN, or X-MIM-Client-CN header)")

def policyErrorToTransport : PolicyError → TransportError
  | .denied m => .forbidden m
  | .notFound m => .forbidden m
  | .invalid m => .validation m
  | .validation m => .validation m
  | .serialization m => .serialization m

def asTransport : Except PolicyError SubjectAttributes → Except TransportError SubjectAttributes
  | .error e => .error (policyErrorToTransport e)
  | .ok subject => .ok subject

def resolveSubjectForRequest (codec : BearerCodec) (state : AppState) (headers : HeaderMap)
    (tlsIdentity : Option TlsClientIdentity) : Except TransportError SubjectAttributes :=
  match resolveRequestSubject codec state.subjectResolver headers tlsIdentity
      state.requireClientIdentity with
  | .ok subject => .ok subject
  | .error e =>
    match state.fallbackSubject with
    | some fallback =>
      if state.requireClientIdentity then .error (policyErrorToTransport e) else .ok fallback
    | none => .error (policyErrorToTransport e)

/-- The subject of a request that arrives with `headers` on a connection with the client
certificate `peer`. -/
def servedAs (services : CertificateServices) (codec : BearerCodec) (state : AppState)
    (peer : Option (List UInt8)) (headers : HeaderMap) : Except TransportError SubjectAttributes :=
  let seen := match peer with
    | some der => injectPeerIdentity (extractPeerIdentity services der) headers
    | none => headers
  resolveSubjectForRequest codec state seen (requestTlsIdentity seen)

end Resolution

section Precedence

theorem insertText_other (headers : HeaderMap) (name other : String) (text : Option String)
    (apart : toAsciiLowercase other ≠ toAsciiLowercase name) :
    (insertText headers name text).text other = headers.text other := by
  unfold insertText HeaderMap.text
  split
  · rw [get_insert_other headers name other _ apart]
  · rfl

theorem insertText_same (headers : HeaderMap) (name s : String)
    (visible : ∀ c ∈ s.toList, Visible c) :
    (insertText headers name (some s)).text name = some s := by
  obtain ⟨v, written, read⟩ := toStr_fromStr s visible
  simp only [insertText, Option.bind_some, written, HeaderMap.text, get_insert_same, read]

theorem inject_other (identity : TlsClientIdentity) (headers : HeaderMap) (name : String)
    (apart : toAsciiLowercase name ∉ [toAsciiLowercase headerMimTlsClientCn,
      toAsciiLowercase headerMimClientCertSha256, toAsciiLowercase headerMimTlsClientDn]) :
    (injectPeerIdentity identity headers).text name = headers.text name := by
  simp only [List.mem_cons, List.not_mem_nil, or_false, not_or] at apart
  unfold injectPeerIdentity
  rw [insertText_other _ _ _ _ apart.2.2, insertText_other _ _ _ _ apart.2.1,
    insertText_other _ _ _ _ apart.1]

theorem inject_fingerprint (services : CertificateServices) (der : List UInt8)
    (headers : HeaderMap) :
    (injectPeerIdentity (extractPeerIdentity services der) headers).text
      headerMimClientCertSha256 = some (sha256Hex services der) := by
  unfold injectPeerIdentity
  rw [insertText_other _ _ _ _ (by decide)]
  exact insertText_same _ _ _ (sha256Hex_visible services der)

variable (services : CertificateServices) (codec : BearerCodec) (state : AppState)

theorem resolveSubject_required (required : state.requireClientIdentity = true)
    (headers : HeaderMap) (tlsIdentity : Option TlsClientIdentity) :
    resolveSubjectForRequest codec state headers tlsIdentity =
      asTransport (resolveRequestSubject codec state.subjectResolver headers tlsIdentity true) := by
  unfold resolveSubjectForRequest
  rw [required]
  cases resolveRequestSubject codec state.subjectResolver headers tlsIdentity true with
  | ok subject => rfl
  | error e => cases state.fallbackSubject <;> rfl

/-- With the identity required, a bearer token comes first, then the principal header; with
neither, a certificate decides alone, and without one the remaining identity headers do. -/
theorem identity_precedence (required : state.requireClientIdentity = true)
    (peer : Option (List UInt8)) (headers : HeaderMap) :
    (∀ authorization, bearerAuthorization headers = some authorization →
      servedAs services codec state peer headers =
        asTransport (resolveSamlBearer codec authorization)) ∧
    (∀ principal, bearerAuthorization headers = none →
      headers.text headerMimClientPrincipal = some principal →
      servedAs services codec state peer headers =
        asTransport (state.subjectResolver.resolve principal)) ∧
    (∀ der, peer = some der → Unclaimed headers →
      servedAs services codec state peer headers =
        asTransport (state.subjectResolver.resolveCertFingerprint (sha256Hex services der))) ∧
    (peer = none → Unclaimed headers →
      headers.text headerMimClientCertSha256 = none → headers.text headerMimClientCn = none →
      headers.text headerMimTlsClientCn = none →
      servedAs services codec state peer headers =
        .error (.forbidden "mTLS client identity required for PEP-gated access")) := by
  have bearer : ∀ identity, bearerAuthorization (injectPeerIdentity identity headers) =
      bearerAuthorization headers := by
    intro identity
    unfold bearerAuthorization
    rw [inject_other identity headers headerAuthorization (by decide)]
  have principalHeader : ∀ identity, (injectPeerIdentity identity headers).text
      headerMimClientPrincipal = headers.text headerMimClientPrincipal := fun identity =>
    inject_other identity headers headerMimClientPrincipal (by decide)
  unfold servedAs
  simp only [resolveSubject_required codec state required]
  refine ⟨?_, ?_, ?_, ?_⟩
  · intro authorization carried
    cases peer with
    | none => simp only [resolveRequestSubject, carried]
    | some der => simp only [resolveRequestSubject, bearer, carried]
  · intro principal absent carried
    cases peer with
    | none => simp only [resolveRequestSubject, absent, carried]
    | some der => simp only [resolveRequestSubject, bearer, principalHeader, absent, carried]
  · rintro der rfl ⟨noBearer, noPrincipal⟩
    simp only [resolveRequestSubject, bearer, principalHeader, noBearer, noPrincipal,
      inject_fingerprint]
  · rintro rfl ⟨noBearer, noPrincipal⟩ noFingerprint noCn noTls
    simp only [resolveRequestSubject, requestTlsIdentity, noBearer, noPrincipal, noFingerprint,
      noCn, noTls, Option.map_none, if_true, asTransport, policyErrorToTransport]

end Precedence

def requiredFixture : AppState where
  subjectResolver := { ldap := .fromConfig {} [⟨"usa", "usa", "SECRET", none, [], none⟩,
    ⟨"gbr", "gbr", "RESTRICTED", none, [], none⟩] fun _ => .error (.invalid "no live directory") }
  requireClientIdentity := true
  fallbackSubject := none

def servicesFixture : CertificateServices where
  sha256 := fun _ => []
  parseCertificate := fun _ => none

def codecFixture : BearerCodec where
  decodeUrlSafeNoPad := fun _ => .error "Invalid padding"
  decodeStandard := fun _ => .error "Invalid padding"
  claimsFromSlice := fun _ => .error "expected value"

def principalHeaders (principal : String) : HeaderMap :=
  insertText ⟨[]⟩ headerMimClientPrincipal (some principal)

def enrolledFixture : AppState :=
  { requiredFixture with
    subjectResolver.ldap.fingerprintToPrincipal := IndexMap.ofList [("07ff", "usa")] }

def namingServices : CertificateServices where
  sha256 := id
  parseCertificate := fun _ => some ⟨[[⟨oidX509CommonName, some "gbr"⟩]], "CN=gbr"⟩

def analystCodec : BearerCodec where
  decodeUrlSafeNoPad := fun _ => .ok []
  decodeStandard := fun _ => .error "Invalid padding"
  claimsFromSlice := fun _ => .ok { subjectId := "analyst", clearance := "CONFIDENTIAL" }

def labHeaders : HeaderMap :=
  insertText (insertText (insertText ⟨[]⟩ headerMimClientCn (some "gbr"))
    headerMimClientCertSha256 (some "00")) headerMimTlsClientCn (some "gbr")

theorem identity_precedence_fixture :
    servedAs namingServices analystCodec enrolledFixture (some [7, 255])
        (insertText (principalHeaders "gbr") headerAuthorization (some "Bearer e30")) =
      .ok { subjectId := "analyst", clearance := .confidential } ∧
    servedAs namingServices analystCodec enrolledFixture (some [7, 255])
        (insertText labHeaders headerMimClientPrincipal (some "gbr")) =
      .ok { subjectId := "gbr", clearance := .restricted } ∧
    servedAs namingServices analystCodec enrolledFixture (some [7, 255]) labHeaders =
      .ok { subjectId := "usa", clearance := .secret } ∧
    servedAs namingServices analystCodec enrolledFixture none ⟨[]⟩ =
      .error (.forbidden "mTLS client identity required for PEP-gated access") := by
  refine ⟨?_, ?_, ?_, ?_⟩
  · have carried : bearerAuthorization
        (insertText (principalHeaders "gbr") headerAuthorization (some "Bearer e30")) =
          some "Bearer e30" := by
      decide +kernel
    rw [(identity_precedence namingServices analystCodec enrolledFixture rfl _ _).1 _ carried]
    decide +kernel
  · have absent : bearerAuthorization
        (insertText labHeaders headerMimClientPrincipal (some "gbr")) = none := by
      decide +kernel
    have carried : (insertText labHeaders headerMimClientPrincipal (some "gbr")).text
        headerMimClientPrincipal = some "gbr" := by
      decide +kernel
    rw [(identity_precedence namingServices analystCodec enrolledFixture rfl _ _).2.1 _ absent carried]
    decide +kernel
  · have unclaimed : Unclaimed labHeaders := by
      refine ⟨?_, ?_⟩ <;> decide +kernel
    rw [(identity_precedence namingServices analystCodec enrolledFixture rfl _ _).2.2.1 _ rfl unclaimed]
    decide +kernel
  · exact (identity_precedence namingServices analystCodec enrolledFixture rfl none ⟨[]⟩).2.2.2 rfl
      ⟨rfl, rfl⟩ rfl rfl rfl

/-- One certificate is served as two subjects, and a connection without one is served. -/
theorem principal_header_overrides :
    (¬ ∀ (services : CertificateServices) (codec : BearerCodec) (state : AppState),
      state.requireClientIdentity = true → ∀ der headers other subject subject',
        servedAs services codec state (some der) headers = .ok subject →
        servedAs services codec state (some der) other = .ok subject' → subject = subject') ∧
    ¬ ∀ (services : CertificateServices) (codec : BearerCodec) (state : AppState),
      state.requireClientIdentity = true → ∀ headers,
        ∃ e, servedAs services codec state none headers = .error e := by
  have usa : (servedAs servicesFixture codecFixture requiredFixture (some [])
      (principalHeaders "usa")) = .ok { subjectId := "usa", clearance := .secret } := by
    decide +kernel
  have gbr : (servedAs servicesFixture codecFixture requiredFixture (some [])
      (principalHeaders "gbr")) = .ok { subjectId := "gbr", clearance := .restricted } := by
    decide +kernel
  have unconnected : (servedAs servicesFixture codecFixture requiredFixture none
      (principalHeaders "gbr")).isOk = true := by
    decide +kernel
  refine ⟨?_, ?_⟩
  · intro claim
    have same := congrArg SubjectAttributes.clearance (claim _ _ _ rfl _ _ _ _ _ usa gbr)
    cases same
  · intro claim
    obtain ⟨e, refused⟩ := claim servicesFixture codecFixture requiredFixture rfl
      (principalHeaders "gbr")
    rw [refused] at unconnected
    cases unconnected

end MimHttp
