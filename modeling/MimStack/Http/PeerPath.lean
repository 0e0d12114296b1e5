import MimStack.Http.Identity

/-!
The certificate of a connection reaches the resolver by way of the headers: the
accept loop writes its fingerprint under the name that a client's own header has.
The resolver asks a header for the fingerprint alone, while it asks the identity of
the connection for the fingerprint first and for the common name after that.
-/
namespace MimHttp
open RustText MimPolicy

def identityHeaders : List String :=
  [headerAuthorization, headerMimClientPrincipal, headerMimClientCertSha256, headerMimClientCn,
    headerMimTlsClientCn, headerMimTlsClientDn]

def Anonymous (headers : HeaderMap) : Prop := ∀ name ∈ identityHeaders, headers.text name = none

section Paths

variable (services : CertificateServices) (codec : BearerCodec) (resolver : SubjectResolver)
variable (requireIdentity : Bool) (der : List UInt8) (headers : HeaderMap)

/-- What the running server resolves for a request on a connection with the certificate. -/
def servedSubject : Except PolicyError SubjectAttributes :=
  let seen := injectPeerIdentity (extractPeerIdentity services der) headers
  resolveRequestSubject codec resolver seen (requestTlsIdentity seen) requireIdentity

/-- What the resolver says about the certificate itself, without any header. -/
def certificateSubject : Except PolicyError SubjectAttributes :=
  resolveRequestSubject codec resolver ⟨[]⟩ (some (extractPeerIdentity services der)) requireIdentity

theorem certificateSubject_eq :
    certificateSubject services codec resolver requireIdentity der =
      resolveTlsIdentity resolver (extractPeerIdentity services der) := rfl

variable {headers} (anonymous : Anonymous headers)
include anonymous

theorem anonymous_unclaimed : Unclaimed headers := by
  have authorization := anonymous headerAuthorization (by simp [identityHeaders])
  have principal := anonymous headerMimClientPrincipal (by simp [identityHeaders])
  refine ⟨?_, principal⟩
  rw [bearerAuthorization, authorization]
  rfl

theorem servedSubject_eq :
    servedSubject services codec resolver requireIdentity der headers =
      resolver.resolveCertFingerprint (sha256Hex services der) := by
  obtain ⟨noBearer, noPrincipal⟩ := anonymous_unclaimed anonymous
  have bearer : bearerAuthorization
      (injectPeerIdentity (extractPeerIdentity services der) headers) = none := by
    unfold bearerAuthorization at noBearer ⊢
    rw [inject_other _ headers headerAuthorization (by decide)]
    exact noBearer
  have principal : (injectPeerIdentity (extractPeerIdentity services der) headers).text
      headerMimClientPrincipal = none := by
    rw [inject_other _ headers headerMimClientPrincipal (by decide)]
    exact noPrincipal
  simp only [servedSubject, resolveRequestSubject, bearer, principal, inject_fingerprint]

/-- The server and the resolver agree on a certificate exactly when its fingerprint is resolved,
or its fingerprint and its common name fail with the same error; they differ in the subject, and
not only in the error, when the common name alone is resolved. -/
theorem peer_path_agrees_iff :
    (servedSubject services codec resolver requireIdentity der headers =
        certificateSubject services codec resolver requireIdentity der ↔
      (∃ subject, resolver.resolveCertFingerprint (sha256Hex services der) = .ok subject) ∨
        ∃ e, resolver.resolveCertFingerprint (sha256Hex services der) = .error e ∧
          resolver.resolve (extractPeerIdentity services der).cn = .error e) ∧
    ((servedSubject services codec resolver requireIdentity der headers).toOption =
        (certificateSubject services codec resolver requireIdentity der).toOption ↔
      (∃ subject, resolver.resolveCertFingerprint (sha256Hex services der) = .ok subject) ∨
        ∃ e, resolver.resolve (extractPeerIdentity services der).cn = .error e) := by
  rw [servedSubject_eq services codec resolver requireIdentity der anonymous,
    certificateSubject_eq]
  have peer : (extractPeerIdentity services der).certSha256 = some (sha256Hex services der) := rfl
  simp only [resolveTlsIdentity, peer]
  cases resolver.resolveCertFingerprint (sha256Hex services der) with
  | ok subject => simp
  | error e =>
    cases resolver.resolve (extractPeerIdentity services der).cn with
    | ok subject => simp [Except.toOption]
    | error other => simp [Except.toOption, eq_comm]

end Paths

def commonNameServices : CertificateServices where
  sha256 := fun _ => List.replicate 32 0
  parseCertificate := fun _ => some ⟨[[⟨oidX509CommonName, some "usa"⟩]], "CN=usa"⟩

def zeroFingerprint : String := .ofList (List.replicate 64 '0')

def directoryWith (fingerprints : List CertFingerprintMapping) : SubjectResolver where
  ldap := .fromConfig { certFingerprintMappings := fingerprints }
    [⟨"usa", "usa", "SECRET", none, [], none⟩] fun _ => .error (.invalid "no live directory")

theorem anonymous_empty : Anonymous ⟨[]⟩ := fun _ _ => rfl

theorem peer_path_agrees_mapped :
    servedSubject commonNameServices codecFixture (directoryWith [⟨zeroFingerprint, "usa"⟩]) true []
        ⟨[]⟩ =
      certificateSubject commonNameServices codecFixture (directoryWith [⟨zeroFingerprint, "usa"⟩])
        true [] := by
  apply (peer_path_agrees_iff commonNameServices codecFixture
    (directoryWith [⟨zeroFingerprint, "usa"⟩]) true [] anonymous_empty).1.mpr
  exact .inl ⟨{ subjectId := "usa", clearance := .secret }, by decide +kernel⟩

/-- Without a mapping of its fingerprint the server refuses a certificate the resolver knows. -/
theorem peer_path_refuses_known_name :
    Anonymous ⟨[]⟩ ∧
      servedSubject commonNameServices codecFixture (directoryWith []) true [] ⟨[]⟩ =
        .error (.notFound ("certificate fingerprint '" ++ zeroFingerprint ++
          "' not registered in LDAP directory")) ∧
      certificateSubject commonNameServices codecFixture (directoryWith []) true [] =
        .ok { subjectId := "usa", clearance := .secret } :=
  ⟨anonymous_empty, by decide +kernel, by decide +kernel⟩

end MimHttp
