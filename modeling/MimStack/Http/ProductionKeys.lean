import MimStack.Http.Disclosure
import MimStack.RuntimePki

/-!
A server that runs on production keys, and envelopes that production keys signed. The
signing key goes by a name that no production trust store gives any of its keys.
-/
namespace MimHttp.Routes
open RustText ByteText Fallible MarkupText ObjectSystems MimCore MimRuntime MimLabeling MimSpif
open MimPolicy MimCrypto MimStanag MimTransport

variable {Q : Type} [MarkupEscape] [Preorder Q] [DecidableLT Q]

def ProductionSigned (P : CryptoProvider) (e : RestEnvelope) : Prop :=
  ∃ B W ring label text, loadKeyRingFor B W .production = .ok ring ∧
    RestEnvelope.wrap P label (utf8 text) ring.nmb.signing = .ok e

/-- A put of such an envelope. -/
def ProductionPut (ctx : RouteContext Q) (request : HttpRequest) : Prop :=
  ∃ headers body e, request = .putObject headers body ∧ ctx.readEnvelope body = .ok e ∧
    ProductionSigned ctx.provider e

variable {ctx : RouteContext Q} {B : KeyBackend} {W : PkiSources}

omit [Preorder Q] [DecidableLT Q] in
theorem production_key_missing (trust : loadTrustStoreFor B W .production = .ok ctx.trustStore)
    {e : RestEnvelope} (signed : ProductionSigned ctx.provider e) (key : VerifyingKey) :
    namedKey ctx.trustStore e ≠ .ok key := by
  obtain ⟨B', W', ring, label, text, loaded, wrapped⟩ := signed
  obtain ⟨a, created, rfl⟩ := (RestEnvelope.wrap_ok_iff _ _ _ _).mp wrapped
  obtain ⟨_, signature, _, rfl⟩ := (AssertionBinding.create_ok_iff _ _ _ _).mp created
  intro named
  exact production_ring_unknown loaded trust key ((mapError_ok _ _ _).mp named)

variable [UnicodeCase] {s final : SecuredExchangeBroker}

theorem production_put_answered (trust : loadTrustStoreFor B W .production = .ok ctx.trustStore)
    {request : HttpRequest} (put : ProductionPut ctx request) (s : SecuredExchangeBroker) :
    ∃ e, ctx.handle s request = some (mapError e, s) := by
  obtain ⟨headers, body, envelope, rfl, read, signed⟩ := put
  unfold RouteContext.handle RouteContext.putObject
  simp only
  cases versionChecked headers with
  | error e => exact ⟨e, rfl⟩
  | ok _ =>
    rw [read]
    unfold handlePut
    cases admitted : admitPut ctx.provider ctx.lib.toWireLibraries ctx.codec ctx.trustStore
        ctx.state headers (requestTlsIdentity headers) envelope with
    | error e =>
      simp only [admitted]
      exact ⟨e, rfl⟩
    | ok pair =>
      obtain ⟨key, route, _⟩ := admitPut_ok_iff.mp admitted
      exact absurd route.key (production_key_missing trust signed key)

open Classical in
/-- In no history does a server on production keys take a put that production keys signed: every
one is refused, and the history without them gets the same answers and ends in the same state. -/
theorem production_puts_refused (trust : loadTrustStoreFor B W .production = .ok ctx.trustStore)
    {requests : List HttpRequest} {responses : List HttpResponse}
    (ran : serve ctx.handle s requests = some (responses, final)) :
    (∀ exchange ∈ requests.zip responses, ProductionPut ctx exchange.1 → 400 ≤ exchange.2.status) ∧
      serve ctx.handle s (((requests.zip responses).filter
        fun exchange => ¬ ProductionPut ctx exchange.1).map Prod.fst) =
          some (((requests.zip responses).filter
            fun exchange => ¬ ProductionPut ctx exchange.1).map Prod.snd, final) := by
  induction requests generalizing s responses with
  | nil =>
    rw [serve, Option.some.injEq, Prod.mk.injEq] at ran
    obtain ⟨rfl, rfl⟩ := ran
    exact ⟨fun exchange none => absurd none List.not_mem_nil, rfl⟩
  | cons request rest ih =>
    obtain ⟨response, mid, more, first, later, rfl⟩ := serve_cons.mp ran
    obtain ⟨statuses, others⟩ := ih later
    rw [List.zip_cons_cons]
    by_cases put : ProductionPut ctx request
    · obtain ⟨e, answered⟩ := production_put_answered trust put s
      rw [answered] at first
      obtain ⟨rfl, rfl⟩ := Prod.mk.inj (Option.some.inj first)
      rw [List.filter_cons_of_neg (by simpa using put)]
      refine ⟨fun exchange member isPut => ?_, others⟩
      rcases List.mem_cons.mp member with rfl | member
      · exact errorStatus_refuses e
      · exact statuses exchange member isPut
    · rw [List.filter_cons_of_pos (by simpa using put), List.map_cons, List.map_cons]
      refine ⟨fun exchange member isPut => ?_, serve_cons.mpr ⟨response, mid, _, first, others, rfl⟩⟩
      rcases List.mem_cons.mp member with rfl | member
      · exact absurd isPut put
      · exact statuses exchange member isPut

section Fixtures

omit [MarkupEscape] [UnicodeCase] [Preorder Q] [DecidableLT Q]

def plainPair (keyId file : String) : KeyPair := ⟨⟨keyId, utf8 file⟩, ⟨keyId, utf8 file⟩⟩

def productionRing : NmbKeyRing :=
  ⟨plainPair "nmb-signing" "nmb.pem", plainPair "kas-signing" "kas.pem"⟩

theorem productionRing_loaded :
    loadKeyRingFor plainBackend productionSources .production = .ok productionRing := by
  have decoded : ∀ path : String, productionSources.file path = .ok (utf8 path) →
      loadPkcs8Der plainBackend productionSources path = .ok (utf8 path) := by
    intro path found
    unfold loadPkcs8Der decodePkcs8Pem
    rw [found]
    refine bind_ok.mpr ⟨_, rfl, bind_ok.mpr ⟨path, ?_, rfl⟩⟩
    rw [fromUtf8_utf8]
    rfl
  unfold loadKeyRingFor loadProductionKeyRing NmbKeyRing.fromPkcs8Files
  refine bind_ok.mpr ⟨"nmb.pem", rfl, bind_ok.mpr ⟨"kas.pem", rfl, ?_⟩⟩
  refine bind_ok.mpr ⟨_, decoded "nmb.pem" rfl, bind_ok.mpr ⟨_, decoded "kas.pem" rfl, ?_⟩⟩
  rfl

open Classical in
theorem production_puts_refused_fixture : letI := entityEscape
    letI := asciiCase
    ∃ (ctx : RouteContext Nat) (refusal : TransportError) (health : HttpResponse),
      loadTrustStoreFor plainBackend productionSources .production = .ok ctx.trustStore ∧
      ProductionPut ctx (.putObject (principalHeaders "gbr") "") ∧
      serve ctx.handle securedFixture [.putObject (principalHeaders "gbr") "", .health] =
        some ([mapError refusal, health], securedFixture) ∧
      400 ≤ (mapError refusal).status ∧
      serve ctx.handle securedFixture [.health] = some ([health], securedFixture) := by
  let : MarkupEscape := entityEscape
  let : UnicodeCase := asciiCase
  have policy : SpifRegistry.withDefaults.validateLabel (.new .nato .unclassified) = .ok () :=
    nato_accepts .unclassified (by decide) [] (by decide)
  obtain ⟨e, _, wrapped, _⟩ := RestEnvelope.wrap_verifies
    (echoProvider_paired productionRing.nmb.signing productionRing.nmb.verifying rfl rfl) policy "ok"
  obtain ⟨t, trusted⟩ : ∃ t, loadTrustStoreFor plainBackend productionSources .production = .ok t :=
    ⟨_, provisioned_store productionSources_provisioned (by simp [trustFiles])⟩
  let ctx : RouteContext Nat := { exchangeFixture e with trustStore := t }
  have put : ProductionPut ctx (.putObject (principalHeaders "gbr") "") :=
    ⟨_, _, e, rfl, rfl, _, _, productionRing, _, "ok", productionRing_loaded, wrapped⟩
  have other : ¬ ProductionPut ctx .health := by
    rintro ⟨_, _, _, same, _⟩
    cases same
  have trust : loadTrustStoreFor plainBackend productionSources .production = .ok ctx.trustStore :=
    trusted
  obtain ⟨refusal, answered⟩ := production_put_answered trust put securedFixture
  have ran : serve ctx.handle securedFixture [.putObject (principalHeaders "gbr") "", .health] =
      some ([mapError refusal, _], securedFixture) :=
    serve_cons.mpr ⟨_, _, _, answered, serve_cons.mpr ⟨_, _, _, rfl, rfl, rfl⟩, rfl⟩
  obtain ⟨statuses, others⟩ := production_puts_refused trust ran
  rw [List.zip_cons_cons, List.filter_cons_of_neg (by simpa using put), List.zip_cons_cons,
    List.filter_cons_of_pos (by simpa using other)] at others
  exact ⟨ctx, refusal, _, trust, put, ran, statuses _ List.mem_cons_self put, others⟩

end Fixtures

end MimHttp.Routes
