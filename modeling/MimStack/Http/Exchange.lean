import MimStack.Http.Put
import MimStack.Http.Notify
import MimStack.Http.Addressing
import MimStack.Http.PeerPath
import MimStack.Serializer.RoundTrip
import MimStack.Transport.Objects
import MimStack.Transport.Wire

/-!
The exchange routes. A handler reads the request, resolves the subject and takes
the lock for one call on the broker; what it answers is a status, two headers and
a body. A notice of a replication asks for no subject: it pulls from the publisher
the node is configured with. The requests come one after another.
-/
namespace MimHttp.Routes
open RustText Fallible MarkupText ObjectSystems MimCore MimRuntime MimPolicy MimCrypto MimStanag
open MimTransport SecuredExchangeBroker

structure FilterQuery where
  filter : Option String := none
  className : Option String := none
  propertyName : Option String := none
  propertyValue : Option String := none
  limit : Option Nat := none
  offset : Option Nat := none

/-- A request as the router hands it to its handler. -/
inductive HttpRequest where
  | health
  | putObject (headers : HeaderMap) (body : String)
  | getByOid (headers : HeaderMap) (encodedOid : String)
  | getByFilter (headers : HeaderMap) (query : FilterQuery)
  | deleteObject (headers : HeaderMap) (encodedOid : String)
  | syncChanges (headers : HeaderMap) (since : Option Nat)
  /-- A notice, with what the publisher answers to the pull it sets off. -/
  | replicationNotify (answers : RemoteAnswers)

/-- A body is a value that goes out as JSON, or a text. -/
inductive ResponseBody where
  | put (response : PutObjectResponse)
  | found (response : GetByOidResponse)
  | page (response : GetByFilterResponse)
  | deleted (response : DeleteObjectResponse)
  | journal (response : SyncResponse)
  | replicated (report : ReplicationApplyReport)
  | text (s : String)

structure HttpResponse where
  status : Nat
  mimVersion : Option String
  contentType : String
  body : ResponseBody

def transportErrorText : TransportError → String
  | .invalidRequest m => "invalid request: " ++ m
  | .notFound m => "object not found: " ++ m
  | .inactive m => "object inactive: " ++ m
  | .serialization m => "serialization error: " ++ m
  | .validation m => "validation error: " ++ m
  | .forbidden m => "forbidden: " ++ m
  | .unsupported m => "unsupported operation: " ++ m

def errorStatus : TransportError → Nat
  | .notFound _ => 404
  | .inactive _ => 410
  | .forbidden _ => 403
  | .invalidRequest _ | .validation _ => 400
  | .unsupported _ => 405
  | .serialization _ => 422

theorem errorStatus_refuses (e : TransportError) : 400 ≤ errorStatus e := by
  cases e <;> simp [errorStatus]

def mapError (e : TransportError) : HttpResponse :=
  ⟨errorStatus e, none, "text/plain; charset=utf-8", .text (transportErrorText e)⟩

def negotiatedResponse (format : WirePayloadFormat) (status : Nat) (body : ResponseBody) :
    HttpResponse :=
  match format with
  | .json | .jsonLd => ⟨status, some mimVersion, format.contentType, body⟩
  | .xml => ⟨status, some mimVersion, WirePayloadFormat.json.contentType, body⟩

def mimPayloadResponse (format : WirePayloadFormat) (body : String) : HttpResponse :=
  ⟨200, some mimVersion, format.contentType, .text body⟩

def headerMimVersion : String := "MIM-Version"

def versionChecked (headers : HeaderMap) : Except TransportError Unit :=
  (validateMimVersion (headers.text headerMimVersion)).mapError .invalidRequest

structure HttpFederationClient where
  syncUrl : String
  objectsBaseUrl : String
  identityHeaders : HeaderMap

def deriveObjectsBaseUrl (syncUrl : String) : Except TransportError String :=
  match stripSuffix "/sync" (trimEndMatches (· == '/') syncUrl) with
  | some apiBase => .ok (apiBase ++ "/objects")
  | none => .error (.invalidRequest ("federation sync URL must end with /sync: " ++ syncUrl))

namespace HttpFederationClient

/-- The client without its TLS settings. -/
def new (syncUrl : String) : Except TransportError HttpFederationClient := do
  let objectsBaseUrl ← deriveObjectsBaseUrl syncUrl
  return ⟨syncUrl, objectsBaseUrl, ⟨[]⟩⟩

def withClientCn (c : HttpFederationClient) (cn : String) :
    Except TransportError HttpFederationClient :=
  match HeaderValue.fromStr cn with
  | none => .error (.invalidRequest "client CN header: failed to parse header value")
  | some value =>
    .ok { c with identityHeaders := c.identityHeaders.insert headerMimClientCn value }

end HttpFederationClient

structure RouteContext (Q : Type) where
  provider : CryptoProvider
  lib : ExchangeLibraries
  readEnvelope : String → Except String RestEnvelope
  qualities : Qualities Q
  codec : BearerCodec
  trustStore : NmbTrustStore
  state : AppState
  buildHttpClient : Except TransportError Unit := .ok ()

namespace RouteContext

variable {Q : Type} (ctx : RouteContext Q)

def subjectFor (headers : HeaderMap) : Except TransportError SubjectAttributes :=
  resolveSubjectForRequest ctx.codec ctx.state headers (requestTlsIdentity headers)

def federationClient : Except TransportError HttpFederationClient :=
  match ctx.state.federationPullUrl with
  | none => .error
      (.invalidRequest "node is not configured as federation consumer (no pull URL)")
  | some pullUrl => do
    let client ← HttpFederationClient.new pullUrl
    ctx.buildHttpClient
    client.withClientCn (ctx.state.federationClientCn.getD "gbr-analyst.nato.mil")

variable [Preorder Q] [DecidableLT Q]

def negotiatedFormat (headers : HeaderMap) : WirePayloadFormat :=
  negotiateFormat ctx.qualities (headers.text "Accept") .json

variable [MarkupEscape]

/-- An object in the format of the answer: as a value, or as a text of its own. -/
def objectResponse (format : WirePayloadFormat) (response : GetByOidResponse) : HttpResponse :=
  match format with
  | .json => negotiatedResponse format 200 (.found response)
  | .xml | .jsonLd =>
    match wireSerializer.serializeInstance ctx.lib.toWireLibraries response.inst
        format.serializationFormat with
    | .ok body => mimPayloadResponse format body
    | .error e => mapError (.ofMim e)

def pageResponse (format : WirePayloadFormat) (response : GetByFilterResponse) : HttpResponse :=
  match format with
  | .json => negotiatedResponse format 200 (.page response)
  | .xml | .jsonLd =>
    match wireSerializer.serializeStore ctx.lib
        (response.instances.foldl InstanceStore.insert .empty) format.serializationFormat with
    | .ok body => mimPayloadResponse format body
    | .error e => mapError (.ofMim e)

variable [UnicodeCase]

def putObject (s : SecuredExchangeBroker) (headers : HeaderMap) (body : String) :
    Option (HttpResponse × SecuredExchangeBroker) :=
  match versionChecked headers with
  | .error e => some (mapError e, s)
  | .ok () =>
    match ctx.readEnvelope body with
    | .error e => some (mapError (.serialization e), s)
    | .ok envelope =>
      (handlePut ctx.provider ctx.lib.toWireLibraries ctx.codec ctx.trustStore ctx.state s headers
        (requestTlsIdentity headers) envelope).map fun ran =>
          match ran.1 with
          | .error e => (mapError e, ran.2)
          | .ok response => (negotiatedResponse .json 201 (.put response), ran.2)

def getByOid (s : SecuredExchangeBroker) (headers : HeaderMap) (encodedOid : String) :
    HttpResponse :=
  match versionChecked headers with
  | .error e => mapError e
  | .ok () =>
    match parseGetByOid (objectPath encodedOid) with
    | .error e => mapError e
    | .ok request =>
      match ctx.subjectFor headers with
      | .error e => mapError e
      | .ok subject =>
        match s.getByOidAs subject request with
        | .error e => mapError e
        | .ok response => ctx.objectResponse (ctx.negotiatedFormat headers) response

def getByFilter (s : SecuredExchangeBroker) (headers : HeaderMap) (query : FilterQuery) :
    HttpResponse :=
  match filterFromQuery query.filter query.className query.propertyName query.propertyValue
      query.limit query.offset with
  | .error e => mapError e
  | .ok request =>
    match ctx.subjectFor headers with
    | .error e => mapError e
    | .ok subject =>
      match s.getByFilterAs subject request with
      | .error e => mapError e
      | .ok response => ctx.pageResponse (ctx.negotiatedFormat headers) response

def deleteObject (s : SecuredExchangeBroker) (headers : HeaderMap) (encodedOid : String) :
    HttpResponse × SecuredExchangeBroker :=
  match parseDelete (objectPath encodedOid) with
  | .error e => (mapError e, s)
  | .ok request =>
    match ctx.subjectFor headers with
    | .error e => (mapError e, s)
    | .ok subject =>
      match s.deleteObjectAs subject request with
      | (.error e, after) => (mapError e, after)
      | (.ok response, after) => (negotiatedResponse .json 200 (.deleted response), after)

def syncChanges (s : SecuredExchangeBroker) (headers : HeaderMap) (since : Option Nat) :
    HttpResponse :=
  match ctx.subjectFor headers with
  | .error e => mapError e
  | .ok subject => negotiatedResponse .json 200 (.journal (s.syncSinceAs subject (since.getD 0)))

/-- Only a pull that went through replaces the broker. -/
def replicationNotify (s : SecuredExchangeBroker) (answers : RemoteAnswers) :
    Option (HttpResponse × SecuredExchangeBroker) :=
  match ctx.federationClient with
  | .error e => some (mapError e, s)
  | .ok _ =>
    (pullAndApplyRemote httpFederationClient s.inner s.inner.lastAppliedSequence answers).map
      fun pulled =>
        match pulled.1 with
        | .error e => (mapError e, s)
        | .ok report => (negotiatedResponse .json 200 (.replicated report), s.withInner pulled.2.1)

/-- The routes over one broker; a put whose validation does not end gets no answer. -/
def handle : Service SecuredExchangeBroker HttpRequest HttpResponse := fun s request =>
  match request with
  | .health => some (⟨200, none, "text/plain; charset=utf-8", .text "ok"⟩, s)
  | .putObject headers body => ctx.putObject s headers body
  | .getByOid headers encodedOid => some (ctx.getByOid s headers encodedOid, s)
  | .getByFilter headers query => some (ctx.getByFilter s headers query, s)
  | .deleteObject headers encodedOid => some (ctx.deleteObject s headers encodedOid)
  | .syncChanges headers since => some (ctx.syncChanges s headers since, s)
  | .replicationNotify answers => ctx.replicationNotify s answers

end RouteContext

end MimHttp.Routes
