import MimStack.Http.Exchange
import MimStack.Transport.Federation

/-!
Replication over HTTP. The client derives the addresses of its requests from the sync
URL alone; the server's router and handlers take them apart again. Pulling through
both is pulling from the publisher as its subscriber sees it, but for error texts.
-/
namespace MimHttp.Routes
open RustText ByteText PercentText Fallible MarkupText ObjectSystems StepRuns MimCore MimRuntime
open MimPolicy MimCrypto MimStanag MimTransport SecuredExchangeBroker

def mapHttpStatus (status : Nat) (url : String) : TransportError :=
  if status = 404 then .notFound url
  else if status = 410 then .inactive url
  else if status = 403 then .forbidden ("PEP denied GET " ++ url)
  else .validation ("GET " ++ url ++ " returned HTTP " ++ Nat.repr status)

/-- One GET over the network: it fails, or comes back with a status and a body. -/
abbrev HttpGet (W : Type) :=
  String → HeaderMap → W → Option (Except String (Nat × ResponseBody) × W)

structure BodyReading where
  readSync : ResponseBody → Except String SyncResponse
  readObject : ResponseBody → Except String GetByOidResponse
  statusText : Nat → String

/-- A journal that went out as JSON is read back: its entries hold texts and whole numbers. -/
def BodyReading.Faithful (reading : BodyReading) : Prop :=
  ∀ response, reading.readSync (.journal response) = .ok response

/-- An object that goes out as JSON is read back; numbers and deep nesting may stand in the way. -/
def BodyReading.ReadsBack (reading : BodyReading) (i : MimInstance) : Prop :=
  reading.readObject (.found ⟨i⟩) = .ok ⟨i⟩

def isSuccess (status : Nat) : Bool := 200 ≤ status && status < 300

namespace HttpFederationClient

variable {W : Type} (reading : BodyReading) (get : HttpGet W) (c : HttpFederationClient)

def syncRequestUrl (since : Nat) : String :=
  if since = 0 then c.syncUrl else c.syncUrl ++ "?since=" ++ Nat.repr since

def instanceUrl (oid : ObjectIdentifier) : String :=
  c.objectsBaseUrl ++ "/" ++ encodeOidForPath oid.text

def readSyncAnswer (url : String) :
    Except String (Nat × ResponseBody) → Except TransportError SyncResponse
  | .error e => .error (.validation ("sync GET failed: " ++ e))
  | .ok (status, body) =>
    if isSuccess status then (reading.readSync body).mapError .serialization
    else .error (.validation ("sync GET " ++ url ++ " returned " ++ reading.statusText status))

def readInstanceAnswer (url : String) :
    Except String (Nat × ResponseBody) → Except TransportError MimInstance
  | .error e => .error (.validation ("object GET failed: " ++ e))
  | .ok (status, body) =>
    if isSuccess status then
      ((reading.readObject body).mapError .serialization).map fun response => response.inst
    else .error (mapHttpStatus status url)

def publisher : FederationPublisher W where
  fetchSync := fun since w => (get (c.syncRequestUrl since) c.identityHeaders w).map fun r =>
    (readSyncAnswer reading (c.syncRequestUrl since) r.1, r.2)
  fetchInstance := fun oid w => (get (c.instanceUrl oid) c.identityHeaders w).map fun r =>
    (readInstanceAnswer reading (c.instanceUrl oid) r.1, r.2)

end HttpFederationClient

structure Router where
  extract : String → Option String
  sinceQuery : String → Option (Option Nat)
  filterQuery : String → Option FilterQuery

structure Router.Sound (router : Router) : Prop where
  segment : DecodesOnce router.extract
  unqueried : router.sinceQuery "" = some none
  since : ∀ n ≤ u64Max, router.sinceQuery ("since=" ++ Nat.repr n) = some (some n)

def routeGet (router : Router) (headers : HeaderMap) (target : String) : Option HttpRequest :=
  let path : String := .ofList (target.toList.takeWhile (· != '?'))
  let query : String := .ofList ((target.toList.dropWhile (· != '?')).drop 1)
  if path = "/mip4-ies/v1/sync" then (router.sinceQuery query).map (.syncChanges headers)
  else if path = "/mip4-ies/v1/objects" then
    (router.filterQuery query).map (.getByFilter headers)
  else if path = "/health" then some .health
  else
    match stripPrefix "/mip4-ies/v1/objects/" path with
    | some segment =>
      if isEmpty segment || '/' ∈ segment.toList then none
      else (router.extract segment).map (.getByOid headers)
    | none => none

/-- The library sends what it accepts unless the request says it. -/
def withAccept (headers : HeaderMap) : HeaderMap :=
  match headers.get "Accept" with
  | some _ => headers
  | none => headers.insert "Accept" ⟨utf8 "*/*"⟩

def isDots (dots segment : String) : Bool := decode (utf8 segment) == utf8 dots

/-- One dot stands for the place itself, two for the one above. -/
def dropDots : List String → List String → List String
  | done, [] => done.reverse
  | done, segment :: rest =>
    if isDots "." segment then dropDots (if rest.isEmpty then "" :: done else done) rest
    else if isDots ".." segment then
      dropDots (if rest.isEmpty then "" :: done.tail else done.tail) rest
    else dropDots (segment :: done) rest

/-- The library drops the dotted segments of a path before it sends the request. -/
def sentTarget (target : String) : String :=
  match target.toList.takeWhile (· != '?') with
  | '/' :: path =>
    "/" ++ join "/" (dropDots [] (split (· == '/') (.ofList path))) ++
      .ofList (target.toList.dropWhile (· != '?'))
  | _ => target

structure HttpSite (Q : Type) where
  origin : String
  router : Router
  ctx : RouteContext Q
  peer : Option TlsClientIdentity

/-- The headers of a request as they come to the handlers. -/
def HttpSite.arrived {Q : Type} (site : HttpSite Q) (headers : HeaderMap) : HeaderMap :=
  match site.peer with
  | some identity => injectPeerIdentity identity (withAccept headers)
  | none => withAccept headers

section Sites

variable {Q : Type} [MarkupEscape] [Preorder Q] [DecidableLT Q] [UnicodeCase]

/-- What the server sends back; before it answers for an object, writers come first. -/
def HttpSite.answer (site : HttpSite Q) (request : HttpRequest) (w : RacingPublisher) :
    Option (Except String (Nat × ResponseBody) × RacingPublisher) :=
  match request with
  | .getByOid _ _ =>
    let event := w.upcoming.headD {}
    (run securedStep w.broker event.writes).bind fun broker =>
      match event.failure with
      | some e => some (.error (transportErrorText e), ⟨broker, w.upcoming.tail⟩)
      | none => (site.ctx.handle broker request).map fun r =>
          (.ok (r.1.status, r.1.body), ⟨r.2, w.upcoming.tail⟩)
  | _ => (site.ctx.handle w.broker request).map fun r =>
      (.ok (r.1.status, r.1.body), ⟨r.2, w.upcoming⟩)

def HttpSite.get (site : HttpSite Q) : HttpGet RacingPublisher := fun url headers w =>
  match stripPrefix site.origin url with
  | none => some (.error "error sending request", w)
  | some target =>
    match routeGet site.router (site.arrived headers) (sentTarget target) with
    | none => some (.ok (404, .text ""), w)
    | some request => site.answer request w

end Sites

section Addresses

theorem hexDigit_mem (n : UInt8) : hexDigit n ∈ "0123456789ABCDEF".toList := by
  unfold hexDigit
  rw [List.getD_eq_getElem?_getD]
  cases here : "0123456789ABCDEF".toList[n.toNat]? with
  | none => decide
  | some c => exact List.mem_of_getElem? here

theorem encodeOidForPath_segment (oid : String) :
    ∀ c ∈ (encodeOidForPath oid).toList, c ≠ '/' ∧ c ≠ '?' := by
  have token : ∀ n < 256, isPathToken (UInt8.ofNat n) = true →
      Char.ofNat n ≠ '/' ∧ Char.ofNat n ≠ '?' := by decide +kernel
  have digit : ∀ c ∈ "0123456789ABCDEF".toList, c ≠ '/' ∧ c ≠ '?' := by simp
  intro c member
  rw [encodeOidForPath, encode, String.toList_ofList, List.mem_flatMap] at member
  obtain ⟨b, _, part⟩ := member
  unfold encodeByte at part
  split at part
  · rename_i kept
    rw [List.mem_singleton.mp part]
    refine token b.toNat b.toNat_lt ?_
    rw [UInt8.ofNat_toNat]
    exact kept
  · simp only [List.mem_cons, List.not_mem_nil, or_false] at part
    rcases part with rfl | rfl | rfl
    · decide
    · exact digit _ (hexDigit_mem _)
    · exact digit _ (hexDigit_mem _)

theorem deriveObjectsBaseUrl_sync (origin : String) :
    deriveObjectsBaseUrl (origin ++ "/mip4-ies/v1/sync") = .ok (origin ++ "/mip4-ies/v1/objects") := by
  have whole : origin ++ "/mip4-ies/v1/sync" = origin ++ "/mip4-ies/v1" ++ "/sync" := by
    rw [String.append_assoc]
    rfl
  have objects : origin ++ "/mip4-ies/v1/objects" = origin ++ "/mip4-ies/v1" ++ "/objects" := by
    rw [String.append_assoc]
    rfl
  have last : (origin ++ "/mip4-ies/v1" ++ "/sync").toList.getLast? = some 'c' := by
    rw [String.toList_append, List.getLast?_append_of_ne_nil _ (by decide)]
    decide
  have kept : trimEndMatches (· == '/') (origin ++ "/mip4-ies/v1" ++ "/sync") =
      origin ++ "/mip4-ies/v1" ++ "/sync" := by
    rw [trimEndMatches, (rdropWhile_whole_iff _ _).mpr, String.ofList_toList]
    intro c ends
    rw [last, Option.mem_some_iff] at ends
    rw [← ends]
    decide
  rw [deriveObjectsBaseUrl, whole, kept, stripSuffix_append, objects]

theorem routed_path (path : String) (plain : '?' ∉ path.toList) :
    path.toList.takeWhile (· != '?') = path.toList ∧ path.toList.dropWhile (· != '?') = [] := by
  have all : ∀ c ∈ path.toList, (c != '?') = true := by
    intro c member
    rw [bne_iff_ne]
    exact fun same => plain (same ▸ member)
  exact ⟨List.takeWhile_eq_self_iff.mpr all, List.dropWhile_eq_nil_iff.mpr all⟩

theorem routed_query (path : String) (plain : '?' ∉ path.toList) (query : String) :
    (path ++ "?" ++ query).toList.takeWhile (· != '?') = path.toList ∧
      (path ++ "?" ++ query).toList.dropWhile (· != '?') = '?' :: query.toList := by
  obtain ⟨kept, none⟩ := routed_path _ plain
  have mark : (path ++ "?" ++ query).toList = path.toList ++ '?' :: query.toList := by
    rw [String.append_assoc, String.toList_append, String.toList_append]
    rfl
  rw [mark]
  constructor
  · rw [List.takeWhile_append_of_pos (List.takeWhile_eq_self_iff.mp kept)]
    simp
  · rw [List.dropWhile_append_of_pos (List.dropWhile_eq_nil_iff.mp none)]
    simp

def Undotted (segment : String) : Prop := isDots "." segment = false ∧ isDots ".." segment = false

theorem dropDots_kept {parts : List String} (undotted : ∀ part ∈ parts, Undotted part)
    (done : List String) : dropDots done parts = done.reverse ++ parts := by
  induction parts generalizing done with
  | nil => exact (List.append_nil _).symm
  | cons part rest ih =>
    obtain ⟨single, double⟩ := undotted part List.mem_cons_self
    rw [dropDots, single, double, if_neg Bool.false_ne_true, if_neg Bool.false_ne_true,
      ih fun other member => undotted other (List.mem_cons_of_mem part member), List.reverse_cons,
      List.append_assoc, List.singleton_append]

theorem sentTarget_kept {target query : String} {first : String} {rest : List String}
    (path : String.ofList (target.toList.takeWhile (· != '?')) = "/" ++ join "/" (first :: rest))
    (asked : target.toList.dropWhile (· != '?') = query.toList)
    (single : ∀ part ∈ first :: rest, '/' ∉ part.toList)
    (undotted : ∀ part ∈ first :: rest, Undotted part) : sentTarget target = target := by
  have whole : ∀ part ∈ first :: rest, split (· == '/') part = [part] := by
    intro part member
    refine split_whole fun c inside => beq_eq_false_iff_ne.mpr ?_
    rintro rfl
    exact single part member inside
  have parts : split (· == '/') (join "/" (first :: rest)) = first :: rest := by
    have slash : "/" = String.singleton '/' := rfl
    rw [slash, @split_join (fun c => c == '/') '/' rfl first rest, List.flatMap_congr whole,
      List.flatMap_singleton']
  have chars := congrArg String.toList path
  rw [String.toList_ofList, String.toList_append] at chars
  have begun : target.toList.takeWhile (· != '?') = '/' :: (join "/" (first :: rest)).toList := chars
  have again : target = "/" ++ join "/" (first :: rest) ++ query := by
    refine String.toList_inj.mp ?_
    rw [String.toList_append, String.toList_append, ← chars, ← asked]
    exact List.takeWhile_append_dropWhile.symm
  unfold sentTarget
  rw [begun]
  simp only [String.ofList_toList, parts, dropDots_kept undotted, List.reverse_nil, List.nil_append,
    asked]
  exact again.symm

theorem api_undotted : ∀ part ∈ ["mip4-ies", "v1", "sync", "objects"],
    '/' ∉ part.toList ∧ Undotted part := by
  unfold Undotted
  decide +kernel

theorem sent_sync : sentTarget "/mip4-ies/v1/sync" = "/mip4-ies/v1/sync" := by
  obtain ⟨path, query⟩ := routed_path "/mip4-ies/v1/sync" (by decide)
  refine @sentTarget_kept _ "" "mip4-ies" ["v1", "sync"] ?_ query ?_ ?_
  · rw [path]
    decide
  · exact fun part member => (api_undotted part (by simp at member ⊢; tauto)).1
  · exact fun part member => (api_undotted part (by simp at member ⊢; tauto)).2

theorem sent_since (query : String) :
    sentTarget ("/mip4-ies/v1/sync" ++ "?" ++ query) = "/mip4-ies/v1/sync" ++ "?" ++ query := by
  obtain ⟨path, asked⟩ := routed_query "/mip4-ies/v1/sync" (by decide) query
  refine @sentTarget_kept _ ("?" ++ query) "mip4-ies" ["v1", "sync"] ?_ ?_ ?_ ?_
  · rw [path]
    decide
  · rw [asked, String.toList_append]
    rfl
  · exact fun part member => (api_undotted part (by simp at member ⊢; tauto)).1
  · exact fun part member => (api_undotted part (by simp at member ⊢; tauto)).2

theorem encodeOidForPath_undotted {text : String} (apart : text ≠ "." ∧ text ≠ "..") :
    Undotted (encodeOidForPath text) := by
  have decoded := decode_encode isPathToken_sound (utf8 text)
  rw [← encodeOidForPath] at decoded
  unfold Undotted isDots
  rw [decoded]
  exact ⟨beq_eq_false_iff_ne.mpr fun same => apart.1 (utf8_injective same),
    beq_eq_false_iff_ne.mpr fun same => apart.2 (utf8_injective same)⟩

theorem sent_object {text : String} (apart : text ≠ "." ∧ text ≠ "..") :
    sentTarget ("/mip4-ies/v1/objects/" ++ encodeOidForPath text) =
      "/mip4-ies/v1/objects/" ++ encodeOidForPath text := by
  have safe := encodeOidForPath_segment text
  have plain : '?' ∉ ("/mip4-ies/v1/objects/" ++ encodeOidForPath text).toList := by
    rw [String.toList_append, List.mem_append]
    rintro (fixed | part)
    · revert fixed
      decide
    · exact (safe _ part).2 rfl
  obtain ⟨path, query⟩ := routed_path _ plain
  have listed : ∀ part ∈ ["mip4-ies", "v1", "objects", encodeOidForPath text],
      '/' ∉ part.toList ∧ Undotted part := by
    intro part member
    by_cases own : part = encodeOidForPath text
    · rw [own]
      exact ⟨fun slash => (safe _ slash).1 rfl, encodeOidForPath_undotted apart⟩
    · exact api_undotted part (by simp at member ⊢; tauto)
  refine @sentTarget_kept _ "" "mip4-ies" ["v1", "objects", encodeOidForPath text] ?_ query
    (fun part member => (listed part member).1) fun part member => (listed part member).2
  rw [path, String.ofList_toList]
  have joined : "/" ++ join "/" ["mip4-ies", "v1", "objects", encodeOidForPath text] =
      "/" ++ ("mip4-ies" ++ "/" ++ ("v1" ++ "/" ++ ("objects" ++ "/" ++ encodeOidForPath text))) := rfl
  have fixed : "/mip4-ies/v1/objects/" = "/" ++ "mip4-ies" ++ "/" ++ "v1" ++ "/" ++ "objects" ++ "/" := by
    decide
  rw [joined, fixed]
  simp only [String.append_assoc]

variable {router : Router} (sound : router.Sound) (headers : HeaderMap)
include sound

theorem routeGet_sync : routeGet router headers "/mip4-ies/v1/sync" =
    some (.syncChanges headers none) := by
  obtain ⟨path, query⟩ := routed_path "/mip4-ies/v1/sync" (by decide)
  have empty : (String.ofList []) = "" := rfl
  unfold routeGet
  simp only [path, query, String.ofList_toList, List.drop_nil, empty, if_true, sound.unqueried,
    Option.map_some]

theorem routeGet_since {n : Nat} (bound : n ≤ u64Max) :
    routeGet router headers ("/mip4-ies/v1/sync" ++ "?" ++ ("since=" ++ Nat.repr n)) =
      some (.syncChanges headers (some n)) := by
  obtain ⟨path, query⟩ := routed_query "/mip4-ies/v1/sync" (by decide)
    ("since=" ++ Nat.repr n)
  unfold routeGet
  simp only [path, query, String.ofList_toList, List.drop_succ_cons, List.drop_zero, if_true,
    sound.since n bound, Option.map_some]

theorem routeGet_object {text : String} (filled : isEmpty text = false) :
    routeGet router headers ("/mip4-ies/v1/objects/" ++ encodeOidForPath text) =
      some (.getByOid headers text) := by
  have safe := encodeOidForPath_segment text
  have plain : '?' ∉ ("/mip4-ies/v1/objects/" ++ encodeOidForPath text).toList := by
    rw [String.toList_append, List.mem_append]
    rintro (fixed | part)
    · revert fixed
      decide
    · exact (safe _ part).2 rfl
  have apart : ∀ other : String, ¬ "/mip4-ies/v1/objects/".toList <+: other.toList →
      "/mip4-ies/v1/objects/" ++ encodeOidForPath text ≠ other := by
    rintro other unlike rfl
    rw [String.toList_append] at unlike
    exact unlike (List.prefix_append _ _)
  have segment : isEmpty (encodeOidForPath text) = false := by
    refine Bool.eq_false_iff.mpr fun blank => ?_
    have empty : encodeOidForPath text = "" := String.toList_eq_nil_iff.mp (List.isEmpty_iff.mp blank)
    have decoded := decode_encode isPathToken_sound (utf8 text)
    rw [← encodeOidForPath, empty] at decoded
    have nothing : text = "" := utf8_injective decoded.symm
    rw [nothing] at filled
    cases filled
  have single : '/' ∉ (encodeOidForPath text).toList := fun slash => (safe _ slash).1 rfl
  obtain ⟨path, query⟩ := routed_path _ plain
  unfold routeGet
  simp only [path, query, String.ofList_toList,
    if_neg (apart "/mip4-ies/v1/sync" (by decide)),
    if_neg (apart "/mip4-ies/v1/objects" (by decide)), if_neg (apart "/health" (by decide)),
    (stripPrefix_some_iff _ _ _).mpr rfl, segment, single, decide_false, Bool.or_self,
    Bool.false_eq_true, if_false, router_decodes sound.segment, Option.map_some]

end Addresses

/-- A client for a publisher's sync URL that names itself, as the notify handler and
`from_federation_config` build it. -/
def connect (origin cn : String) : Except TransportError HttpFederationClient := do
  let client ← HttpFederationClient.new (origin ++ "/mip4-ies/v1/sync")
  client.withClientCn cn

theorem connect_ok {origin cn : String} {c : HttpFederationClient}
    (connected : connect origin cn = .ok c) :
    c.syncUrl = origin ++ "/mip4-ies/v1/sync" ∧
      c.objectsBaseUrl = origin ++ "/mip4-ies/v1/objects" ∧
      ∃ value, c.identityHeaders = HeaderMap.insert ⟨[]⟩ headerMimClientCn value := by
  unfold connect HttpFederationClient.new at connected
  rw [deriveObjectsBaseUrl_sync] at connected
  change HttpFederationClient.withClientCn ⟨origin ++ "/mip4-ies/v1/sync",
    origin ++ "/mip4-ies/v1/objects", ⟨[]⟩⟩ cn = .ok c at connected
  unfold HttpFederationClient.withClientCn at connected
  split at connected
  · cases connected
  · rename_i value _
    obtain rfl := Except.ok.inj connected
    exact ⟨rfl, rfl, value, rfl⟩

section Arrival

variable {Q : Type} (site : HttpSite Q) (value : HeaderValue)

theorem arrived_text :
    (site.arrived (HeaderMap.insert ⟨[]⟩ headerMimClientCn value)).text headerMimVersion = none ∧
      (site.arrived (HeaderMap.insert ⟨[]⟩ headerMimClientCn value)).text "Accept" =
        some "*/*" := by
  have unsaid : ∀ name, toAsciiLowercase name ≠ toAsciiLowercase headerMimClientCn →
      (HeaderMap.insert ⟨[]⟩ headerMimClientCn value).get name = none := by
    intro name apart
    rw [get_insert_other _ _ _ _ apart]
    rfl
  have accept := unsaid "Accept" (by decide)
  have sent : withAccept (HeaderMap.insert ⟨[]⟩ headerMimClientCn value) =
      (HeaderMap.insert ⟨[]⟩ headerMimClientCn value).insert "Accept" ⟨utf8 "*/*"⟩ := by
    rw [withAccept, accept]
  have plain : (withAccept (HeaderMap.insert ⟨[]⟩ headerMimClientCn value)).text headerMimVersion =
        none ∧ (withAccept (HeaderMap.insert ⟨[]⟩ headerMimClientCn value)).text "Accept" =
          some "*/*" := by
    rw [sent, HeaderMap.text, HeaderMap.text, get_insert_same,
      get_insert_other _ _ _ _ (by decide), unsaid headerMimVersion (by decide)]
    exact ⟨rfl, by decide⟩
  unfold HttpSite.arrived
  cases site.peer with
  | none => exact plain
  | some identity =>
    rw [inject_other _ _ _ (by decide), inject_other _ _ _ (by decide)]
    exact plain

variable [Preorder Q] [DecidableLT Q]

theorem negotiateFormat_any (q : Qualities Q) : negotiateFormat q (some "*/*") .json = .json := by
  have ranges : split (· == ',') "*/*" = ["*/*"] := by decide
  have segment : split (· == ';') (trim "*/*") = ["*/*"] := by decide
  have mime : toAsciiLowercase (trim "*/*") = "*/*" := by decide
  have range : mediaRange q .json "*/*" = some (.json, q.whole) := by
    simp only [mediaRange, segment, List.headD_cons, mime, List.tail_cons, List.findSome?_nil,
      Option.getD_none]
    rfl
  simp only [negotiateFormat, acceptable, ranges, List.filterMap_cons, range, List.filterMap_nil]
  rfl

end Arrival

structure Reachable (oid : ObjectIdentifier) : Prop where
  accepted : ObjectIdentifier.new oid.text = .ok oid
  undotted : oid.text ≠ "." ∧ oid.text ≠ ".."
  addressable : Addressable oid.text

structure Fetchable (reading : BodyReading) (i : MimInstance) : Prop where
  reachable : Reachable i.oid
  reads : reading.ReadsBack i

section Answers

variable {Q : Type} [MarkupEscape] [Preorder Q] [DecidableLT Q] [UnicodeCase] {site : HttpSite Q}
variable {c : HttpFederationClient} {cn : String} {subject : SubjectAttributes}

/-- The client names itself to the site, and the site serves it for the subject. -/
structure Connected (site : HttpSite Q) (cn : String) (subject : SubjectAttributes)
    (c : HttpFederationClient) : Prop where
  connected : connect site.origin cn = .ok c
  sound : site.router.Sound
  served : site.ctx.subjectFor (site.arrived c.identityHeaders) = .ok subject

variable (link : Connected site cn subject c)
include link

theorem get_sync {since : Nat} (bound : since ≤ u64Max) (w : RacingPublisher) :
    site.get (c.syncRequestUrl since) c.identityHeaders w =
      some (.ok (200, .journal (w.broker.syncSinceAs subject since)), w) := by
  obtain ⟨sync, _, _⟩ := connect_ok link.connected
  have answered : ∀ asked : Option Nat, asked.getD 0 = since →
      site.answer (.syncChanges (site.arrived c.identityHeaders) asked) w =
        some (.ok (200, .journal (w.broker.syncSinceAs subject since)), w) := by
    intro asked value
    simp only [HttpSite.answer, RouteContext.handle, RouteContext.syncChanges, link.served, value]
    rfl
  unfold HttpSite.get HttpFederationClient.syncRequestUrl
  rw [sync]
  by_cases zero : since = 0
  · rw [if_pos zero, (stripPrefix_some_iff _ _ _).mpr rfl]
    simp only [sent_sync, routeGet_sync link.sound]
    exact answered none zero.symm
  · have target : site.origin ++ "/mip4-ies/v1/sync" ++ "?since=" ++ Nat.repr since =
        site.origin ++ ("/mip4-ies/v1/sync" ++ "?" ++ ("since=" ++ Nat.repr since)) := by
      have mark : "?since=" = "?" ++ "since=" := rfl
      rw [mark]
      simp only [String.append_assoc]
    rw [if_neg zero, target, (stripPrefix_some_iff _ _ _).mpr rfl]
    simp only [sent_since, routeGet_since link.sound _ bound]
    exact answered (some since) rfl

theorem getByOid_answer {oid : ObjectIdentifier} (reachable : Reachable oid)
    (s : SecuredExchangeBroker) :
    site.ctx.getByOid s (site.arrived c.identityHeaders) oid.text =
      match s.getByOidAs subject ⟨oid⟩ with
      | .error e => mapError e
      | .ok response => negotiatedResponse .json 200 (.found response) := by
  obtain ⟨_, _, value, headers⟩ := connect_ok link.connected
  have filled := identifier_filled reachable.accepted
  have parsed : parseGetByOid (objectPath oid.text) = .ok ⟨oid⟩ :=
    (parseGetByOid_ok_iff _ reachable.accepted).mpr
      ((oidFromPath_object_iff filled).mpr reachable.addressable)
  obtain ⟨version, accept⟩ := arrived_text site value
  rw [← headers] at version accept
  have checked : versionChecked (site.arrived c.identityHeaders) = .ok () := by
    rw [versionChecked, version]
    rfl
  have format : site.ctx.negotiatedFormat (site.arrived c.identityHeaders) = .json := by
    rw [RouteContext.negotiatedFormat, accept]
    exact negotiateFormat_any _
  unfold RouteContext.getByOid
  simp only [checked, parsed, link.served, format]
  cases s.getByOidAs subject ⟨oid⟩ <;> rfl

theorem get_object {oid : ObjectIdentifier} (reachable : Reachable oid) (w : RacingPublisher) :
    site.get (c.instanceUrl oid) c.identityHeaders w =
      (run securedStep w.broker (w.upcoming.headD {}).writes).map fun broker =>
        (match (w.upcoming.headD {}).failure with
        | some e => .error (transportErrorText e)
        | none =>
          match broker.getByOidAs subject ⟨oid⟩ with
          | .error e => .ok (errorStatus e, .text (transportErrorText e))
          | .ok response => .ok (200, .found response), ⟨broker, w.upcoming.tail⟩) := by
  obtain ⟨_, objects, _⟩ := connect_ok link.connected
  have filled := identifier_filled reachable.accepted
  have target : site.origin ++ "/mip4-ies/v1/objects" ++ "/" ++ encodeOidForPath oid.text =
      site.origin ++ ("/mip4-ies/v1/objects/" ++ encodeOidForPath oid.text) := by
    have slash : "/mip4-ies/v1/objects/" = "/mip4-ies/v1/objects" ++ "/" := rfl
    rw [slash]
    simp only [String.append_assoc]
  unfold HttpSite.get HttpFederationClient.instanceUrl
  rw [objects, target, (stripPrefix_some_iff _ _ _).mpr rfl]
  simp only [sent_object reachable.undotted, routeGet_object link.sound _ filled, HttpSite.answer]
  cases run securedStep w.broker (w.upcoming.headD {}).writes with
  | none => rfl
  | some broker =>
    simp only [Option.bind_some, Option.map_some]
    cases (w.upcoming.headD {}).failure with
    | some e => rfl
    | none =>
      simp only [RouteContext.handle, getByOid_answer link reachable, Option.map_some]
      cases broker.getByOidAs subject ⟨oid⟩ <;> rfl

end Answers

end MimHttp.Routes
