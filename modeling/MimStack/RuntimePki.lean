import MimStack.Crypto
import MimStack.Lib.Batches
import MimStack.Lib.Marks
import MimStack.Lib.Text

/-!
Key rings and trust stores as a node loads them: fixtures in the lab, PEM files named by
environment variables in production. The RSA library reads and checks the keys.
-/
namespace MimCrypto
open RustText ByteText Fallible Marks Batches

/-- What the RSA library and the selected provider do with key material. -/
structure KeyBackend where
  privateKeyDer : String → Except String Bytes
  publicKeyDer : String → Except String Bytes
  validateSigningKey : Bytes → Except CryptoError Unit
  validateVerifyingKey : Bytes → Except CryptoError Unit
  publicKeyFromPrivate : Bytes → Except CryptoError Bytes

structure PkiSources where
  env : String → Option String
  file : String → Except String Bytes
  nmbFixture : Bytes
  kasFixture : Bytes

structure KeyPair where
  signing : SigningKey
  verifying : VerifyingKey

structure NmbKeyRing where
  nmb : KeyPair
  kas : KeyPair

inductive PkiMode where
  | lab
  | production

def envNmbTrust : String := "MIM_NMB_TRUST"

def envNmbSigningKey : String := "MIM_NMB_SIGNING_KEY"

def envKasSigningKey : String := "MIM_KAS_SIGNING_KEY"

def beginPublicKey : String := "-----BEGIN PUBLIC KEY-----"

def endPublicKey : String := "-----END PUBLIC KEY-----"

section Loading

variable (B : KeyBackend) (W : PkiSources)

def SigningKey.fromPkcs8Der (keyId : String) (der : Bytes) : Except CryptoError SigningKey := do
  B.validateSigningKey der
  return ⟨keyId, der⟩

def VerifyingKey.fromSpkiDer (keyId : String) (der : Bytes) : Except CryptoError VerifyingKey := do
  B.validateVerifyingKey der
  return ⟨keyId, der⟩

def KeyPair.fromPkcs8Der (keyId : String) (privateDer : Bytes) : Except CryptoError KeyPair := do
  let signing ← SigningKey.fromPkcs8Der B keyId privateDer
  let publicDer ← B.publicKeyFromPrivate privateDer
  let verifying ← VerifyingKey.fromSpkiDer B keyId publicDer
  return ⟨signing, verifying⟩

def decodePkcs8Pem (pem : Bytes) : Except CryptoError Bytes := do
  let text ← (fromUtf8 pem).mapError fun e => .invalidKey ("PKCS#8 PEM is not UTF-8: " ++ e)
  (B.privateKeyDer text).mapError .invalidKey

def loadPkcs8Der (path : String) : Except CryptoError Bytes := do
  let pem ← (W.file path).mapError fun e => .invalidKey ("read PKCS#8: " ++ e)
  decodePkcs8Pem B pem

def NmbKeyRing.fromPkcs8Files (nmbPath kasPath nmbKeyId kasKeyId : String) :
    Except CryptoError NmbKeyRing := do
  let nmbDer ← loadPkcs8Der B W nmbPath
  let kasDer ← loadPkcs8Der B W kasPath
  let nmb ← KeyPair.fromPkcs8Der B nmbKeyId nmbDer
  let kas ← KeyPair.fromPkcs8Der B kasKeyId kasDer
  return ⟨nmb, kas⟩

def conformanceKeypair : Except CryptoError KeyPair :=
  KeyPair.fromPkcs8Der B "nmb-conformance-key-1" W.nmbFixture

def conformanceKasKeypair : Except CryptoError KeyPair :=
  KeyPair.fromPkcs8Der B "kas-conformance-key-1" W.kasFixture

def conformanceKeyRing : Except CryptoError NmbKeyRing := do
  let nmb ← conformanceKeypair B W
  let kas ← conformanceKasKeypair B W
  return ⟨nmb, kas⟩

/-- The bodies of the public key blocks of a text. -/
def spkiBodies (pem : String) : List String :=
  ((splitAt beginPublicKey pem).drop 1).map fun block => (splitAt endPublicKey block).headD block

def wrappedSpki (body : String) : String := beginPublicKey ++ body ++ endPublicKey

def loadSpkiDersFromPem (pem : Bytes) : Except CryptoError (List Bytes) := do
  let text ← (fromUtf8 pem).mapError fun e => .invalidKey ("SPKI PEM is not UTF-8: " ++ e)
  (spkiBodies text).mapM fun body => (B.publicKeyDer (wrappedSpki body)).mapError .invalidKey

def NmbTrustStore.fromSpkiDersWithPrefix (ders : List Bytes) (keyIdPrefix : String) :
    Except CryptoError NmbTrustStore :=
  if ders.isEmpty then .error (.invalidKey "no verifying keys loaded")
  else do
    let keys ← ders.zipIdx.mapM fun entry =>
      VerifyingKey.fromSpkiDer B (keyIdPrefix ++ "-" ++ Nat.repr entry.2) entry.1
    return ⟨keys⟩

def NmbTrustStore.fromSpkiPem (pem : Bytes) (keyIdPrefix : String) :
    Except CryptoError NmbTrustStore := do
  let ders ← loadSpkiDersFromPem B pem
  fromSpkiDersWithPrefix B ders keyIdPrefix

def loadSpkiFile (path : String) : Except CryptoError (List Bytes) := do
  let pem ← (W.file path).mapError fun e => .invalidKey ("read SPKI PEM: " ++ e)
  loadSpkiDersFromPem B pem

def NmbTrustStore.fromSpkiPemFiles (paths : List String) : Except CryptoError NmbTrustStore := do
  let loaded ← paths.mapM (loadSpkiFile B W)
  fromSpkiDersWithPrefix B loaded.flatten "nmb-trust"

def missingEnv (name : String) : CryptoError :=
  .invalidKey ("missing environment variable " ++ name ++
    "; configure production PEM paths or use PkiMode::Lab")

def requiredEnv (name : String) : Except CryptoError String :=
  match W.env name with
  | none => .error (missingEnv name)
  | some value => .ok value

def loadProductionKeyRing : Except CryptoError NmbKeyRing := do
  let nmbPath ← requiredEnv W envNmbSigningKey
  let kasPath ← requiredEnv W envKasSigningKey
  NmbKeyRing.fromPkcs8Files B W nmbPath kasPath "nmb-signing" "kas-signing"

def listedPaths (value : String) : List String :=
  ((split (· == ',') value).map trim).filter fun segment => !isEmpty segment

def loadProductionTrustStore : Except CryptoError NmbTrustStore := do
  let value ← requiredEnv W envNmbTrust
  if (listedPaths value).isEmpty then
    .error (.invalidKey (envNmbTrust ++ " must list at least one SPKI PEM path"))
  else NmbTrustStore.fromSpkiPemFiles B W (listedPaths value)

def loadKeyRingFor : PkiMode → Except CryptoError NmbKeyRing
  | .lab => conformanceKeyRing B W
  | .production => loadProductionKeyRing B W

def loadTrustStoreFor : PkiMode → Except CryptoError NmbTrustStore
  | .lab => do
    let pair ← conformanceKeypair B W
    return ⟨[pair.verifying]⟩
  | .production => loadProductionTrustStore B W

end Loading

section Lookups

variable {B : KeyBackend} {W : PkiSources}

theorem fromSpkiDer_ok_iff {keyId : String} {der : Bytes} {key : VerifyingKey} :
    VerifyingKey.fromSpkiDer B keyId der = .ok key ↔
      B.validateVerifyingKey der = .ok () ∧ key = ⟨keyId, der⟩ := by
  constructor
  · intro made
    obtain ⟨valid, made⟩ := check_ok.mp made
    exact ⟨valid, (pure_ok.mp made).symm⟩
  · rintro ⟨valid, rfl⟩
    exact check_ok.mpr ⟨valid, rfl⟩

def numberedKey (keyIdPrefix : String) (entry : Bytes × Nat) : VerifyingKey :=
  ⟨keyIdPrefix ++ "-" ++ Nat.repr entry.2, entry.1⟩

theorem numberedKey_place {keyIdPrefix : String} {a b : Bytes × Nat}
    (same : (numberedKey keyIdPrefix a).keyId = (numberedKey keyIdPrefix b).keyId) :
    a.2 = b.2 := by
  have digits := congrArg String.toList same
  simp only [numberedKey, String.toList_append, List.append_assoc] at digits
  have numerals := List.append_cancel_left (List.append_cancel_left digits)
  rw [Nat.toList_repr, Nat.toList_repr] at numerals
  have values := congrArg (fun chars => Nat.ofDigitChars 10 chars 0) numerals
  simpa only [Nat.ofDigitChars_toDigits (by decide : 1 < 10) le_rfl] using values

theorem fromSpkiDersWithPrefix_ok_iff {ders : List Bytes} {keyIdPrefix : String}
    {t : NmbTrustStore} : NmbTrustStore.fromSpkiDersWithPrefix B ders keyIdPrefix = .ok t ↔
      ders ≠ [] ∧ (∀ der ∈ ders, B.validateVerifyingKey der = .ok ()) ∧
        t.keys = ders.zipIdx.map (numberedKey keyIdPrefix) := by
  have numbered : ∀ keys, ders.zipIdx.mapM (fun entry => VerifyingKey.fromSpkiDer B
      (keyIdPrefix ++ "-" ++ Nat.repr entry.2) entry.1) = .ok keys ↔
        (∀ der ∈ ders, B.validateVerifyingKey der = .ok ()) ∧
          keys = ders.zipIdx.map (numberedKey keyIdPrefix) := by
    intro keys
    simp only [traversed_iff, fromSpkiDer_ok_iff, List.forall₂_and_left]
    refine and_congr ?_ ?_
    · have places := List.forall_mem_map (f := Prod.fst) (l := ders.zipIdx)
        (P := fun der => B.validateVerifyingKey der = .ok ())
      rw [List.zipIdx_map_fst] at places
      exact places.symm
    · rw [@eq_comm _ keys, ← List.forall₂_eq_eq_eq, List.forall₂_map_left_iff]
      exact ⟨fun each => each.imp fun _ _ same => same.symm,
        fun each => each.imp fun _ _ same => same.symm⟩
  unfold NmbTrustStore.fromSpkiDersWithPrefix
  cases ders with
  | nil => simp
  | cons first rest =>
    rw [List.isEmpty_cons, if_neg Bool.false_ne_true]
    constructor
    · intro loaded
      obtain ⟨keys, read, loaded⟩ := bind_ok.mp loaded
      obtain rfl := pure_ok.mp loaded
      exact ⟨List.cons_ne_nil first rest, (numbered keys).mp read⟩
    · rintro ⟨_, listed⟩
      exact bind_ok.mpr ⟨t.keys, (numbered t.keys).mpr listed, rfl⟩

theorem numbered_lookup {ders : List Bytes} {keyIdPrefix : String} {t : NmbTrustStore}
    (listed : t.keys = ders.zipIdx.map (numberedKey keyIdPrefix)) {keyId : String}
    {key : VerifyingKey} : t.verifyKeyFor keyId = .ok key ↔
      ∃ i der, ders[i]? = some der ∧ keyId = keyIdPrefix ++ "-" ++ Nat.repr i ∧ key = ⟨keyId, der⟩ := by
  have member : ∀ other, other ∈ t.keys ↔
      ∃ i der, ders[i]? = some der ∧ numberedKey keyIdPrefix (der, i) = other := by
    intro other
    rw [listed, List.mem_map]
    constructor
    · rintro ⟨⟨der, i⟩, placed, rfl⟩
      exact ⟨i, der, List.mem_zipIdx_iff_getElem?.mp placed, rfl⟩
    · rintro ⟨i, der, placed, rfl⟩
      exact ⟨(der, i), List.mem_zipIdx_iff_getElem?.mpr placed, rfl⟩
  unfold NmbTrustStore.verifyKeyFor
  constructor
  · intro known
    cases found : t.keys.find? fun k => k.keyId == keyId with
    | none =>
      rw [found] at known
      cases known
    | some other =>
      rw [found] at known
      obtain rfl := Except.ok.inj known
      obtain ⟨i, der, placed, rfl⟩ := (member other).mp (List.mem_of_find?_eq_some found)
      have named := List.find?_some found
      obtain rfl := eq_of_beq named
      exact ⟨i, der, placed, rfl, rfl⟩
  · rintro ⟨i, der, placed, rfl, rfl⟩
    have here : numberedKey keyIdPrefix (der, i) ∈ t.keys := (member _).mpr ⟨i, der, placed, rfl⟩
    cases found : t.keys.find? fun k => k.keyId == keyIdPrefix ++ "-" ++ Nat.repr i with
    | none => exact absurd (beq_self_eq_true _) (List.find?_eq_none.mp found _ here)
    | some other =>
      obtain ⟨j, der', placed', rfl⟩ := (member other).mp (List.mem_of_find?_eq_some found)
      have named : (numberedKey keyIdPrefix (der', j)).keyId =
          (numberedKey keyIdPrefix (der, i)).keyId := by
        have meets := List.find?_some found
        exact eq_of_beq meets
      have place : j = i := numberedKey_place named
      rw [place, placed] at placed'
      obtain rfl := Option.some.inj placed'
      rw [place]
      rfl

theorem production_lookup {t : NmbTrustStore} (loaded : loadTrustStoreFor B W .production = .ok t)
    {keyId : String} {key : VerifyingKey} (known : t.verifyKeyFor keyId = .ok key) :
    ∃ i, keyId = "nmb-trust" ++ "-" ++ Nat.repr i := by
  obtain ⟨value, _, loaded⟩ := bind_ok.mp loaded
  split at loaded
  · cases loaded
  · obtain ⟨ders, _, loaded⟩ := bind_ok.mp loaded
    obtain ⟨_, _, listed⟩ := fromSpkiDersWithPrefix_ok_iff.mp loaded
    obtain ⟨i, _, _, named, _⟩ := (numbered_lookup listed).mp known
    exact ⟨i, named⟩

theorem fromPkcs8Der_names {keyId : String} {privateDer : Bytes} {pair : KeyPair}
    (made : KeyPair.fromPkcs8Der B keyId privateDer = .ok pair) :
    pair.signing.keyId = keyId ∧ pair.verifying.keyId = keyId := by
  obtain ⟨signing, signs, made⟩ := bind_ok.mp made
  obtain ⟨publicDer, _, made⟩ := bind_ok.mp made
  obtain ⟨verifying, verifies, made⟩ := bind_ok.mp made
  obtain rfl := pure_ok.mp made
  obtain ⟨_, own⟩ := check_ok.mp signs
  obtain ⟨_, rfl⟩ := fromSpkiDer_ok_iff.mp verifies
  exact ⟨congrArg SigningKey.keyId (pure_ok.mp own).symm, rfl⟩

theorem production_ring_name {ring : NmbKeyRing}
    (loaded : loadKeyRingFor B W .production = .ok ring) : ring.nmb.signing.keyId = "nmb-signing" := by
  obtain ⟨nmbPath, _, loaded⟩ := bind_ok.mp loaded
  obtain ⟨kasPath, _, loaded⟩ := bind_ok.mp loaded
  obtain ⟨nmbDer, _, loaded⟩ := bind_ok.mp loaded
  obtain ⟨kasDer, _, loaded⟩ := bind_ok.mp loaded
  obtain ⟨nmb, made, loaded⟩ := bind_ok.mp loaded
  obtain ⟨kas, _, loaded⟩ := bind_ok.mp loaded
  obtain rfl := pure_ok.mp loaded
  exact (fromPkcs8Der_names made).1

theorem production_ring_unknown {B' : KeyBackend} {W' : PkiSources} {ring : NmbKeyRing}
    {t : NmbTrustStore} (ringLoaded : loadKeyRingFor B W .production = .ok ring)
    (loaded : loadTrustStoreFor B' W' .production = .ok t) (key : VerifyingKey) :
    t.verifyKeyFor ring.nmb.signing.keyId ≠ .ok key := by
  intro known
  obtain ⟨i, named⟩ := production_lookup loaded known
  rw [production_ring_name ringLoaded] at named
  have start := congrArg (fun name => name.toList[4]?) named
  simp [String.toList_append] at start

theorem lab_ring_known {ring : NmbKeyRing} {t : NmbTrustStore}
    (ringLoaded : loadKeyRingFor B W .lab = .ok ring) (loaded : loadTrustStoreFor B W .lab = .ok t) :
    t.verifyKeyFor ring.nmb.signing.keyId = .ok ring.nmb.verifying := by
  obtain ⟨nmb, made, ringLoaded⟩ := bind_ok.mp ringLoaded
  obtain ⟨kas, _, ringLoaded⟩ := bind_ok.mp ringLoaded
  obtain rfl := pure_ok.mp ringLoaded
  obtain ⟨pair, again, loaded⟩ := bind_ok.mp loaded
  obtain rfl := pure_ok.mp loaded
  obtain rfl := Except.ok.inj (made.symm.trans again)
  obtain ⟨signing, verifying⟩ := fromPkcs8Der_names made
  have found : [nmb.verifying].find? (fun k => k.keyId == nmb.verifying.keyId) =
      some nmb.verifying := List.find?_cons_of_pos (beq_self_eq_true nmb.verifying.keyId)
  rw [NmbTrustStore.verifyKeyFor, signing, ← verifying, found]

end Lookups

section Bundles

structure PemBlock where
  body : String
  note : String

structure PemBlock.Plain (b : PemBlock) : Prop where
  body : '-' ∉ b.body.toList
  note : '-' ∉ b.note.toList

def PemBlock.rest (b : PemBlock) : String := b.body ++ (endPublicKey ++ "\n") ++ b.note

def bundleText (preamble : String) (blocks : List PemBlock) : String :=
  preamble ++ join "" (blocks.map fun b => beginPublicKey ++ b.rest)

theorem rest_calm {b : PemBlock} (plain : b.Plain) : Calm beginPublicKey.toList b.rest.toList := by
  intro rest
  rw [PemBlock.rest, String.toList_append, String.toList_append]
  have marker : beginPublicKey.toList = '-' :: "----BEGIN PUBLIC KEY-----".toList := rfl
  have closing : (endPublicKey ++ "\n").toList = endPublicKey.toList ++ ['\n'] :=
    String.toList_append
  refine quiet_append (quiet_append ?_ ?_) ?_
  · rw [marker]
    exact quiet_absent plain.body _
  · rw [closing]
    exact quiet_foreign (by decide) (by decide) _
  · rw [marker]
    exact quiet_absent plain.note _

theorem splitAt_bundle {preamble : String} {blocks : List PemBlock}
    (unmarked : '-' ∉ preamble.toList) (plain : ∀ b ∈ blocks, b.Plain) :
    splitAt beginPublicKey (bundleText preamble blocks) = preamble :: blocks.map PemBlock.rest := by
  have chars : (bundleText preamble blocks).toList = preamble.toList ++
      (blocks.map fun b => b.rest.toList).flatMap (beginPublicKey.toList ++ ·) := by
    rw [bundleText, String.toList_append, join_empty_chars, List.flatMap_map, List.flatMap_map]
    refine congrArg (preamble.toList ++ ·) (List.flatMap_congr fun b _ => ?_)
    exact String.toList_append
  have calm : ∀ part ∈ blocks.map fun b => b.rest.toList, Calm beginPublicKey.toList part := by
    intro part member
    obtain ⟨b, listed, rfl⟩ := List.mem_map.mp member
    exact rest_calm (plain b listed)
  have quiet : Quiet beginPublicKey.toList preamble.toList
      ((blocks.map fun b => b.rest.toList).flatMap (beginPublicKey.toList ++ ·)) :=
    quiet_absent unmarked _
  rw [splitAt, chars, cuts_quiet quiet, cuts_marked (by decide) calm, List.modifyHead_cons,
    List.append_nil, List.map_cons, String.ofList_toList, List.map_map]
  refine congrArg (preamble :: ·) (List.map_congr_left fun b _ => ?_)
  exact String.ofList_toList

theorem splitAt_rest {b : PemBlock} (plain : b.Plain) :
    ∃ more, splitAt endPublicKey b.rest = b.body :: more := by
  have chars : b.rest.toList =
      b.body.toList ++ (endPublicKey.toList ++ ("\n" ++ b.note).toList) := by
    simp only [PemBlock.rest, String.toList_append, List.append_assoc]
  have quiet : Quiet endPublicKey.toList b.body.toList
      (endPublicKey.toList ++ ("\n" ++ b.note).toList) := quiet_absent plain.body _
  obtain ⟨more, cut⟩ := cuts_head (by decide) quiet
  refine ⟨more.map .ofList, ?_⟩
  rw [splitAt, chars, cut, List.map_cons, String.ofList_toList]

theorem spkiBodies_bundle {preamble : String} {blocks : List PemBlock}
    (unmarked : '-' ∉ preamble.toList) (plain : ∀ b ∈ blocks, b.Plain) :
    spkiBodies (bundleText preamble blocks) = blocks.map PemBlock.body := by
  rw [spkiBodies, splitAt_bundle unmarked plain, List.drop_one, List.tail_cons, List.map_map]
  refine List.map_congr_left fun b member => ?_
  obtain ⟨more, cut⟩ := splitAt_rest (plain b member)
  rw [Function.comp_apply, cut]
  rfl

end Bundles

section Provisioning

structure TrustFile where
  path : String
  preamble : String
  blocks : List PemBlock

structure ListablePath (path : String) : Prop where
  filled : isEmpty path = false
  trimmed : trim path = path
  whole : ',' ∉ path.toList

/-- The variable lists the files, and they hold blocks that the RSA library reads. -/
structure Provisioned (B : KeyBackend) (W : PkiSources) (der : PemBlock → Bytes)
    (files : List TrustFile) : Prop where
  listed : W.env envNmbTrust = some (join "," (files.map TrustFile.path))
  paths : ∀ f ∈ files, ListablePath f.path
  readable : ∀ f ∈ files, W.file f.path = .ok (utf8 (bundleText f.preamble f.blocks))
  unmarked : ∀ f ∈ files, '-' ∉ f.preamble.toList
  plain : ∀ f ∈ files, ∀ b ∈ f.blocks, b.Plain
  decoded : ∀ f ∈ files, ∀ b ∈ f.blocks, B.publicKeyDer (wrappedSpki b.body) = .ok (der b)
  valid : ∀ f ∈ files, ∀ b ∈ f.blocks, B.validateVerifyingKey (der b) = .ok ()

theorem listedPaths_join {paths : List String} (listable : ∀ path ∈ paths, ListablePath path) :
    listedPaths (join "," paths) = paths := by
  cases paths with
  | nil => rfl
  | cons first rest =>
    have comma : "," = String.singleton ',' := rfl
    have parted := @split_join (fun c => c == ',') ',' rfl first rest
    have single : ∀ path ∈ first :: rest, split (· == ',') path = [path] := by
      intro path member
      refine split_whole fun c inside => beq_eq_false_iff_ne.mpr ?_
      rintro rfl
      exact (listable path member).whole inside
    have parts : split (· == ',') (join "," (first :: rest)) = first :: rest := by
      rw [comma, parted, List.flatMap_congr single, List.flatMap_singleton']
    have kept : (first :: rest).map trim = first :: rest :=
      (List.map_congr_left fun path member => (listable path member).trimmed).trans (List.map_id _)
    rw [listedPaths, parts, kept, List.filter_eq_self]
    intro path member
    rw [(listable path member).filled]
    rfl

variable {B : KeyBackend} {W : PkiSources} {der : PemBlock → Bytes} {files : List TrustFile}

theorem loadSpkiFile_provisioned (provisioned : Provisioned B W der files) {f : TrustFile}
    (member : f ∈ files) : loadSpkiFile B W f.path = .ok (f.blocks.map der) := by
  have bodies := spkiBodies_bundle (provisioned.unmarked f member) (provisioned.plain f member)
  have ders : (f.blocks.map PemBlock.body).mapM (fun body =>
      (B.publicKeyDer (wrappedSpki body)).mapError CryptoError.invalidKey) =
        .ok (f.blocks.map der) := by
    rw [traversed_iff, List.forall₂_map_left_iff, List.forall₂_map_right_iff, List.forall₂_same]
    intro b listed
    exact (mapError_ok _ _ _).mpr (provisioned.decoded f member b listed)
  unfold loadSpkiFile loadSpkiDersFromPem
  rw [provisioned.readable f member]
  refine bind_ok.mpr ⟨_, rfl, bind_ok.mpr ⟨bundleText f.preamble f.blocks, ?_, ?_⟩⟩
  · rw [fromUtf8_utf8]
    rfl
  · rw [bodies]
    exact ders

theorem provisioned_store (provisioned : Provisioned B W der files)
    (filled : files.flatMap TrustFile.blocks ≠ []) : loadTrustStoreFor B W .production =
      .ok ⟨((files.flatMap TrustFile.blocks).map der).zipIdx.map (numberedKey "nmb-trust")⟩ := by
  have files_ne : files ≠ [] := by
    rintro rfl
    exact filled rfl
  have paths : listedPaths (join "," (files.map TrustFile.path)) = files.map TrustFile.path := by
    refine listedPaths_join fun path member => ?_
    obtain ⟨f, listed, rfl⟩ := List.mem_map.mp member
    exact provisioned.paths f listed
  have loads : (files.map TrustFile.path).mapM (loadSpkiFile B W) =
      .ok (files.map fun f => f.blocks.map der) := by
    rw [traversed_iff, List.forall₂_map_left_iff, List.forall₂_map_right_iff, List.forall₂_same]
    exact fun f member => loadSpkiFile_provisioned provisioned member
  have ders : (files.map fun f => f.blocks.map der).flatten =
      (files.flatMap TrustFile.blocks).map der := by
    rw [List.map_flatMap]
    rfl
  have valid : ∀ bytes ∈ (files.flatMap TrustFile.blocks).map der,
      B.validateVerifyingKey bytes = .ok () := by
    intro bytes member
    obtain ⟨b, inside, rfl⟩ := List.mem_map.mp member
    obtain ⟨f, listed, held⟩ := List.mem_flatMap.mp inside
    exact provisioned.valid f listed b held
  refine bind_ok.mpr ⟨join "," (files.map TrustFile.path), ?_, ?_⟩
  · rw [requiredEnv, provisioned.listed]
  · rw [paths, List.isEmpty_eq_false_iff.mpr (mt List.map_eq_nil_iff.mp files_ne),
      if_neg Bool.false_ne_true]
    refine bind_ok.mpr ⟨_, loads, ?_⟩
    rw [ders]
    exact fromSpkiDersWithPrefix_ok_iff.mpr ⟨mt List.map_eq_nil_iff.mp filled, valid, rfl⟩

/-- A production node trusts the keys of the listed files, each by its place among all of them,
and nothing else. -/
theorem production_trusts (provisioned : Provisioned B W der files)
    (filled : files.flatMap TrustFile.blocks ≠ []) :
    ∃ t, loadTrustStoreFor B W .production = .ok t ∧ ∀ keyId key, t.verifyKeyFor keyId = .ok key ↔
      ∃ i b, (files.flatMap TrustFile.blocks)[i]? = some b ∧
        keyId = "nmb-trust" ++ "-" ++ Nat.repr i ∧ key = ⟨keyId, der b⟩ := by
  refine ⟨_, provisioned_store provisioned filled, fun keyId key => ?_⟩
  rw [numbered_lookup rfl]
  constructor
  · rintro ⟨i, bytes, placed, named, rfl⟩
    rw [List.getElem?_map] at placed
    obtain ⟨b, here, rfl⟩ := Option.map_eq_some_iff.mp placed
    exact ⟨i, b, here, named, rfl⟩
  · rintro ⟨i, b, here, named, rfl⟩
    refine ⟨i, der b, ?_, named, rfl⟩
    rw [List.getElem?_map, here]
    rfl

def plainBackend : KeyBackend where
  privateKeyDer text := .ok (utf8 text)
  publicKeyDer text := .ok (utf8 text)
  validateSigningKey _ := .ok ()
  validateVerifyingKey _ := .ok ()
  publicKeyFromPrivate der := .ok der

def trustFiles : List TrustFile :=
  [⟨"a.pem", "", [⟨"\nAA\n", ""⟩]⟩, ⟨"b.pem", "two partners\n", [⟨"\nBB\n", "\n"⟩, ⟨"\nCC\n", ""⟩]⟩]

def productionSources : PkiSources where
  env name :=
    if name = envNmbTrust then some "a.pem,b.pem"
    else if name = envNmbSigningKey then some "nmb.pem"
    else if name = envKasSigningKey then some "kas.pem"
    else none
  file path :=
    match trustFiles.find? fun f => f.path == path with
    | some f => .ok (utf8 (bundleText f.preamble f.blocks))
    | none => .ok (utf8 path)
  nmbFixture := []
  kasFixture := []

theorem productionSources_provisioned : Provisioned plainBackend productionSources
    (fun b => utf8 (wrappedSpki b.body)) trustFiles where
  listed := rfl
  paths := by
    intro f member
    simp only [trustFiles, List.mem_cons, List.not_mem_nil, or_false] at member
    rcases member with rfl | rfl <;> exact ⟨by decide, by decide, by decide⟩
  readable := by
    intro f member
    simp only [trustFiles, List.mem_cons, List.not_mem_nil, or_false] at member
    rcases member with rfl | rfl <;> rfl
  unmarked := by
    intro f member
    simp only [trustFiles, List.mem_cons, List.not_mem_nil, or_false] at member
    rcases member with rfl | rfl <;> decide
  plain := by
    intro f member b held
    simp only [trustFiles, List.mem_cons, List.not_mem_nil, or_false] at member
    rcases member with rfl | rfl <;>
      simp only [List.mem_cons, List.not_mem_nil, or_false] at held
    · obtain rfl := held
      exact ⟨by decide, by decide⟩
    · rcases held with rfl | rfl <;> exact ⟨by decide, by decide⟩
  decoded _ _ _ _ := rfl
  valid _ _ _ _ := rfl

theorem production_trusts_fixture :
    ∃ t, loadTrustStoreFor plainBackend productionSources .production = .ok t ∧
      t.verifyKeyFor "nmb-trust-2" = .ok ⟨"nmb-trust-2", utf8 (wrappedSpki "\nCC\n")⟩ := by
  obtain ⟨t, loaded, known⟩ := production_trusts productionSources_provisioned (by simp [trustFiles])
  exact ⟨t, loaded, (known _ _).mpr ⟨2, ⟨"\nCC\n", ""⟩, rfl, by decide, rfl⟩⟩

end Provisioning

end MimCrypto
