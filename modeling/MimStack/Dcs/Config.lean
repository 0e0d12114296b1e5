import MimStack.Dcs.Guard
import MimStack.SpifAdmin
import MimStack.Trail.Handles

/-!
A deployment's configuration and what is built from it: the policy store, the
audit log and the guard. Reading and parsing policy files is a parameter.
-/
namespace MimDcs
open RustText IndexedMap IndexedMap.IndexMap Fallible MimLabeling MimSpif MimPolicy MimAudit
open MimAudit.Trail (AuditBackend AuditSinkType Disk IoAnswers StampedRecord AuditEnvelope openLog)

structure AuditConfig where
  path : Option String := none
  sinkType : AuditSinkType := .file
  accredited : Bool := false
  requireSigned : Bool := false

structure DomainConfig where
  id : String
  name : String
  maxClassification : String
  releasableTo : List String := []
  acceptedNationalities : List String := []
  missionCompartments : List String := []

structure CrossDomainRuleConfig where
  id : String
  source : String
  target : String
  description : Option String := none

structure SpifSourceConfig where
  paths : List String := []
  validateXsd : Bool := true

structure DcsConfig where
  domains : List DomainConfig
  crossDomain : List CrossDomainRuleConfig
  spif : SpifSourceConfig := {}
  downgrade : DowngradeConfig := {}
  audit : AuditConfig := {}
  accredited : Bool := false

/-- Policy files as a configuration reaches them: resolved and read, checked, parsed. -/
structure SpifFiles where
  readToString : String → Except String String
  validateSpifXsd : String → Except String Unit
  parseSpifXml : String → Except String SpifPolicy

def DomainConfig.toSecurityDomain (c : DomainConfig) : Except String SecurityDomain := do
  let max ← (ClassificationLevel.parse c.maxClassification).mapError LabelError.toString
  return {
    id := ⟨c.id⟩
    name := c.name
    maxClassification := max
    releasableTo := c.releasableTo
    acceptedNationalities := c.acceptedNationalities
    missionCompartments := c.missionCompartments }

def CrossDomainRuleConfig.toPolicy (rule : CrossDomainRuleConfig) : CrossDomainPolicy where
  id := rule.id
  description := rule.description.getD ""
  sourceDomain := ⟨rule.source⟩
  targetDomain := ⟨rule.target⟩

namespace DcsConfig

def isAccreditedProfile (c : DcsConfig) : Bool := c.accredited || c.audit.accredited

def validateAccreditedProfile (c : DcsConfig) : Except String Unit :=
  if !c.isAccreditedProfile then .ok ()
  else if c.audit.path.isNone then .error "accredited guard requires audit.path (WORM sink)"
  else if c.audit.sinkType ≠ .worm then .error "accredited guard requires audit.sinkType = worm"
  else .ok ()

section PolicyFiles

variable (files : SpifFiles)

def checkXsd (c : DcsConfig) (xml : String) : Except String Unit :=
  if c.spif.validateXsd then files.validateSpifXsd xml else .ok ()

def loadSpif (c : DcsConfig) (registry : SpifRegistry) (path : String) :
    Except String SpifRegistry := do
  let xml ← files.readToString path
  c.checkXsd files xml
  let policy ← (files.parseSpifXml xml).mapError fun e => "SPIF parse error in " ++ path ++ ": " ++ e
  (registry.register policy).mapError fun e => "SPIF parse error in " ++ path ++ ": " ++ e

def loadSpifRegistry (c : DcsConfig) : Except String SpifRegistry :=
  c.spif.paths.foldlM (c.loadSpif files) ⟨IndexMap.empty⟩

def insertDomainConfig (store : PolicyStore) (domain : DomainConfig) : Except String PolicyStore := do
  let domain ← domain.toSecurityDomain
  (store.insertDomain domain).mapError PolicyError.toString

def insertRule (store : PolicyStore) (rule : CrossDomainRuleConfig) : Except String PolicyStore :=
  (store.insertCrossDomainPolicy rule.toPolicy).mapError PolicyError.toString

/-- The store before any policy file. -/
def configuredStore (c : DcsConfig) : Except String PolicyStore := do
  let store ← c.domains.foldlM insertDomainConfig { PolicyStore.new with downgrade := c.downgrade }
  c.crossDomain.foldlM insertRule store

def buildPolicyStore (c : DcsConfig) : Except String PolicyStore := do
  let store ← c.configuredStore
  if c.spif.paths.isEmpty then return store
  else
    let registry ← c.loadSpifRegistry files
    let store ← registry.policies.values.foldlM
      (fun s spif => (s.registerSpifPolicy spif).mapError PolicyError.toString) store
    (applySpifToStore store registry).mapError PolicyError.toString

/-- The release list the loaded files bring, empty where they bring none. -/
def releaseList (c : DcsConfig) : List String :=
  ((c.loadSpifRegistry files).toOption.map natoReleasable).getD []

end PolicyFiles

def domainById (c : DcsConfig) (id : String) : Except String DomainConfig :=
  match c.domains.find? fun d => d.id == id with
  | some domain => .ok domain
  | none => .error ("unknown domain id '" ++ id ++ "'")

def primaryDomainPair (c : DcsConfig) : Except String (SecurityDomain × SecurityDomain) :=
  match c.crossDomain with
  | [] => .error "DCS config requires at least one cross_domain rule"
  | rule :: _ => do
    let source ← (← c.domainById rule.source).toSecurityDomain
    let target ← (← c.domainById rule.target).toSecurityDomain
    return (source, target)

section Logs

variable (B : AuditBackend) (files : SpifFiles)

/-- The guard and the transfers each build one, on the configured path. -/
def buildAuditLog (c : DcsConfig) (io : IoAnswers) : Effect String Disk (Option Trail.AuditLog) := do
  .ofExcept c.validateAccreditedProfile
  if c.audit.path.isNone then
    if c.isAccreditedProfile then .fail "accredited guard requires audit.path" else return none
  else
    let log ← (c.audit.sinkType.logOn B io).mapError AuditError.toString
    return some log

def heldLog (io : IoAnswers) (stamp : AuditRecord → StampedRecord) :
    AuditLog (Disk × Option Trail.AuditLog) where
  record r s :=
    match s.2 with
    | none => (.ok (), s)
    | some log =>
      let (outcome, disk, after) := (Trail.AuditLog.recorder B io stamp).record r (s.1, log)
      (outcome, disk, some after)

def buildGuard (c : DcsConfig) (io : IoAnswers) (stamp : AuditRecord → StampedRecord) :
    Effect String Disk
      (CrossDomainGuard (Disk × Option Trail.AuditLog) × Option Trail.AuditLog) := do
  .ofExcept c.validateAccreditedProfile
  let store ← .ofExcept (c.buildPolicyStore files)
  let (source, target) ← .ofExcept c.primaryDomainPair
  let audit ← c.buildAuditLog B io
  let pep : AuditedPep (Disk × Option Trail.AuditLog) :=
    ⟨⟨store⟩, audit.map fun _ => heldLog B io stamp⟩
  return ({ CrossDomainGuard.fromPolicyPlane pep source target with
    accredited := c.isAccreditedProfile }, audit)

end Logs

section Releasability

variable {files : SpifFiles} {c : DcsConfig}

theorem configuredStore_keyed {store : PolicyStore} (configured : c.configuredStore = .ok store) :
    store.Keyed := by
  obtain ⟨withDomains, inserted, ruled⟩ := bind_ok.mp configured
  have keyed : withDomains.Keyed := by
    refine foldlM_invariant ?_ c.domains (fun id d found => ?_) inserted
    · intro s domain t keyed added
      obtain ⟨d, _, added⟩ := bind_ok.mp added
      exact insertDomain_keyed keyed ((mapError_ok _ _ _).mp added)
    · cases found
  refine foldlM_invariant ?_ c.crossDomain keyed ruled
  intro s rule t keyed added id d found
  rw [insertCrossDomainPolicy_domains ((mapError_ok _ _ _).mp added)] at found
  exact keyed id d found

theorem loadSpifRegistry_registered {registry : SpifRegistry}
    (loaded : c.loadSpifRegistry files = .ok registry) : Registered registry := by
  refine foldlM_invariant ?_ c.spif.paths (fun id policy found => ?_) loaded
  · intro r path after registered read
    obtain ⟨xml, _, read⟩ := bind_ok.mp read
    obtain ⟨_, _, read⟩ := bind_ok.mp read
    obtain ⟨policy, _, added⟩ := bind_ok.mp read
    exact register_registered registered ((mapError_ok _ _ _).mp added)
  · cases found

theorem buildPolicyStore_domains {store : PolicyStore} (built : c.buildPolicyStore files = .ok store) :
    ∃ configured, c.configuredStore = .ok configured ∧ ∀ id,
      store.domains.get id = (configured.domains.get id).map (released (c.releaseList files)) := by
  obtain ⟨configured, stored, built⟩ := bind_ok.mp built
  refine ⟨configured, stored, ?_⟩
  split at built
  · rename_i none
    have unread : c.releaseList files = [] := by
      have registry : c.loadSpifRegistry files = .ok ⟨IndexMap.empty⟩ := by
        rw [loadSpifRegistry, List.isEmpty_iff.mp none]
        rfl
      rw [releaseList, registry]
      rfl
    obtain rfl := pure_ok.mp built
    intro id
    rw [unread]
    exact (congrFun Option.map_id _).symm
  · obtain ⟨registry, loaded, built⟩ := bind_ok.mp built
    obtain ⟨withFiles, filed, applied⟩ := bind_ok.mp built
    have domains : withFiles.domains = configured.domains := by
      refine foldlM_invariant (p := fun s => s.domains = configured.domains) ?_ _ rfl filed
      intro s spif t same added
      rw [registerSpifPolicy_domains ((mapError_ok _ _ _).mp added), same]
    have keyed : withFiles.Keyed := by
      intro id d found
      rw [domains] at found
      exact configuredStore_keyed stored id d found
    have list : c.releaseList files = natoReleasable registry := by
      rw [releaseList, loaded]
      rfl
    intro id
    rw [applySpif_domains keyed (loadSpifRegistry_registered loaded) ((mapError_ok _ _ _).mp applied),
      domains, list]

/-- What a domain accepts once the files are applied: the countries on their release list that its
own nationalities admit or, without a list, what it accepted as configured. -/
theorem applied_spif_countries {store : PolicyStore} (built : c.buildPolicyStore files = .ok store)
    {id : DomainId} {domain : SecurityDomain} (found : store.domain id = some domain) :
    ∃ configured own, c.configuredStore = .ok configured ∧ configured.domain id = some own ∧
      ∀ country, domain.acceptsCountry country =
        if (c.releaseList files).isEmpty then own.acceptsCountry country
        else own.admitsNationality country &&
          (c.releaseList files).any (eqIgnoreAsciiCase · country) := by
  obtain ⟨configured, stored, domains⟩ := buildPolicyStore_domains built
  obtain ⟨own, here, rfl⟩ := Option.map_eq_some_iff.mp ((domains id.text).symm.trans found)
  exact ⟨configured, own, stored, here, released_accepts _ own⟩

def coalition (nationalities : List String) : DcsConfig where
  domains := [⟨"DOMAIN-HIGH", "High Side", "SECRET", ["USA", "GBR", "DEU"], [], []⟩,
    ⟨"DOMAIN-LOW", "Low Side", "RESTRICTED", ["USA", "GBR"], nationalities, []⟩]
  crossDomain := [⟨"high-to-low", "DOMAIN-HIGH", "DOMAIN-LOW", none⟩]
  spif := { paths := ["policies/releases.xml"] }

def releasesPolicy : SpifPolicy where
  policyId := "NATO"
  policyOid := none
  allowedClassifications := ["RESTRICTED", "SECRET"]
  categories := [⟨"Releasable to", .permissive, ["USA", "GBR", "DEU"]⟩]
  validations := []

def releasesFile : SpifFiles where
  readToString _ := .ok ("<spif><securityPolicyId><identifier>NATO</identifier></securityPolicyId>" ++
    "<securityClassification><name>RESTRICTED</name></securityClassification>" ++
    "<securityClassification><name>SECRET</name></securityClassification>" ++
    "<securityCategory type=\"permissive\"><name>Releasable to</name>" ++
    "<value>USA</value><value>GBR</value><value>DEU</value></securityCategory></spif>")
  validateSpifXsd _ := .ok ()
  parseSpifXml _ := .ok releasesPolicy

/-- A domain configured for two countries accepts a third one once the policy file is applied. -/
theorem spif_widens_domain :
    ∃ configured store own domain, (coalition []).configuredStore = .ok configured ∧
      (coalition []).buildPolicyStore releasesFile = .ok store ∧
      configured.domain ⟨"DOMAIN-LOW"⟩ = some own ∧ store.domain ⟨"DOMAIN-LOW"⟩ = some domain ∧
      domain.acceptsCountry "DEU" = true ∧ own.acceptsCountry "DEU" = false :=
  ⟨_, _, _, _, rfl, rfl, rfl, rfl, by decide +kernel, by decide +kernel⟩

theorem applied_spif_countries_fixture :
    let c := coalition ["USA", "GBR"]
    ∃ store domain, c.buildPolicyStore releasesFile = .ok store ∧
      store.domain ⟨"DOMAIN-LOW"⟩ = some domain ∧
      ∃ configured own, c.configuredStore = .ok configured ∧
        configured.domain ⟨"DOMAIN-LOW"⟩ = some own ∧
        ∀ country, domain.acceptsCountry country =
          if (c.releaseList releasesFile).isEmpty then own.acceptsCountry country
          else own.admitsNationality country &&
            (c.releaseList releasesFile).any (eqIgnoreAsciiCase · country) :=
  ⟨_, _, rfl, rfl, applied_spif_countries rfl rfl⟩

end Releasability

section Signatures

variable {B : AuditBackend} {files : SpifFiles} {c : DcsConfig} {io : IoAnswers}
  {stamp : AuditRecord → StampedRecord}

/-- The configuration asks for signed records. -/
def requiresSigned (c : DcsConfig) : Bool := c.isAccreditedProfile || c.audit.requireSigned

variable (B) in
/-- The disk and the log after records, each with what the environment answered. -/
def ran (calls : List (IoAnswers × StampedRecord)) (s : Disk × Trail.AuditLog) :
    Disk × Trail.AuditLog :=
  calls.foldl (fun s call => (s.2.record B call.1 call.2 s.1).2) s

variable (B) in
/-- Whatever was recorded before, an envelope that gets onto the disk is signed, and a record that
would not be is refused. -/
structure SignsAll (log : Trail.AuditLog) (d : Disk) : Prop where
  persisted : ∀ calls io r e, let s := ran B calls (d, log)
    s.2.envelopeFor B r = .ok e →
    (s.2.record B io r s.1).2.1.content = s.1.content ++ e.endedLine → e.signature ≠ none
  refused : ∀ calls io r, let s := ran B calls (d, log)
    (s.2.record B io r s.1).1 = .ok () → ∃ e, s.2.envelopeFor B r = .ok e ∧ e.signature ≠ none

variable (B files io stamp) in
/-- The log that building the transfers' log or the guard results in, if it results in one. -/
def Builds (c : DcsConfig) (d : Disk) (result : Option Trail.AuditLog) (after : Disk) : Prop :=
  (c.buildAuditLog B io).Yields d result after ∨
    ∃ guard, (c.buildGuard B files io stamp).Yields d (guard, result) after

theorem buildGuard_yields {d after : Disk} {result : Option Trail.AuditLog}
    {guard : CrossDomainGuard (Disk × Option Trail.AuditLog)}
    (built : (c.buildGuard B files io stamp).Yields d (guard, result) after) :
    (c.buildAuditLog B io).Yields d result after ∧
      guard.pep.audit = result.map fun _ => heldLog B io stamp := by
  obtain ⟨_, checked, afterCheck⟩ := Effect.yields_then.mp built
  obtain ⟨_, rfl⟩ := Effect.yields_ofExcept.mp checked
  obtain ⟨store, _, stored, afterStore⟩ := Effect.yields_bind.mp afterCheck
  obtain ⟨_, rfl⟩ := Effect.yields_ofExcept.mp stored
  obtain ⟨pair, _, paired, afterPair⟩ := Effect.yields_bind.mp afterStore
  obtain ⟨_, rfl⟩ := Effect.yields_ofExcept.mp paired
  obtain ⟨audit, last, opened, afterLog⟩ := Effect.yields_bind.mp afterPair
  obtain ⟨same, rfl⟩ := Effect.yields_pure.mp afterLog
  obtain ⟨rfl, rfl⟩ := Prod.mk.inj same
  exact ⟨opened, rfl⟩

theorem builds_log {d after : Disk} {result : Option Trail.AuditLog}
    (built : c.Builds B files io stamp d result after) :
    (c.buildAuditLog B io).Yields d result after := by
  rcases built with built | ⟨guard, built⟩
  · exact built
  · exact (buildGuard_yields built).1

theorem guard_evaluation_ran {d after : Disk} {log : Trail.AuditLog}
    {guard : CrossDomainGuard (Disk × Option Trail.AuditLog)}
    (built : (c.buildGuard B files io stamp).Yields d (guard, some log) after)
    (label : ConfidentialityLabel) (s : Disk × Trail.AuditLog) :
    ∃ calls, (guard.evaluate label (s.1, some s.2)).2 =
      ((ran B calls s).1, some (ran B calls s).2) := by
  have held : guard.pep.audit = some (heldLog B io stamp) := (buildGuard_yields built).2
  cases decided : guard.decides label with
  | error e =>
    rw [CrossDomainGuard.evaluate_error decided]
    exact ⟨[], rfl⟩
  | ok decision =>
    have asked : guard.evaluate label (s.1, some s.2) =
        (.ok (mapDecision decision), guard.noted label decision (s.1, some s.2)) :=
      CrossDomainGuard.evaluate_yields.mpr ⟨decision, decided, rfl, rfl⟩
    rw [asked]
    refine ⟨[(io, stamp (AuditedPep.crossDomainRecord (CrossDomainGuard.guardSubject label) label
      guard.source guard.target decision))], ?_⟩
    rw [CrossDomainGuard.noted, AuditedPep.noted, held]
    rfl

/-- A write-once file that is gone while its manifest is still there. -/
def FileMissing (c : DcsConfig) (d : Disk) : Prop :=
  c.audit.sinkType = .worm ∧ d.file = none ∧ d.manifest ≠ none

theorem stateAt_file {d found : Disk} {state : Trail.WormManifest}
    (known : (Trail.WormAuditSink.stateAt B io).Yields d state found) :
    found.file = none ↔ d.file = none ∧ d.manifest ≠ none := by
  unfold Effect.Yields Trail.WormAuditSink.stateAt at known
  split at known
  · rename_i manifest file recorded
    obtain rfl := (Prod.mk.inj known).2
    simp [recorded]
  · rename_i content unrecorded there
    obtain rfl := (Prod.mk.inj known).2
    simp [unrecorded, there]
  · rename_i unrecorded missing
    obtain ⟨opened, same⟩ := Prod.mk.inj known
    cases answer : io.openFile with
    | error message =>
      rw [answer] at opened
      cases opened
    | ok _ =>
      rw [answer] at same
      obtain rfl : d.created = found := same
      simp [unrecorded, Disk.created]

theorem worm_yields {d after : Disk} {log : Trail.AuditLog}
    (opened : (Trail.AuditLog.worm B io).Yields d log after) :
    ∃ state, log = .new (.worm state) ∧ after.size = state.byteLength ∧
      (after.file = none ↔ d.file = none ∧ d.manifest ≠ none) := by
  obtain ⟨state, mid, sinkOpened, made⟩ := Effect.yields_bind.mp opened
  obtain ⟨rfl, rfl⟩ := Effect.yields_pure.mp made
  obtain ⟨_, dir, afterDir⟩ := Effect.yields_then.mp sinkOpened
  obtain ⟨_, rfl⟩ := Effect.yields_ofExcept.mp dir
  obtain ⟨state', found, known, afterState⟩ := Effect.yields_bind.mp afterDir
  obtain ⟨_, checked, afterCheck⟩ := Effect.yields_then.mp afterState
  obtain ⟨verified, rfl⟩ := Effect.yields_observe.mp checked
  obtain ⟨noted, written, afterWrite⟩ := Effect.yields_then.mp afterCheck
  obtain ⟨rfl, rfl⟩ := Effect.yields_pure.mp afterWrite
  obtain ⟨_, answered, kept⟩ := Effect.yields_then.mp written
  obtain ⟨_, rfl⟩ := Effect.yields_ofExcept.mp answered
  obtain rfl := Effect.yields_modify.mp kept
  have file := stateAt_file known
  exact ⟨state', rfl, Trail.verifyFileLength_ok_file verified, file⟩

theorem buildAuditLog_yields {d after : Disk} {log : Trail.AuditLog}
    (built : (c.buildAuditLog B io).Yields d (some log) after) :
    c.audit.path ≠ none ∧ log.signingKey = none ∧ (¬ c.FileMissing d → log.sink.Ready after) ∧
      (c.FileMissing d → ∃ state, log.sink = .worm state ∧ after.file = none) := by
  obtain ⟨_, checked, afterCheck⟩ := Effect.yields_then.mp built
  obtain ⟨_, rfl⟩ := Effect.yields_ofExcept.mp checked
  split at afterCheck
  · split at afterCheck
    · exact absurd afterCheck Effect.yields_fail
    · cases (Effect.yields_pure.mp afterCheck).1
  · rename_i configured
    obtain ⟨opened, _, done, returned⟩ := Effect.yields_bind.mp afterCheck
    obtain ⟨same, rfl⟩ := Effect.yields_pure.mp returned
    obtain rfl := Option.some.inj same
    refine ⟨fun absent => configured (by rw [absent]; rfl), ?_⟩
    have opening := Effect.yields_mapError.mp done
    cases kind : c.audit.sinkType with
    | file =>
      rw [kind] at opening
      obtain ⟨count, _, _, made⟩ := Effect.yields_bind.mp opening
      obtain ⟨rfl, _⟩ := Effect.yields_pure.mp made
      refine ⟨rfl, fun _ => trivial, fun missing => ?_⟩
      exact absurd (kind.symm.trans missing.1) (by decide)
    | worm =>
      rw [kind] at opening
      obtain ⟨state, rfl, sized, file⟩ := worm_yields opening
      refine ⟨rfl, fun present => ⟨fun gone => present ⟨kind, file.mp gone⟩, sized⟩, ?_⟩
      exact fun missing => ⟨state, rfl, file.mpr missing.2⟩

theorem buildAuditLog_none {d after : Disk}
    (built : (c.buildAuditLog B io).Yields d none after) : c.audit.path = none := by
  obtain ⟨_, _, afterCheck⟩ := Effect.yields_then.mp built
  split at afterCheck
  · rename_i absent
    exact Option.isNone_iff_eq_none.mp absent
  · obtain ⟨_, _, _, returned⟩ := Effect.yields_bind.mp afterCheck
    cases (Effect.yields_pure.mp returned).1

variable (B io) in
theorem record_file_missing {log : Trail.AuditLog} {state : Trail.WormManifest} {d : Disk}
    (worm : log.sink = .worm state) (gone : d.file = none) (r : StampedRecord) :
    (∃ e, (log.record B io r d).1 = .error e) ∧ (log.record B io r d).2 = (d, log) := by
  obtain ⟨sink, previousHash, envelopes, signingKey, verifyingKey⟩ := log
  obtain rfl : sink = .worm state := worm
  unfold Trail.AuditLog.record
  split
  · exact ⟨⟨_, rfl⟩, rfl⟩
  · rename_i envelope made
    have refused : ∃ e, Trail.WormAuditSink.appendEnvelope io state envelope d =
        (.error e, d, state) := by
      unfold Trail.WormAuditSink.appendEnvelope
      rw [gone]
      split
      · exact ⟨_, rfl⟩
      · exact ⟨_, rfl⟩
      · rename_i there _
        cases there
      · rename_i there _
        cases there
    obtain ⟨e, refused⟩ := refused
    have appended : (Trail.Sink.worm state).appendEnvelope io envelope d =
        (.error e, d, .worm state) := by
      rw [Trail.Sink.appendEnvelope, refused]
    rw [appended]
    exact ⟨⟨_, rfl⟩, rfl⟩

theorem ran_file_missing {log : Trail.AuditLog} {state : Trail.WormManifest} {d : Disk}
    (worm : log.sink = .worm state) (gone : d.file = none)
    (calls : List (IoAnswers × StampedRecord)) : ran B calls (d, log) = (d, log) := by
  induction calls with
  | nil => rfl
  | cons call rest ih =>
    have first : (log.record B call.1 call.2 d).2 = (d, log) :=
      (record_file_missing B call.1 worm gone call.2).2
    have split : ran B (call :: rest) (d, log) = ran B rest (log.record B call.1 call.2 d).2 := rfl
    rw [split, first, ih]

theorem signsAll_of_missing {log : Trail.AuditLog} {state : Trail.WormManifest} {d : Disk}
    (worm : log.sink = .worm state) (gone : d.file = none) : SignsAll B log d where
  persisted calls io r e := by
    rw [ran_file_missing worm gone]
    intro s made written
    have unchanged := (record_file_missing B io worm gone r).2
    have grown := d.size_appended e
    have same : d.content = d.content ++ e.endedLine :=
      (congrArg (fun s => s.1.content) unchanged).symm.trans written
    rw [Disk.size, Disk.size, Disk.appended_content, ← same] at grown
    exact absurd grown (Nat.lt_irrefl _)
  refused calls io r := by
    rw [ran_file_missing worm gone]
    intro s accepted
    obtain ⟨e, failed⟩ := (record_file_missing B io worm gone r).1
    cases accepted.symm.trans failed

variable (B) in
theorem unsigned_of_ready (log : Trail.AuditLog) {d : Disk} (keyless : log.signingKey = none)
    (ready : log.sink.Ready d) (r : StampedRecord) :
    (log.record B {} r d).1 = .ok () ∧
      log.envelopeFor B r = .ok (.sealed B.crypto r log.previousHash) := by
  have made : log.envelopeFor B r = .ok (.sealed B.crypto r log.previousHash) := by
    rw [Trail.AuditLog.envelopeFor, keyless]
  obtain ⟨after, sink, done, _⟩ := Trail.record_ready made ready
  exact ⟨congrArg Prod.fst done, made⟩

/-- Where signed records are required, they are signed if there is no log to write them to. -/
theorem required_signatures_iff {d after : Disk} {result : Option Trail.AuditLog}
    (built : c.Builds B files io stamp d result after) :
    (c.requiresSigned = true → ∀ log, result = some log → SignsAll B log after) ↔
      c.requiresSigned = false ∨ c.audit.path = none ∨ c.FileMissing d := by
  have opened := builds_log built
  cases required : c.requiresSigned with
  | false =>
    refine ⟨fun _ => .inl rfl, fun _ impossible => ?_⟩
    cases impossible
  | true =>
    cases result with
    | none =>
      refine ⟨fun _ => .inr (.inl (buildAuditLog_none opened)), fun _ _ log absent => ?_⟩
      cases absent
    | some log =>
      obtain ⟨configured, keyless, ready, missing⟩ := buildAuditLog_yields opened
      constructor
      · intro signs
        by_contra present
        have possible : ¬ c.FileMissing d := fun gone => present (.inr (.inr gone))
        obtain ⟨accepted, made⟩ := unsigned_of_ready B log keyless (ready possible)
          Trail.earlyRecord
        obtain ⟨e, other, signed⟩ := (signs rfl log rfl).refused [] {} _ accepted
        obtain rfl := Except.ok.inj (made.symm.trans other)
        exact signed rfl
      · rintro (unrequired | absent | gone) _ other same
        · cases unrequired
        · exact absurd absent configured
        · obtain rfl := Option.some.inj same
          obtain ⟨state, worm, file⟩ := missing gone
          exact signsAll_of_missing worm file

def accreditedGuard : DcsConfig :=
  { coalition ["USA", "GBR"] with
    audit := ⟨some "../target/dcs-accredited-audit.jsonl", .worm, true, true⟩
    accredited := true }

def stampedAt (id time : String) (r : AuditRecord) : StampedRecord :=
  { r with id := id, timestamp := ⟨time⟩ }

/-- The accredited guard is built, and its log takes a record without a signature. -/
theorem accredited_log_unsigned :
    accreditedGuard.requiresSigned = true ∧
      ∃ guard log after, (accreditedGuard.buildGuard Trail.recordsBackend releasesFile {}
          (stampedAt "1" "2024-05-01T08:00:00Z")).Yields {} (guard, some log) after ∧
        (log.record Trail.recordsBackend {} Trail.earlyRecord after).1 = .ok () ∧
        (∃ e, log.envelopeFor Trail.recordsBackend Trail.earlyRecord = .ok e ∧ e.signature = none) ∧
        ¬ SignsAll Trail.recordsBackend log after := by
  refine ⟨by decide, _, _, _, rfl, ?_⟩
  have ready : (Trail.Sink.worm ⟨0, 0, Trail.genesis⟩).Ready
      ⟨some [], some ⟨0, 0, Trail.genesis⟩⟩ := by
    refine ⟨fun gone => ?_, rfl⟩
    cases gone
  obtain ⟨accepted, made⟩ := unsigned_of_ready Trail.recordsBackend
    (.new (.worm ⟨0, 0, Trail.genesis⟩)) rfl ready Trail.earlyRecord
  refine ⟨accepted, ⟨_, made, rfl⟩, fun signs => ?_⟩
  obtain ⟨e, other, signed⟩ := signs.refused [] {} _ accepted
  obtain rfl := Except.ok.inj (made.symm.trans other)
  exact signed rfl

theorem required_signatures_fixture :
    let disk : Disk := ⟨none, some ⟨0, 0, Trail.genesis⟩⟩
    accreditedGuard.requiresSigned = true ∧
      ∃ guard log after, (accreditedGuard.buildGuard Trail.recordsBackend releasesFile {}
          (stampedAt "1" "2024-05-01T08:00:00Z")).Yields disk (guard, some log) after ∧
        SignsAll Trail.recordsBackend log after := by
  intro disk
  have required : accreditedGuard.requiresSigned = true := by decide
  obtain ⟨guard, log, after, built⟩ : ∃ guard log after,
      (accreditedGuard.buildGuard Trail.recordsBackend releasesFile {}
        (stampedAt "1" "2024-05-01T08:00:00Z")).Yields disk (guard, some log) after :=
    ⟨_, _, _, rfl⟩
  have gone : accreditedGuard.FileMissing disk := ⟨rfl, rfl, Option.some_ne_none _⟩
  exact ⟨required, guard, log, after, built,
    (required_signatures_iff (.inr ⟨guard, built⟩)).mpr (.inr (.inr gone)) required log rfl⟩

end Signatures

end DcsConfig

end MimDcs
