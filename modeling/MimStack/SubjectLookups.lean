import MimStack.Subjects
import MimStack.Lib.AsciiCase

/-!
What a fixture directory finds. Its entries are kept under their normalised principals,
and a name that is not among these is compared with the subject identifiers as they are.
-/
namespace MimPolicy
open RustText IndexedMap IndexedMap.IndexMap MimLabeling

namespace LdapSubjectDirectory

variable (d : LdapSubjectDirectory)

def lookup (principal : String) : Option LdapSubjectEntry :=
  (d.entries.get (normalizePrincipal principal)).or
    (d.entries.values.find? fun e => e.subjectId == normalizePrincipal principal)

theorem resolvePrincipal_of_lookup {e : LdapSubjectEntry} {name : String}
    (fixture : d.fixtureMode = true) (found : d.lookup name = some e) :
    d.resolvePrincipal name = e.toSubjectAttributes := by
  rw [lookup] at found
  rw [resolvePrincipal, if_pos fixture]
  simp only [found]

theorem lookup_of_resolved {name : String} {subject : SubjectAttributes}
    (fixture : d.fixtureMode = true) (resolved : d.resolvePrincipal name = .ok subject) :
    ∃ e, d.lookup name = some e ∧ e.toSubjectAttributes = .ok subject := by
  rw [resolvePrincipal, if_pos fixture] at resolved
  cases found : d.lookup name with
  | none =>
    rw [lookup] at found
    simp only [found] at resolved
    cases resolved
  | some e =>
    rw [lookup] at found
    simp only [found] at resolved
    exact ⟨e, rfl, resolved⟩

end LdapSubjectDirectory

theorem toSubjectAttributes_subjectId {e : LdapSubjectEntry} {subject : SubjectAttributes}
    (resolved : e.toSubjectAttributes = .ok subject) : subject.subjectId = e.subjectId := by
  unfold LdapSubjectEntry.toSubjectAttributes at resolved
  split at resolved
  · cases resolved
  · exact (Except.ok.inj resolved) ▸ rfl

theorem toSubjectAttributes_ok {e : LdapSubjectEntry} {level : ClassificationLevel}
    (parsed : ClassificationLevel.parse e.clearance = .ok level) :
    ∃ subject, e.toSubjectAttributes = .ok subject := by
  unfold LdapSubjectEntry.toSubjectAttributes
  cases read : ClassificationLevel.parse e.clearance with
  | error cause =>
    have clash := read.symm.trans parsed
    cases clash
  | ok level => exact ⟨_, rfl⟩

theorem normalizePrincipal_normalized (name : String) :
    normalizePrincipal (normalizePrincipal name) = normalizePrincipal name := by
  rw [normalizePrincipal, normalizePrincipal, trim_toAsciiLowercase, trim_trim,
    toAsciiLowercase_toAsciiLowercase]

theorem ofList_get_mem {A V : Type} {items : List A} {name : A → String} {value : A → V}
    {key : String} {v : V}
    (found : (IndexMap.ofList (items.map fun a => (name a, value a))).get key = some v) :
    ∃ a ∈ items, name a = key ∧ value a = v := by
  rw [get_ofList, Option.map_eq_some_iff] at found
  obtain ⟨entry, first, rfl⟩ := found
  obtain ⟨a, listed, rfl⟩ := List.mem_map.mp
    (List.mem_reverse.mp (List.mem_of_find?_eq_some first))
  exact ⟨a, listed, by simpa using List.find?_some first, rfl⟩

section Lookups

variable {config : LdapPipConfig} {entries : List LdapSubjectEntry}
  {search : String → Except PolicyError SubjectAttributes}

/-- A fixture directory whose names are told apart, from each other and from the mapped
certificate names, and whose clearances can be read. -/
structure WellNamed (config : LdapPipConfig) (entries : List LdapSubjectEntry) : Prop where
  fixture : config.fixtureMode = true
  clearances : ∀ e ∈ entries, ∃ level, ClassificationLevel.parse e.clearance = .ok level
  distinct : (entries.map (fun e => normalizePrincipal e.principal) ++
    entries.map fun e => normalizePrincipal e.subjectId).Nodup
  unmapped : ∀ e ∈ entries, ∀ m ∈ config.certMappings,
    m.cn ≠ normalizePrincipal e.principal ∧ m.cn ≠ normalizePrincipal e.subjectId

/-- The name stands for the entry, alone and as the identity of a caller. -/
def ResolvesToItself (d : LdapSubjectDirectory) (e : LdapSubjectEntry) (name : String) : Prop :=
  d.resolvePrincipal name = e.toSubjectAttributes ∧
    d.resolveCertCnOrPrincipal name = e.toSubjectAttributes

theorem fromConfig_entries (named : WellNamed config entries) :
    (LdapSubjectDirectory.fromConfig config entries search).entries.entries =
      entries.map fun e => (normalizePrincipal e.principal, e) := by
  have fresh : (entries.map fun e => normalizePrincipal e.principal).Nodup :=
    (List.nodup_append.mp named.distinct).1
  apply entries_insertAll_fresh
  simpa [IndexMap.empty, Function.comp_def] using fresh

theorem fromConfig_values (named : WellNamed config entries) :
    (LdapSubjectDirectory.fromConfig config entries search).entries.values = entries := by
  rw [IndexMap.values, fromConfig_entries named, List.map_map]
  exact List.map_id' entries

theorem same_subject (named : WellNamed config entries) {e other : LdapSubjectEntry}
    (listed : e ∈ entries) (listed' : other ∈ entries)
    (same : normalizePrincipal e.subjectId = normalizePrincipal other.subjectId) : e = other := by
  have distinct := (List.nodup_append.mp named.distinct).2.1
  exact List.inj_on_of_nodup_map distinct listed listed' same

theorem principal_apart (named : WellNamed config entries) {e other : LdapSubjectEntry}
    (listed : e ∈ entries) (listed' : other ∈ entries) :
    normalizePrincipal e.principal ≠ normalizePrincipal other.subjectId :=
  (List.nodup_append.mp named.distinct).2.2 _ (List.mem_map_of_mem listed) _
    (List.mem_map_of_mem listed')

theorem indexed_iff (named : WellNamed config entries) (key : String) (e : LdapSubjectEntry) :
    (LdapSubjectDirectory.fromConfig config entries search).entries.get key = some e ↔
      e ∈ entries ∧ key = normalizePrincipal e.principal := by
  constructor
  · intro found
    have stored := mem_of_get _ key e found
    rw [fromConfig_entries named] at stored
    obtain ⟨other, listed, same⟩ := List.mem_map.mp stored
    obtain ⟨rfl, rfl⟩ := Prod.mk.inj same
    exact ⟨listed, rfl⟩
  · intro here
    obtain ⟨listed, rfl⟩ := here
    apply get_of_mem _ (normalizePrincipal e.principal, e)
    rw [fromConfig_entries named]
    exact List.mem_map_of_mem listed

theorem with_subjectId_iff (named : WellNamed config entries) (key : String)
    (e : LdapSubjectEntry) : (entries.find? fun other => other.subjectId == key) = some e ↔
      e ∈ entries ∧ e.subjectId = key := by
  constructor
  · intro found
    exact ⟨List.mem_of_find?_eq_some found, by simpa using List.find?_some found⟩
  · intro here
    obtain ⟨listed, rfl⟩ := here
    have present : (entries.find? fun other => other.subjectId == e.subjectId).isSome = true :=
      List.find?_isSome.mpr ⟨e, listed, beq_self_eq_true _⟩
    obtain ⟨other, found⟩ := Option.isSome_iff_exists.mp present
    have alike : other.subjectId = e.subjectId := by simpa using List.find?_some found
    rw [found, same_subject named (List.mem_of_find?_eq_some found) listed (by rw [alike])]

theorem lookup_iff (named : WellNamed config entries) (name : String) (e : LdapSubjectEntry) :
    (LdapSubjectDirectory.fromConfig config entries search).lookup name = some e ↔
      e ∈ entries ∧ (normalizePrincipal name = normalizePrincipal e.principal ∨
        normalizePrincipal name = e.subjectId) := by
  rw [LdapSubjectDirectory.lookup, fromConfig_values named, Option.or_eq_some_iff,
    indexed_iff named, with_subjectId_iff named, eq_comm (a := e.subjectId)]
  constructor
  · intro found
    rcases found with indexed | other
    · exact ⟨indexed.1, Or.inl indexed.2⟩
    · exact ⟨other.2.1, Or.inr other.2.2⟩
  · intro here
    obtain ⟨listed, byPrincipal | bySubject⟩ := here
    · exact Or.inl ⟨listed, byPrincipal⟩
    · refine Or.inr ⟨?_, listed, bySubject⟩
      rw [Option.eq_none_iff_forall_ne_some]
      intro other found
      obtain ⟨listed', same⟩ := (indexed_iff named _ _).mp found
      apply principal_apart named listed' listed
      rw [← bySubject, same, normalizePrincipal_normalized]

theorem resolvePrincipal_iff (named : WellNamed config entries) {e : LdapSubjectEntry}
    (listed : e ∈ entries) (name : String) :
    (LdapSubjectDirectory.fromConfig config entries search).resolvePrincipal name =
        e.toSubjectAttributes ↔
      normalizePrincipal name = normalizePrincipal e.principal ∨
        normalizePrincipal name = e.subjectId := by
  obtain ⟨level, parsed⟩ := named.clearances e listed
  obtain ⟨subject, own⟩ := toSubjectAttributes_ok parsed
  constructor
  · intro resolved
    obtain ⟨other, found, alike⟩ := LdapSubjectDirectory.lookup_of_resolved _ named.fixture
      (resolved.trans own)
    obtain ⟨listed', spelled⟩ := (lookup_iff named name other).mp found
    have same : other = e := by
      apply same_subject named listed' listed
      rw [← toSubjectAttributes_subjectId alike, toSubjectAttributes_subjectId own]
    exact same ▸ spelled
  · intro spelled
    exact LdapSubjectDirectory.resolvePrincipal_of_lookup _ named.fixture
      ((lookup_iff named name e).mpr ⟨listed, spelled⟩)

theorem mapped_cn {cn target : String}
    (mapped : (LdapSubjectDirectory.fromConfig config entries search).certToPrincipal.get cn =
      some target) : ∃ m ∈ config.certMappings, m.cn = cn := by
  obtain ⟨m, configured, own, _⟩ := ofList_get_mem mapped
  exact ⟨m, configured, own⟩

/-- Every subject identifier is its own normal form, and a principal that is also a certificate
name is mapped to a name of the same entry. -/
def LookupsMeet (config : LdapPipConfig) (entries : List LdapSubjectEntry)
    (search : String → Except PolicyError SubjectAttributes) : Prop :=
  ∀ e ∈ entries, normalizePrincipal e.subjectId = e.subjectId ∧
    ∀ target, (LdapSubjectDirectory.fromConfig config entries search).certToPrincipal.get
        e.principal = some target →
      normalizePrincipal target = normalizePrincipal e.principal ∨
        normalizePrincipal target = e.subjectId

theorem resolveCertCn_mapped (d : LdapSubjectDirectory) {cn target : String}
    (mapped : d.certToPrincipal.get cn = some target) :
    d.resolveCertCnOrPrincipal cn = d.resolvePrincipal target := by
  have known : d.certToPrincipal.containsKey cn = true := by rw [containsKey, mapped]; rfl
  rw [LdapSubjectDirectory.resolveCertCnOrPrincipal, if_pos known,
    LdapSubjectDirectory.resolveCertCn, mapped, Option.getD_some]

theorem resolveCertCnOrPrincipal_unmapped (d : LdapSubjectDirectory) {name : String}
    (unmapped : d.certToPrincipal.get name = none)
    (known : (d.entries.get (normalizePrincipal name)).isSome = true ∨
      ∃ e ∈ d.entries.values, e.subjectId = name) :
    d.resolveCertCnOrPrincipal name = d.resolvePrincipal name := by
  have notCn : ¬ d.certToPrincipal.containsKey name = true := by simp [containsKey, unmapped]
  rw [LdapSubjectDirectory.resolveCertCnOrPrincipal, if_neg notCn, if_pos]
  rw [containsKey, Bool.or_eq_true, List.any_eq_true]
  simpa using known

theorem resolveCertCnOrPrincipal_principal (named : WellNamed config entries)
    {e : LdapSubjectEntry} (listed : e ∈ entries) :
    (LdapSubjectDirectory.fromConfig config entries search).resolveCertCnOrPrincipal e.principal =
        e.toSubjectAttributes ↔
      ∀ target, (LdapSubjectDirectory.fromConfig config entries search).certToPrincipal.get
          e.principal = some target →
        normalizePrincipal target = normalizePrincipal e.principal ∨
          normalizePrincipal target = e.subjectId := by
  cases mapped : (LdapSubjectDirectory.fromConfig config entries search).certToPrincipal.get
      e.principal with
  | none =>
    have indexed : (LdapSubjectDirectory.fromConfig config entries search).entries.get
        (normalizePrincipal e.principal) = some e := (indexed_iff named _ e).mpr ⟨listed, rfl⟩
    rw [resolveCertCnOrPrincipal_unmapped _ mapped (Or.inl (Option.isSome_of_eq_some indexed)),
      resolvePrincipal_iff named listed]
    simp
  | some target =>
    rw [resolveCertCn_mapped _ mapped, resolvePrincipal_iff named listed]
    simp

theorem resolveCertCnOrPrincipal_subjectId (named : WellNamed config entries)
    {e : LdapSubjectEntry} (listed : e ∈ entries)
    (normal : normalizePrincipal e.subjectId = e.subjectId) :
    (LdapSubjectDirectory.fromConfig config entries search).resolveCertCnOrPrincipal e.subjectId =
      e.toSubjectAttributes := by
  have unmapped : (LdapSubjectDirectory.fromConfig config entries search).certToPrincipal.get
      e.subjectId = none := by
    rw [Option.eq_none_iff_forall_ne_some]
    intro target mapped
    obtain ⟨m, configured, cn⟩ := mapped_cn mapped
    exact (named.unmapped e listed m configured).2 (cn.trans normal.symm)
  rw [resolveCertCnOrPrincipal_unmapped _ unmapped, resolvePrincipal_iff named listed]
  · exact Or.inr normal
  · rw [fromConfig_values named]
    exact Or.inr ⟨e, listed, rfl⟩

theorem directory_complete_iff (config : LdapPipConfig) (entries : List LdapSubjectEntry)
    (search : String → Except PolicyError SubjectAttributes) (named : WellNamed config entries) :
    (∀ e ∈ entries,
      ResolvesToItself (.fromConfig config entries search) e e.principal ∧
        ResolvesToItself (.fromConfig config entries search) e e.subjectId) ↔
      LookupsMeet config entries search := by
  unfold ResolvesToItself LookupsMeet
  apply forall_congr'
  intro e
  apply forall_congr'
  intro listed
  rw [resolvePrincipal_iff named listed, resolvePrincipal_iff named listed,
    resolveCertCnOrPrincipal_principal named listed]
  constructor
  · intro complete
    obtain ⟨⟨_, mapped⟩, bySubject, _⟩ := complete
    exact ⟨bySubject.resolve_left (principal_apart named listed listed).symm, mapped⟩
  · intro met
    obtain ⟨normal, mapped⟩ := met
    exact ⟨⟨Or.inl rfl, mapped⟩, Or.inr normal,
      resolveCertCnOrPrincipal_subjectId named listed normal⟩

end Lookups

def usaAnalyst : LdapSubjectEntry :=
  { principal := "uid=usa-analyst,ou=USA,ou=operators,dc=nato,dc=int", subjectId := "usa-analyst",
    clearance := "SECRET", nationality := some "USA" }

def usaAnalystConfig : LdapPipConfig where
  certMappings := [⟨"usa-analyst.nato.mil", usaAnalyst.principal⟩]

def noSearch (_ : String) : Except PolicyError SubjectAttributes := .error (.notFound "")

theorem usaAnalyst_complete : WellNamed usaAnalystConfig [usaAnalyst] ∧
    ∀ e ∈ [usaAnalyst],
      ResolvesToItself (.fromConfig usaAnalystConfig [usaAnalyst] noSearch) e e.principal ∧
        ResolvesToItself (.fromConfig usaAnalystConfig [usaAnalyst] noSearch) e e.subjectId := by
  have principal : normalizePrincipal usaAnalyst.principal =
      "uid=usa-analyst,ou=usa,ou=operators,dc=nato,dc=int" := by decide
  have subjectId : normalizePrincipal usaAnalyst.subjectId = "usa-analyst" := by decide
  have named : WellNamed usaAnalystConfig [usaAnalyst] := by
    constructor
    · rfl
    · intro e listed
      rw [List.mem_singleton.mp listed]
      exact ⟨.secret, ClassificationLevel.parse_asStanagStr .secret⟩
    · simp [principal, subjectId]
    · simp [principal, subjectId, usaAnalystConfig]
  refine ⟨named, (directory_complete_iff usaAnalystConfig [usaAnalyst] noSearch named).mpr ?_⟩
  intro e listed
  rw [List.mem_singleton.mp listed]
  refine ⟨subjectId, ?_⟩
  intro target mapped
  obtain ⟨m, configured, own⟩ := mapped_cn mapped
  rw [List.mem_singleton.mp configured] at own
  exact absurd own (by decide)

def capitalEntry : LdapSubjectEntry :=
  { principal := "uid=ada,dc=nato", subjectId := "Ada", clearance := "SECRET" }

/-- The entry is not found by the subject identifier that the directory has for it. -/
theorem capital_subject_lost : WellNamed {} [capitalEntry] ∧
    ¬ ResolvesToItself (.fromConfig {} [capitalEntry] noSearch) capitalEntry
      capitalEntry.subjectId := by
  have named : WellNamed {} [capitalEntry] := by
    refine ⟨rfl, ?_, by decide, by simp⟩
    intro e listed
    rw [List.mem_singleton.mp listed]
    exact ⟨.secret, ClassificationLevel.parse_asStanagStr .secret⟩
  refine ⟨named, ?_⟩
  intro resolved
  have spelled := (resolvePrincipal_iff named (List.mem_singleton_self _) _).mp resolved.1
  exact absurd spelled (by decide)

end MimPolicy
