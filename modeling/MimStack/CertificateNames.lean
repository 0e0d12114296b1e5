import MimStack.SubjectLookups

/-!
Certificate names without a mapping. Such a name is written into the directory name of
an operator, which is then looked up as any principal is.
-/
namespace MimPolicy
open RustText IndexedMap IndexedMap.IndexMap MimLabeling

def operatorDn (cn : String) : String := "uid=" ++ cn ++ ",ou=operators,dc=nato,dc=int"

def uidOf (principal : String) : Option String :=
  (split (· == ',') (toAsciiLowercase principal)).findSome? fun part =>
    stripPrefix "uid=" (trimStartMatches isWhitespace part)

/-- The entry's uid is the certificate name, but for case and outer white space. -/
def NamedBy (e : LdapSubjectEntry) (cn : String) : Prop :=
  ∃ uid, uidOf e.principal = some uid ∧ normalizePrincipal uid = normalizePrincipal cn

theorem comma_normalized {s : String} : ',' ∈ (normalizePrincipal s).toList ↔ ',' ∈ s.toList := by
  rw [normalizePrincipal, mem_toAsciiLowercase_of_caseless (by decide),
    mem_trim_of_visible (by decide)]

theorem uidOf_unseparated {principal uid : String} (found : uidOf principal = some uid) :
    ',' ∉ uid.toList := by
  obtain ⟨part, listed, stripped⟩ := List.exists_of_findSome?_eq_some found
  rw [stripPrefix_some_iff] at stripped
  intro comma
  have within : ',' ∈ (trimStartMatches isWhitespace part).toList := by
    rw [stripped, String.toList_append]
    exact List.mem_append_right _ comma
  rw [trimStartMatches, String.toList_ofList] at within
  have apart := split_parts_unseparated listed ',' ((List.dropWhile_suffix _).subset within)
  cases apart

theorem namedBy_unseparated {e : LdapSubjectEntry} {cn : String} (named : NamedBy e cn) :
    ',' ∉ cn.toList := by
  obtain ⟨uid, found, same⟩ := named
  rw [← comma_normalized, ← same, comma_normalized]
  exact uidOf_unseparated found

theorem split_first (p : Char → Bool) (s : String) :
    ∃ rest, split p s = .ofList (s.toList.takeWhile fun c => !p c) :: rest := by
  cases parts : split p s with
  | nil => exact absurd (List.map_eq_nil_iff.mp parts) (List.splitOnP_ne_nil _ _)
  | cons head rest =>
    have first := split_head p s ""
    rw [parts] at first
    exact ⟨rest, by rw [← first]; rfl⟩

theorem toAsciiLowercase_append (a b : String) :
    toAsciiLowercase (a ++ b) = toAsciiLowercase a ++ toAsciiLowercase b := by
  rw [← String.toList_inj, String.toList_append]
  simp only [toAsciiLowercase, String.toList_ofList, String.toList_append, List.map_append]

theorem operatorDn_whole (cn : String) : trim (operatorDn cn) = operatorDn cn := by
  rw [trim_whole_iff, operatorDn, String.toList_append, String.toList_append]
  have start : "uid=".toList.head? = some 'u' := by decide
  have finish : ",ou=operators,dc=nato,dc=int".toList.getLast? = some 't' := by decide
  constructor
  · intro c first
    rw [List.append_assoc, List.head?_append, start] at first
    exact Option.some.inj first ▸ (by decide)
  · intro c last
    rw [List.getLast?_append, finish] at last
    exact Option.some.inj last ▸ (by decide)

theorem operatorDn_normalized (cn : String) : normalizePrincipal (operatorDn cn) =
    operatorDn (toAsciiLowercase cn) := by
  have start : toAsciiLowercase "uid=" = "uid=" := by decide
  have finish : toAsciiLowercase ",ou=operators,dc=nato,dc=int" = ",ou=operators,dc=nato,dc=int" := by
    decide
  rw [normalizePrincipal, operatorDn_whole, operatorDn, toAsciiLowercase_append,
    toAsciiLowercase_append, start, finish, operatorDn]

theorem operatorDn_first (cn : String) (before after : List Char) (plain : ',' ∉ before) :
    (before ++ (operatorDn cn).toList ++ after).takeWhile (· != ',') =
      before ++ ("uid=".toList ++ cn.toList.takeWhile (· != ',')) := by
  have noComma : ∀ chars : List Char, ',' ∉ chars → ∀ c ∈ chars, (c != ',') = true := by
    intro chars absent c mem
    rw [bne_iff_ne]
    intro comma
    exact absent (comma ▸ mem)
  have start : ',' ∉ "uid=".toList := by decide
  obtain ⟨unit, finish⟩ : ∃ unit, ",ou=operators,dc=nato,dc=int".toList = ',' :: unit := ⟨_, rfl⟩
  rw [operatorDn, String.toList_append, String.toList_append, finish]
  simp only [List.append_assoc]
  rw [List.takeWhile_append_of_pos (noComma before plain),
    List.takeWhile_append_of_pos (noComma _ start)]
  congr 2
  induction cn.toList with
  | nil => rfl
  | cons c rest ih => rw [List.cons_append, List.takeWhile_cons, List.takeWhile_cons, ih]

theorem uidOf_operator {principal cn : String}
    (same : normalizePrincipal principal = normalizePrincipal (operatorDn cn)) :
    uidOf principal =
      some (.ofList ((toAsciiLowercase cn).toList.takeWhile (· != ','))) := by
  have trimmed : trim (toAsciiLowercase principal) = operatorDn (toAsciiLowercase cn) := by
    rw [trim_toAsciiLowercase, ← operatorDn_normalized, ← same, normalizePrincipal]
  obtain ⟨before, after, around, white, _⟩ := trim_around (toAsciiLowercase principal)
  rw [trimmed] at around
  have plain : ',' ∉ before := by
    intro comma
    have spaced := white ',' comma
    cases spaced
  obtain ⟨rest, parts⟩ := split_first (· == ',') (toAsciiLowercase principal)
  have first : ((toAsciiLowercase principal).toList.takeWhile fun c => !(c == ',')) =
      before ++ ("uid=".toList ++ (toAsciiLowercase cn).toList.takeWhile (· != ',')) := by
    rw [around]
    exact operatorDn_first _ before after plain
  rw [uidOf, parts, first, List.findSome?_cons]
  have begun : ("uid=".toList ++ (toAsciiLowercase cn).toList.takeWhile (· != ',')).dropWhile
      isWhitespace = "uid=".toList ++ (toAsciiLowercase cn).toList.takeWhile (· != ',') :=
    List.dropWhile_cons_of_neg (by decide)
  have stripped : trimStartMatches isWhitespace
      (.ofList (before ++ ("uid=".toList ++ (toAsciiLowercase cn).toList.takeWhile (· != ',')))) =
        "uid=" ++ .ofList ((toAsciiLowercase cn).toList.takeWhile (· != ',')) := by
    rw [trimStartMatches, String.toList_ofList, List.dropWhile_append_of_pos white, begun,
      String.ofList_append, String.ofList_toList]
  rw [(stripPrefix_some_iff _ _ _).mpr stripped]

theorem namedBy_operator {e : LdapSubjectEntry} {cn : String}
    (same : normalizePrincipal e.principal = normalizePrincipal (operatorDn cn)) :
    NamedBy e cn ↔ ',' ∉ cn.toList := by
  constructor
  · exact namedBy_unseparated
  · intro unseparated
    refine ⟨_, uidOf_operator same, ?_⟩
    have whole : (toAsciiLowercase cn).toList.takeWhile (· != ',') = (toAsciiLowercase cn).toList := by
      rw [List.takeWhile_eq_self_iff]
      intro c mem
      rw [bne_iff_ne]
      intro comma
      rw [comma, mem_toAsciiLowercase_of_caseless (by decide)] at mem
      exact unseparated mem
    rw [whole, String.ofList_toList, normalizePrincipal, normalizePrincipal, trim_toAsciiLowercase,
      toAsciiLowercase_toAsciiLowercase]

/-- The entry that the certificate name is resolved to. -/
def ResolvesTo (d : LdapSubjectDirectory) (cn : String) (e : LdapSubjectEntry) : Prop :=
  d.lookup (operatorDn cn) = some e ∧ ∃ subject, d.resolveCertCn cn = .ok subject

def Readable (e : LdapSubjectEntry) : Prop :=
  ∃ level, ClassificationLevel.parse e.clearance = .ok level

/-- An entry that is kept under the operator's name has no comma in its part of it, and one that
merely has this name for its subject identifier is the certificate's own. -/
def NoForeignName (d : LdapSubjectDirectory) (cn : String) : Prop :=
  let dn := normalizePrincipal (operatorDn cn)
  (∀ e, d.entries.get dn = some e → Readable e → ',' ∉ cn.toList) ∧
    ∀ e, d.entries.get dn = none → (d.entries.values.find? fun e => e.subjectId == dn) = some e →
      Readable e → NamedBy e cn

section Resolution

variable {config : LdapPipConfig} {entries : List LdapSubjectEntry}
  {search : String → Except PolicyError SubjectAttributes} {cn : String}

theorem indexed_principal {key : String} {e : LdapSubjectEntry}
    (found : (LdapSubjectDirectory.fromConfig config entries search).entries.get key = some e) :
    normalizePrincipal e.principal = key := by
  obtain ⟨other, _, own, rfl⟩ := ofList_get_mem found
  exact own

theorem readable_iff (e : LdapSubjectEntry) :
    Readable e ↔ ∃ subject, e.toSubjectAttributes = .ok subject := by
  unfold Readable LdapSubjectEntry.toSubjectAttributes
  cases ClassificationLevel.parse e.clearance with
  | error cause => simp
  | ok level => simp

theorem resolvesTo_iff (fixture : config.fixtureMode = true)
    (unmapped : ∀ m ∈ config.certMappings, m.cn ≠ cn) (e : LdapSubjectEntry) :
    ResolvesTo (.fromConfig config entries search) cn e ↔
      (LdapSubjectDirectory.fromConfig config entries search).lookup (operatorDn cn) = some e ∧
        Readable e := by
  have noMapping : (LdapSubjectDirectory.fromConfig config entries search).certToPrincipal.get cn =
      none := by
    rw [Option.eq_none_iff_forall_ne_some]
    intro target mapped
    obtain ⟨m, configured, own⟩ := mapped_cn mapped
    exact unmapped m configured own
  have spliced : (LdapSubjectDirectory.fromConfig config entries search).resolveCertCn cn =
      (LdapSubjectDirectory.fromConfig config entries search).resolvePrincipal (operatorDn cn) := by
    rw [LdapSubjectDirectory.resolveCertCn, noMapping]
    rfl
  rw [ResolvesTo, spliced, readable_iff]
  apply and_congr_right
  intro found
  rw [LdapSubjectDirectory.resolvePrincipal_of_lookup _ fixture found]

theorem certificate_name_own_iff (config : LdapPipConfig) (entries : List LdapSubjectEntry)
    (search : String → Except PolicyError SubjectAttributes) (cn : String)
    (fixture : config.fixtureMode = true) (unmapped : ∀ m ∈ config.certMappings, m.cn ≠ cn) :
    ((∀ e, ResolvesTo (.fromConfig config entries search) cn e → NamedBy e cn) ∧
      (',' ∈ cn.toList → ∀ e, ¬ ResolvesTo (.fromConfig config entries search) cn e)) ↔
      NoForeignName (.fromConfig config entries search) cn := by
  simp only [resolvesTo_iff fixture unmapped, LdapSubjectDirectory.lookup, Option.or_eq_some_iff,
    NoForeignName]
  constructor
  · intro own
    refine ⟨?_, ?_⟩
    · intro e indexed readable
      exact namedBy_unseparated (own.1 e ⟨Or.inl indexed, readable⟩)
    · intro e unindexed bySubject readable
      exact own.1 e ⟨Or.inr ⟨unindexed, bySubject⟩, readable⟩
  · intro apart
    have named : ∀ e, ((LdapSubjectDirectory.fromConfig config entries search).entries.get
          (normalizePrincipal (operatorDn cn)) = some e ∨
        (LdapSubjectDirectory.fromConfig config entries search).entries.get
          (normalizePrincipal (operatorDn cn)) = none ∧
          ((LdapSubjectDirectory.fromConfig config entries search).entries.values.find? fun e =>
            e.subjectId == normalizePrincipal (operatorDn cn)) = some e) ∧ Readable e →
        NamedBy e cn := by
      intro e found
      obtain ⟨indexed | bySubject, readable⟩ := found
      · exact (namedBy_operator (indexed_principal indexed)).mpr (apart.1 e indexed readable)
      · exact apart.2 e bySubject.1 bySubject.2 readable
    exact ⟨named, fun separated e found => namedBy_unseparated (named e found) separated⟩

theorem indexed_alone (e : LdapSubjectEntry) :
    (LdapSubjectDirectory.fromConfig {} [e] search).entries.get (normalizePrincipal e.principal) =
      some e :=
  (get_insert empty _ _ e).trans (if_pos rfl)

end Resolution

def operatorEntry : LdapSubjectEntry :=
  { principal := "uid=deu-analyst,ou=operators,dc=nato,dc=int", subjectId := "deu-analyst",
    clearance := "SECRET", nationality := some "DEU" }

theorem operator_resolved :
    let d := LdapSubjectDirectory.fromConfig {} [operatorEntry] noSearch
    ResolvesTo d "deu-analyst" operatorEntry ∧
      (∀ e, ResolvesTo d "deu-analyst" e → NamedBy e "deu-analyst") ∧
      (',' ∈ "deu-analyst".toList → ∀ e, ¬ ResolvesTo d "deu-analyst" e) := by
  intro d
  have unmapped : ∀ m ∈ ({} : LdapPipConfig).certMappings, m.cn ≠ "deu-analyst" := by simp
  have spliced : operatorDn "deu-analyst" = operatorEntry.principal := by decide
  have indexed : d.entries.get (normalizePrincipal (operatorDn "deu-analyst")) =
      some operatorEntry := by
    rw [spliced]
    exact indexed_alone operatorEntry
  have own : NoForeignName d "deu-analyst" := by
    refine ⟨fun _ _ _ => by decide, ?_⟩
    intro e absent
    rw [indexed] at absent
    cases absent
  refine ⟨?_, (certificate_name_own_iff {} [operatorEntry] noSearch "deu-analyst" rfl
    unmapped).mpr own⟩
  rw [resolvesTo_iff rfl unmapped, LdapSubjectDirectory.lookup, indexed]
  exact ⟨rfl, .secret, ClassificationLevel.parse_asStanagStr .secret⟩

/-- A name with a comma in it is taken for the analyst of a unit. -/
theorem injected_unit_resolved :
    let d := LdapSubjectDirectory.fromConfig {} [usaAnalyst] noSearch
    ResolvesTo d "usa-analyst,ou=USA" usaAnalyst ∧ ¬ NamedBy usaAnalyst "usa-analyst,ou=USA" := by
  intro d
  have unmapped : ∀ m ∈ ({} : LdapPipConfig).certMappings, m.cn ≠ "usa-analyst,ou=USA" := by simp
  have spliced : operatorDn "usa-analyst,ou=USA" = usaAnalyst.principal := by decide
  refine ⟨?_, ?_⟩
  · rw [resolvesTo_iff rfl unmapped, LdapSubjectDirectory.lookup, spliced,
      indexed_alone usaAnalyst]
    exact ⟨rfl, .secret, ClassificationLevel.parse_asStanagStr .secret⟩
  · intro named
    exact namedBy_unseparated named (by decide)

end MimPolicy
