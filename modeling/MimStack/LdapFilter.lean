import MimStack.Lib.SearchFilter
import MimStack.Lib.Text

/-!
The search of a live directory. The uid of a principal is written into a template of a
filter, character by character as it is.
-/
namespace MimPolicy
open RustText ByteText SearchFilter

def principalUidForSearch (principal : String) : String :=
  let trimmed := trim principal
  match stripPrefix "uid=" trimmed with
  | some rest => (split (· == ',') rest).headD trimmed
  | none => trimmed

def buildSearchFilter (searchFilter : Option String) (principal : String) : String :=
  let filterTemplate := searchFilter.getD "(uid=\x7bprincipal\x7d)"
  replace "\x7bprincipal\x7d" (principalUidForSearch principal) filterTemplate

/-- A template that asserts one attribute. -/
def assertionTemplate (attr : String) : String := "(" ++ attr ++ "=\x7bprincipal\x7d)"

theorem buildSearchFilter_assertion {searchFilter : Option String} {attr : String}
    (template : searchFilter.getD "(uid=\x7bprincipal\x7d)" = assertionTemplate attr)
    (described : isAttributeDescription attr.toList = true) (principal : String) :
    buildSearchFilter searchFilter principal =
      "(" ++ attr ++ "=" ++ principalUidForSearch principal ++ ")" := by
  have noBrace : '{' ∉ '(' :: (attr.toList ++ ['=']) := by
    have absent : '{' ∉ attr.toList := attribute_absent described (by decide)
    simp [absent]
  have pattern : "\x7bprincipal\x7d" = .ofList ('{' :: "principal\x7d".toList) := by decide
  have text : assertionTemplate attr =
      .ofList ('(' :: (attr.toList ++ ['=']) ++ '{' :: "principal\x7d".toList ++ [')']) := by
    rw [← String.toList_inj, assertionTemplate]
    simp
  rw [buildSearchFilter, template, text, pattern, replace_once noBrace (by decide),
    ← String.toList_inj]
  simp

/-- The filter is read as one assertion of the attribute, with the uid for its value, and an entry
matches it only with this value. -/
def LiteralFilter (searchFilter : Option String) (attr principal : String) : Prop :=
  read (buildSearchFilter searchFilter principal) =
      some (.equality attr (utf8 (principalUidForSearch principal))) ∧
    ∀ (rules : MatchingRules) (entry : String → List Bytes) (filter : Filter),
      read (buildSearchFilter searchFilter principal) = some filter →
      filter.holds rules entry = true →
        ∃ value ∈ entry attr,
          rules.equality attr value (utf8 (principalUidForSearch principal)) = true

theorem search_filter_literal_iff (searchFilter : Option String) (attr principal : String)
    (template : searchFilter.getD "(uid=\x7bprincipal\x7d)" = assertionTemplate attr)
    (described : isAttributeDescription attr.toList = true) :
    LiteralFilter searchFilter attr principal ↔
      ∀ c ∈ (principalUidForSearch principal).toList, plainChar c = true := by
  rw [LiteralFilter, buildSearchFilter_assertion template described,
    ← read_equality_iff (principalUidForSearch principal) described]
  constructor
  · exact And.left
  · intro literal
    refine ⟨literal, ?_⟩
    intro rules entry filter parsed matched
    obtain rfl := Option.some.inj (literal.symm.trans parsed)
    rw [Filter.holds, List.any_eq_true] at matched
    exact matched

theorem analyst_filter_literal : LiteralFilter none "uid"
    "uid=gbr-allied-analyst,ou=GBR,ou=operators,dc=nato,dc=int" := by
  have uid : principalUidForSearch "uid=gbr-allied-analyst,ou=GBR,ou=operators,dc=nato,dc=int" =
      "gbr-allied-analyst" := by decide
  refine (search_filter_literal_iff none "uid" _ (by decide) (by decide)).mpr ?_
  rw [uid]
  exact List.all_eq_true.mp (by decide)

/-- A principal of one asterisk asks for any entry with a uid. -/
theorem asterisk_matches_any :
    principalUidForSearch "*" = "*" ∧ read (buildSearchFilter none "*") = some (.present "uid") ∧
      ¬ LiteralFilter none "uid" "*" := by
  have uid : principalUidForSearch "*" = "*" := by decide
  have filter : buildSearchFilter none "*" = "(uid=*)" := by decide
  have parsed : read (buildSearchFilter none "*") = some (.present "uid") := by
    rw [filter]
    rfl
  refine ⟨uid, parsed, ?_⟩
  intro literal
  have same := parsed.symm.trans literal.1
  cases same

end MimPolicy
