import MimStack.Model

/-!
Confidentiality labels, label policies and security domains, with the passage
from an instance's security metadata to a label.
-/
namespace MimLabeling
open RustText MimCore MimModel

inductive LabelError where
  | invalidClassification (message : String)
  | invalidPolicy (message : String)
  | invalidDomain (message : String)
  | validation (message : String)
  | parse (message : String)
  | serialization (message : String)
  | binding (message : String)
  | crossDomain (message : String)
  | compliance (message : String)
  deriving DecidableEq

def LabelError.toString : LabelError → String
  | .invalidClassification m => "invalid classification: " ++ m
  | .invalidPolicy m => "invalid policy: " ++ m
  | .invalidDomain m => "invalid domain: " ++ m
  | .validation m => "label validation error: " ++ m
  | .parse m => "parse error: " ++ m
  | .serialization m => "serialization error: " ++ m
  | .binding m => "binding error: " ++ m
  | .crossDomain m => "cross-domain policy violation: " ++ m
  | .compliance m => "compliance error: " ++ m

/-- Ordered from low to high by `rank`. -/
inductive ClassificationLevel where
  | unmarked
  | publicLevel
  | unclassified
  | internal
  | restricted
  | confidential
  | secret
  | cosmicTopSecret
  deriving DecidableEq

namespace ClassificationLevel

def all : List ClassificationLevel :=
  [.unmarked, .publicLevel, .unclassified, .internal, .restricted, .confidential, .secret,
    .cosmicTopSecret]

def rank : ClassificationLevel → Nat
  | .unmarked => 0
  | .publicLevel => 1
  | .unclassified => 2
  | .internal => 3
  | .restricted => 4
  | .confidential => 5
  | .secret => 6
  | .cosmicTopSecret => 7

theorem rank_injective (a b : ClassificationLevel) (same : a.rank = b.rank) : a = b := by
  cases a <;> cases b <;> first | rfl | simp [rank] at same

instance : LinearOrder ClassificationLevel := LinearOrder.lift' rank fun a b => rank_injective a b

def asStanagStr : ClassificationLevel → String
  | .unmarked => "UNMARKED"
  | .publicLevel => "PUBLIC"
  | .unclassified => "UNCLASSIFIED"
  | .internal => "INTERNAL"
  | .restricted => "RESTRICTED"
  | .confidential => "CONFIDENTIAL"
  | .secret => "SECRET"
  | .cosmicTopSecret => "COSMIC TOP SECRET"

def parse (value : String) : Except LabelError ClassificationLevel :=
  match toAsciiUppercase (trim value) with
  | "UNMARKED" => .ok .unmarked
  | "PUBLIC" => .ok .publicLevel
  | "UNCLASSIFIED" | "NATO UNCLASSIFIED" => .ok .unclassified
  | "INTERNAL" => .ok .internal
  | "RESTRICTED" | "NATO RESTRICTED" => .ok .restricted
  | "CONFIDENTIAL" | "NATO CONFIDENTIAL" | "NATO/EAPC CONFIDENTIAL"
  | "NATO/KFOR CONFIDENTIAL" => .ok .confidential
  | "SECRET" | "NATO SECRET" => .ok .secret
  | "TOP SECRET" | "COSMIC TOP SECRET" | "COSMIC_TOP_SECRET" => .ok .cosmicTopSecret
  | other => .error (.invalidClassification other)

theorem parse_asStanagStr (level : ClassificationLevel) : parse level.asStanagStr = .ok level := by
  cases level <;> rfl

theorem asStanagStr_injective (a b : ClassificationLevel) (same : a.asStanagStr = b.asStanagStr) :
    a = b := by
  have parsed := parse_asStanagStr a
  rw [same, parse_asStanagStr b] at parsed
  exact (Except.ok.inj parsed).symm

end ClassificationLevel

structure LabelPolicy where
  identifier : String
  oid : Option String
  allowedClassifications : List ClassificationLevel
  deriving DecidableEq

def LabelPolicy.new (identifier : String) : LabelPolicy := ⟨identifier, none, ClassificationLevel.all⟩

def LabelPolicy.withIdentifier (p : LabelPolicy) (identifier : String) : LabelPolicy :=
  { p with identifier }

def LabelPolicy.allowsClassification (p : LabelPolicy) (level : ClassificationLevel) : Bool :=
  p.allowedClassifications.contains level

def LabelPolicy.nato : LabelPolicy where
  identifier := "NATO"
  oid := some "urn:oid:2.16.840.1.101.2.3.6.1.31778.102.25"
  allowedClassifications := [.unclassified, .restricted, .confidential, .secret, .cosmicTopSecret]

inductive CategoryType where
  | restrictive
  | permissive
  | informative
  deriving DecidableEq

structure CategoryMarking where
  tagName : String
  categoryType : CategoryType
  values : List String
  deriving DecidableEq

def CategoryMarking.releasableTo (countries : List String) : CategoryMarking :=
  ⟨"Releasable to", .permissive, countries⟩

structure ConfidentialityLabel where
  policy : LabelPolicy
  classification : ClassificationLevel
  privacyMark : Option String
  colour : Option String
  markingData : Option String
  categories : List CategoryMarking
  alternativeLabels : List ConfidentialityLabel
  creationTime : Option DateTime
  reviewDateTime : Option DateTime

namespace ConfidentialityLabel

def new (policy : LabelPolicy) (classification : ClassificationLevel) : ConfidentialityLabel where
  policy := policy
  classification := classification
  privacyMark := none
  colour := none
  markingData := none
  categories := []
  alternativeLabels := []
  creationTime := none
  reviewDateTime := none

def withCategory (l : ConfidentialityLabel) (c : CategoryMarking) : ConfidentialityLabel :=
  { l with categories := l.categories ++ [c] }

def validateCategories : List CategoryMarking → Except LabelError Unit
  | [] => .ok ()
  | category :: rest =>
    if isEmpty category.tagName then .error (.validation "category tagName must not be empty")
    else if category.values.isEmpty then
      .error (.validation ("category '" ++ category.tagName ++ "' requires at least one value"))
    else validateCategories rest

def validate (l : ConfidentialityLabel) : Except LabelError Unit :=
  if isEmpty l.policy.identifier then .error (.validation "policy identifier is mandatory")
  else if !l.policy.allowsClassification l.classification then
    .error (.validation ("classification " ++ l.classification.asStanagStr ++
      " not allowed by policy " ++ l.policy.identifier))
  else validateCategories l.categories

theorem validateCategories_values {categories : List CategoryMarking}
    (valid : validateCategories categories = .ok ()) :
    ∀ c ∈ categories, c.values ≠ [] := by
  induction categories with
  | nil => simp
  | cons c rest ih =>
    unfold validateCategories at valid
    split at valid
    · cases valid
    · split at valid
      · cases valid
      · rename_i filled
        intro d member
        rcases List.mem_cons.mp member with rfl | later
        · exact fun empty => filled (by simp [empty])
        · exact ih valid d later

theorem validate_categories {l : ConfidentialityLabel} (valid : l.validate = .ok ()) :
    validateCategories l.categories = .ok () := by
  unfold validate at valid
  split at valid
  · cases valid
  · split at valid
    · cases valid
    · exact valid

def releasableCountries (l : ConfidentialityLabel) : List String :=
  (l.categories.filter fun c => eqIgnoreAsciiCase c.tagName "Releasable to").flatMap (·.values)

def handlingCaveats (l : ConfidentialityLabel) : List String :=
  (l.categories.filter fun c => eqIgnoreAsciiCase c.tagName "Handling").flatMap (·.values)

def restrictiveCategoryValues (l : ConfidentialityLabel) : List String :=
  (l.categories.filter fun c => c.categoryType == .restrictive).flatMap (·.values)

def fromMimSecurity [UnicodeCase] (security : SecurityClassification) :
    Except LabelError ConfidentialityLabel :=
  let policyId := security.policy.asOption.getD "NATO"
  let policy := LabelPolicy.nato.withIdentifier policyId
  let classificationStr := security.classification.asOption.getD "UNCLASSIFIED"
  match ClassificationLevel.parse classificationStr with
  | .error e => .error e
  | .ok classification =>
    let label := new policy classification
    match security.releasability.asOption with
    | none => .ok label
    | some releasability =>
      let countries := ((split (fun c => c == ',' || c == ';' || c == ' ') releasability).filter
        fun s => !isEmpty s).map toUppercase
      if countries.isEmpty then .ok label
      else .ok (label.withCategory (.releasableTo countries))

def toMimSecurity (l : ConfidentialityLabel) : SecurityClassification :=
  let releasability := join "," l.releasableCountries
  { policy := .value l.policy.identifier
    classification := .value l.classification.asStanagStr
    releasability := if isEmpty releasability then .absent else .value releasability }

end ConfidentialityLabel

structure DomainId where
  text : String
  deriving DecidableEq

structure SecurityDomain where
  id : DomainId
  name : String
  maxClassification : ClassificationLevel
  releasableTo : List String := []
  acceptedNationalities : List String := []
  missionCompartments : List String := []
  deriving DecidableEq

def SecurityDomain.acceptsMission (d : SecurityDomain) (missionId : String) : Bool :=
  d.missionCompartments.isEmpty || d.missionCompartments.any (eqIgnoreAsciiCase · missionId)

def SecurityDomain.acceptsCountry (d : SecurityDomain) (country : String) : Bool :=
  if !d.acceptedNationalities.isEmpty &&
      !d.acceptedNationalities.any (eqIgnoreAsciiCase · country) then false
  else d.releasableTo.isEmpty || d.releasableTo.any (eqIgnoreAsciiCase · country)

def SecurityDomain.withReleasableTo (d : SecurityDomain) (countries : List String) :
    SecurityDomain :=
  { d with releasableTo := countries }

/-- The nationality half of `acceptsCountry`. -/
def SecurityDomain.admitsNationality (d : SecurityDomain) (country : String) : Bool :=
  d.acceptedNationalities.isEmpty || d.acceptedNationalities.any (eqIgnoreAsciiCase · country)

theorem acceptsCountry_eq (d : SecurityDomain) (country : String) :
    d.acceptsCountry country = (d.admitsNationality country &&
      (d.releasableTo.isEmpty || d.releasableTo.any (eqIgnoreAsciiCase · country))) := by
  unfold SecurityDomain.acceptsCountry SecurityDomain.admitsNationality
  cases d.acceptedNationalities.isEmpty <;>
    cases d.acceptedNationalities.any (eqIgnoreAsciiCase · country) <;> simp

theorem acceptsCountry_congr (d : SecurityDomain) {a b : String}
    (same : eqIgnoreAsciiCase a b = true) : d.acceptsCountry a = d.acceptsCountry b := by
  have listed : ∀ countries : List String,
      countries.any (eqIgnoreAsciiCase · a) = countries.any (eqIgnoreAsciiCase · b) := by
    intro countries
    simp only [eqIgnoreAsciiCase_congr same]
  unfold SecurityDomain.acceptsCountry
  rw [listed, listed]

def SecurityDomain.validateId (id : String) : Except LabelError Unit :=
  if isEmpty id then .error (.invalidDomain "domain id must not be empty") else .ok ()

end MimLabeling
