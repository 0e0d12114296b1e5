import MimStack.Spif

/-!
How a label's values are spread over its categories. The categories themselves are
checked one by one, but a rule looks only at the first category with its tag.
-/
namespace MimSpif
open RustText MimLabeling

def Holds (categories : List CategoryMarking) (tagName value : String) : Prop :=
  ∃ category ∈ categories, eqIgnoreAsciiCase category.tagName tagName = true ∧
    value ∈ category.values

end MimSpif
