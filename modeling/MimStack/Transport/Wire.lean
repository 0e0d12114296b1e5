import MimStack.Transport.Envelope
import Mathlib.Data.List.MinMax

/-!
What a client and the exchange agree on before any payload: the model version and
the format of an answer. Qualities are floating-point numbers in the source; here
they come from any type whose strict comparison is transitive and irreflexive.
-/
namespace MimTransport
open RustText MimRuntime

def mimVersion : String := "5.1.0"

def WirePayloadFormat.contentType : WirePayloadFormat → String
  | .json => "application/mim+json"
  | .xml => "application/mim+xml"
  | .jsonLd => "application/ld+json"

def validateMimVersion (header : Option String) : Except String Unit :=
  match header with
  | none => .ok ()
  | some version =>
    if version = mimVersion then .ok ()
    else .error ("unsupported MIM-Version '" ++ version ++ "', expected " ++ mimVersion)

structure Qualities (Q : Type) where
  read : String → Option Q
  whole : Q

section Negotiation

variable {Q : Type} (q : Qualities Q)

def qualityParameter (param : String) : Option Q :=
  match split (· == '=') (trim param) with
  | name :: value :: _ => if name = "q" then q.read value else none
  | _ => none

def mediaFormat (mime : String) (fallback : WirePayloadFormat) : Option WirePayloadFormat :=
  if mime ∈ ["application/mim+xml", "application/xml", "text/xml"] then some .xml
  else if mime = "application/ld+json" then some .jsonLd
  else if mime ∈ ["application/mim+json", "application/json"] then some .json
  else if mime = "*/*" then some fallback
  else none

def mediaRange (fallback : WirePayloadFormat) (part : String) : Option (WirePayloadFormat × Q) :=
  let segment := split (· == ';') (trim part)
  let mime := toAsciiLowercase (trim (segment.headD ""))
  let quality := (segment.tail.findSome? (qualityParameter q)).getD q.whole
  (mediaFormat mime fallback).map fun format => (format, quality)

def acceptable (fallback : WirePayloadFormat) (header : String) : List (WirePayloadFormat × Q) :=
  (split (· == ',') header).filterMap (mediaRange q fallback)

variable [Preorder Q] [DecidableLT Q]

/-- The loop over the ranges: one takes the lead when its quality is greater. -/
def betterRange (best : Option (WirePayloadFormat × Q)) (range : WirePayloadFormat × Q) :
    Option (WirePayloadFormat × Q) :=
  match best with
  | none => some range
  | some leader => if leader.2 < range.2 then some range else some leader

def negotiateFormat (accept : Option String) (fallback : WirePayloadFormat) : WirePayloadFormat :=
  match accept with
  | none => fallback
  | some header =>
    match (acceptable q fallback header).foldl betterRange none with
    | none => fallback
    | some best => best.1

theorem betterRange_argmax (ranges : List (WirePayloadFormat × Q)) :
    ranges.foldl betterRange none = ranges.argmax Prod.snd := by
  induction ranges using List.reverseRecOn with
  | nil => rfl
  | append_singleton before range ih =>
    rw [List.foldl_append, List.foldl_cons, List.foldl_nil, ih, List.argmax_concat]
    cases before.argmax Prod.snd with
    | none => rfl
    | some leader => rfl

theorem argmax_split {ranges : List (WirePayloadFormat × Q)} {best : WirePayloadFormat × Q}
    (leads : ranges.argmax Prod.snd = some best) :
    ∃ before after, ranges = before ++ best :: after ∧
      (∀ range ∈ ranges, ¬ best.2 < range.2) ∧ ∀ range ∈ before, range.2 ≠ best.2 := by
  have top : ∀ range ∈ ranges, ¬ best.2 < range.2 := fun range member =>
    List.not_lt_of_mem_argmax member leads
  induction ranges using List.reverseRecOn with
  | nil => cases leads
  | append_singleton earlier range ih =>
    rw [List.argmax_concat] at leads
    cases prior : earlier.argmax Prod.snd with
    | none =>
      rw [prior] at leads
      obtain rfl := Option.some.inj leads
      obtain rfl := List.argmax_eq_none.mp prior
      exact ⟨[], [], rfl, top, fun other none => absurd none List.not_mem_nil⟩
    | some leader =>
      rw [prior] at leads
      by_cases greater : leader.2 < range.2
      · simp only [greater, if_true, Option.some.injEq] at leads
        subst leads
        refine ⟨earlier, [], rfl, top, fun other member same => ?_⟩
        exact List.not_lt_of_mem_argmax member prior (same ▸ greater)
      · simp only [greater, if_false, Option.some.injEq] at leads
        subst leads
        obtain ⟨before, after, split, _, first⟩ :=
          ih prior fun other member => top other (List.mem_append_left _ member)
        exact ⟨before, after ++ [range], by rw [split, List.append_assoc, List.cons_append], top,
          first⟩

/-- The negotiated format is the one of the first range of the greatest quality, and the
default one when no range of the header stands for a format. -/
theorem negotiated (header : String) (fallback : WirePayloadFormat) :
    (acceptable q fallback header = [] ∧ negotiateFormat q (some header) fallback = fallback) ∨
      ∃ before best after, acceptable q fallback header = before ++ best :: after ∧
        negotiateFormat q (some header) fallback = best.1 ∧
        (∀ range ∈ acceptable q fallback header, ¬ best.2 < range.2) ∧
        ∀ range ∈ before, range.2 ≠ best.2 := by
  have leader := betterRange_argmax (acceptable q fallback header)
  cases leads : (acceptable q fallback header).argmax Prod.snd with
  | none =>
    refine .inl ⟨List.argmax_eq_none.mp leads, ?_⟩
    simp only [negotiateFormat, leader, leads]
  | some best =>
    obtain ⟨before, after, split, top, first⟩ := argmax_split leads
    refine .inr ⟨before, best, after, split, ?_, top, first⟩
    simp only [negotiateFormat, leader, leads]

end Negotiation

def filterFromQuery (filter className propertyName propertyValue : Option String)
    (limit offset : Option Nat) : Except TransportError GetByFilterRequest :=
  match filter.filter fun value => !isEmpty value with
  | some expression => (parseFilter expression).map fun _ =>
      { filter := some expression, limit, offset }
  | none =>
    match className.filter fun value => !isEmpty value with
    | none => .error (.invalidRequest "filter or className query parameter is required")
    | some className => .ok { className, propertyName, propertyValue, limit, offset }

end MimTransport
