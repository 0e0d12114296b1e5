import MimStack.Lib.Interleaved
import MimStack.Spif.Blocks

/-!
Whether the order of the blocks of a policy file matters. Every classification and every
rule is read as it stands; what is lost is the category that comes after a rule. A block
may speak for the policy: the first identifier is taken and the last URL, wherever they
stand.
-/
namespace MimSpif
open RustText PullMarkup Interleaved

section Headers

structure Header where
  policyId : String := ""
  policyOid : Option String := none
  versionInfo : Option SpifVersionInfo := none
  spifVersion : Option String := none
  issuingAuthority : Option String := none
  inVersioninfo : Bool := false
  text : String := ""

def SpifParser.header (p : SpifParser) : Header :=
  ⟨p.policyId, p.policyOid, p.versionInfo, p.spifVersion, p.issuingAuthority, p.inVersioninfo,
    p.currentText⟩

namespace Header

def takeUrl (h : Header) (attributes : List (String × String)) : Header :=
  match (attributeValue "URL" attributes).or (attributeValue "url" attributes) with
  | some id => { h with policyOid := some id }
  | none => h

def startTag (h : Header) (name : String) (attributes : List (String × String)) : Header :=
  let begun := if localName name = "versioninfo" then
      { h with text := "", inVersioninfo := true, spifVersion := none, issuingAuthority := none }
    else { h with text := "" }
  if localName name = "identifier" ∨ localName name = "name" then begun.takeUrl attributes
  else begun

def close (h : Header) (name : String) : Header :=
  if name = "identifier" ∧ isEmpty h.policyId then { h with policyId := h.text }
  else if name = "spifversion" ∧ h.inVersioninfo then { h with spifVersion := some h.text }
  else if name = "issuingauthority" ∧ h.inVersioninfo then
    { h with issuingAuthority := some h.text }
  else if name = "versioninfo" ∧ h.inVersioninfo then
    { h with versionInfo := some ⟨h.spifVersion, h.issuingAuthority⟩, inVersioninfo := false }
  else h

def step (h : Header) : Pulled → Header
  | .start name attributes => h.startTag name attributes
  | .empty _ attributes => h.takeUrl attributes
  | .text raw => { h with text := trim raw }
  | .finish name => { h.close (localName name) with text := "" }
  | .other => h

end Header

theorem takeUrl_header (p : SpifParser) (attributes : List (String × String)) :
    (p.takeUrl attributes).header = p.header.takeUrl attributes := by
  unfold SpifParser.takeUrl Header.takeUrl
  cases (attributeValue "URL" attributes).or (attributeValue "url" attributes) with
  | none => rfl
  | some id => rfl

theorem begin_header (p : SpifParser) (name : String) (attributes : List (String × String)) :
    (p.begin name attributes).header = if name = "versioninfo" then
      { p.header with inVersioninfo := true, spifVersion := none, issuingAuthority := none }
    else p.header := by
  unfold SpifParser.begin
  split
  · rfl
  · rfl
  · rfl
  · rfl
  · rfl
  · rfl
  · rename_i other
    rw [if_neg other]

theorem startTag_header (p : SpifParser) (name : String) (attributes : List (String × String)) :
    (p.startTag name attributes).header = p.header.startTag name attributes := by
  have begun := begin_header { p with currentText := "" } (localName name) attributes
  unfold SpifParser.startTag Header.startTag
  dsimp only
  split_ifs with url versioned versioned
  · rw [takeUrl_header, begun, if_pos versioned]
    rfl
  · rw [takeUrl_header, begun, if_neg versioned]
    rfl
  · rw [begun, if_pos versioned]
    rfl
  · rw [begun, if_neg versioned]
    rfl

theorem close_header (p : SpifParser) (name : String) :
    (p.close name).header = p.header.close name := by
  have other : name ∉ ["identifier", "spifversion", "issuingauthority", "versioninfo"] →
      p.header = p.header.close name := by
    intro apart
    simp only [List.mem_cons, List.not_mem_nil, or_false, not_or] at apart
    obtain ⟨noIdentifier, noVersion, noAuthority, noInfo⟩ := apart
    rw [Header.close, if_neg (fun both => noIdentifier both.1),
      if_neg (fun both => noVersion both.1), if_neg (fun both => noAuthority both.1),
      if_neg (fun both => noInfo both.1)]
  have closes := close_closes p name
  generalize p.close name = q at closes ⊢
  cases closes with
  | identifier named unset => exact (if_pos ⟨named, unset⟩).symm
  | spifVersion named inside =>
    subst named
    exact (if_pos ⟨rfl, inside⟩).symm
  | issuingAuthority named inside =>
    subst named
    exact (if_pos ⟨rfl, inside⟩).symm
  | version named inside =>
    subst named
    exact (if_pos ⟨rfl, inside⟩).symm
  | className named | categoryName named | ruleClassification named | ruleCategory named
  | validation named => exact other (by rw [named]; decide)
  | categoryType named | ruleValue named | classification named | category named =>
    exact other (by rcases named with same | same <;> rw [same] <;> decide)
  | categoryValue named =>
    exact other (by rcases named with same | same | same <;> rw [same] <;> decide)
  | nothing noIdentifier noVersion =>
    have outside : ∀ tag ∈ ["spifversion", "issuingauthority", "versioninfo"],
        ¬ (name = tag ∧ p.header.inVersioninfo = true) := by
      intro tag listed both
      have closed := noVersion (both.1 ▸ listed)
      exact Bool.noConfusion (both.2.symm.trans closed)
    have unset : ¬ (name = "identifier" ∧ isEmpty p.header.policyId = true) := noIdentifier
    rw [Header.close, if_neg unset, if_neg (outside _ (by decide)),
      if_neg (outside _ (by decide)), if_neg (outside _ (by decide))]

theorem step_header (p : SpifParser) (e : Pulled) : (p.step e).header = p.header.step e := by
  cases e with
  | start name attributes => exact startTag_header p name attributes
  | empty name attributes => exact takeUrl_header p attributes
  | text raw =>
    rw [SpifParser.step, Header.step]
    generalize trim raw = text
    rfl
  | finish name =>
    rw [SpifParser.step, Header.step, SpifParser.endTag, ← close_header]
    rfl
  | other => rfl

theorem closings_append (text : String) (first second : List Pulled) :
    closings text (first ++ second) =
      closings text first ++ closings (first.foldl textAfter text) second := by
  induction first generalizing text with
  | nil => rfl
  | cons e rest ih =>
    rw [List.cons_append, List.foldl_cons]
    cases e with
    | start name attributes => rw [closings, closings, textAfter, ih]
    | empty name attributes => exact ih text
    | text raw => rw [closings, closings, textAfter, ih]
    | finish name => rw [closings, closings, textAfter, ih, List.cons_append]
    | other => exact ih text

theorem takeUrl_url (h : Header) (attributes : List (String × String)) :
    h.takeUrl attributes = { h with policyOid :=
      ((attributeValue "URL" attributes).or (attributeValue "url" attributes)).or h.policyOid } := by
  unfold Header.takeUrl
  cases (attributeValue "URL" attributes).or (attributeValue "url" attributes) with
  | none => rfl
  | some url => rfl

theorem close_said (h : Header) (name : String) :
    (h.close name).policyId =
        (if name = "identifier" ∧ isEmpty h.policyId then h.text else h.policyId) ∧
      (h.close name).policyOid = h.policyOid := by
  unfold Header.close
  split_ifs
  · exact ⟨rfl, rfl⟩
  · exact ⟨rfl, rfl⟩
  · exact ⟨rfl, rfl⟩
  · exact ⟨rfl, rfl⟩
  · exact ⟨rfl, rfl⟩

theorem header_step (h : Header) (e : Pulled) :
    (h.step e).policyId = fieldStep (fun id field =>
        if field.1 = "identifier" ∧ isEmpty id then field.2 else id) h.policyId h.text e ∧
      (h.step e).policyOid = (urlOf e).or h.policyOid := by
  cases e with
  | start name attributes =>
    rw [Header.step, Header.startTag, urlOf]
    split_ifs
    · rw [takeUrl_url]
      exact ⟨rfl, rfl⟩
    · rw [takeUrl_url]
      exact ⟨rfl, rfl⟩
    · exact ⟨rfl, rfl⟩
    · exact ⟨rfl, rfl⟩
  | empty name attributes =>
    rw [Header.step, takeUrl_url]
    exact ⟨rfl, rfl⟩
  | text raw =>
    rw [Header.step]
    generalize trim raw = text
    exact ⟨rfl, rfl⟩
  | finish name => exact close_said h (localName name)
  | other => exact ⟨rfl, rfl⟩

theorem run_policyOid (content : List Pulled) (p : SpifParser) :
    (p.run content).policyOid = (urls content).getLast?.or p.policyOid := by
  induction content generalizing p with
  | nil => rfl
  | cons e rest ih =>
    have step : (p.step e).policyOid = (urlOf e).or p.policyOid :=
      (congrArg Header.policyOid (step_header p e)).trans (header_step p.header e).2
    rw [run_cons, ih, step]
    exact (getLast_filterMap_cons urlOf e rest p.policyOid).symm

theorem run_policyId (content : List Pulled) (p : SpifParser) :
    (p.run content).policyId = if isEmpty p.policyId then
      ((closings p.currentText content).filterMap identifierOf).head?.getD "" else p.policyId := by
  have step : ∀ q e, True → True → True ∧ (SpifParser.step q e).policyId =
      fieldStep (fun id field => if field.1 = "identifier" ∧ isEmpty id then field.2 else id)
        q.policyId q.currentText e := by
    intro q e _ _
    exact ⟨trivial, (congrArg Header.policyId (step_header q e)).trans (header_step q.header e).1⟩
  have total := (run_closings (·.policyId) (fun _ => True) (fun _ => True) step content
    (fun _ _ => trivial) (p := p) trivial).2
  rw [total]
  generalize closings p.currentText content = said
  generalize p.policyId = id
  induction said generalizing id with
  | nil =>
    cases blank : isEmpty id with
    | true =>
      rw [isEmpty, List.isEmpty_iff, String.toList_eq_nil_iff] at blank
      rw [blank]
      rfl
    | false => rfl
  | cons field rest ih =>
    rw [List.foldl_cons, ih, List.filterMap_cons]
    unfold identifierOf
    by_cases named : field.1 = "identifier"
    · cases blank : isEmpty id with
      | true =>
        cases empty : isEmpty field.2 with
        | true => simp [named, empty]
        | false => simp [named, empty]
      | false => simp [named, blank]
    · simp [named]

theorem header_given (h : Header) (e : Pulled) :
    (h.step e).inVersioninfo = versionAfter h.inVersioninfo e := by
  cases e with
  | start name attributes =>
    rw [Header.step, Header.startTag, versionAfter]
    split_ifs with url given given
    · rw [takeUrl_url, given]
      rfl
    · rw [takeUrl_url, beq_eq_false_iff_ne.mpr given]
      rfl
    · rw [given]
      rfl
    · rw [beq_eq_false_iff_ne.mpr given]
      rfl
  | empty name attributes =>
    rw [Header.step, takeUrl_url]
    rfl
  | text raw =>
    rw [Header.step]
    generalize trim raw = said
    rfl
  | finish name =>
    rw [Header.step, versionAfter]
    unfold Header.close
    split_ifs with identifier version authority given
    · rw [identifier.1]
      rfl
    · rw [version.1]
      rfl
    · rw [authority.1]
      rfl
    · rw [given.1]
      rfl
    · by_cases named : localName name = "versioninfo"
      · rw [named] at given ⊢
        have outside : h.inVersioninfo = false := by
          cases reading : h.inVersioninfo with
          | true => exact absurd ⟨rfl, reading⟩ given
          | false => rfl
        exact outside
      · rw [bne_iff_ne.mpr named]
        rfl
  | other => rfl

theorem header_unread {h : Header} (outside : h.inVersioninfo = false) {e : Pulled}
    (unopened : versionAfter false e = false) :
    (h.step e).inVersioninfo = false ∧ (h.step e).versionInfo = h.versionInfo := by
  refine ⟨by rw [header_given, outside, unopened], ?_⟩
  cases e with
  | start name attributes =>
    rw [versionAfter, Bool.or_false, beq_eq_false_iff_ne] at unopened
    rw [Header.step, Header.startTag, if_neg unopened]
    split_ifs
    · rw [takeUrl_url]
    · rfl
  | empty name attributes =>
    rw [Header.step, takeUrl_url]
  | text raw => rw [Header.step]
  | finish name =>
    rw [Header.step]
    unfold Header.close
    simp only [outside, Bool.false_eq_true, and_false, if_false]
    split_ifs
    · rfl
    · rfl
  | other => rfl

structure ReadAfter (v : Option SpifVersionInfo) (h r : Header) : Prop where
  given : h.inVersioninfo = r.inVersioninfo
  text : h.text = r.text
  parts : r.inVersioninfo = true →
    h.spifVersion = r.spifVersion ∧ h.issuingAuthority = r.issuingAuthority
  info : h.versionInfo = r.versionInfo.or v

theorem close_readAfter {v : Option SpifVersionInfo} {h r : Header} (same : ReadAfter v h r)
    (name : String) : ReadAfter v { h.close name with text := "" } { r.close name with text := "" } := by
  obtain ⟨given, text, parts, info⟩ := same
  by_cases identifier : name = "identifier"
  · subst identifier
    have kept : ∀ k : Header, (k.close "identifier").inVersioninfo = k.inVersioninfo ∧
        (k.close "identifier").spifVersion = k.spifVersion ∧
        (k.close "identifier").issuingAuthority = k.issuingAuthority ∧
        (k.close "identifier").versionInfo = k.versionInfo := by
      intro k
      unfold Header.close
      split_ifs with one two three four
      · exact ⟨rfl, rfl, rfl, rfl⟩
      · exact absurd two.1 (by decide)
      · exact absurd three.1 (by decide)
      · exact absurd four.1 (by decide)
      · exact ⟨rfl, rfl, rfl, rfl⟩
    obtain ⟨given', version', authority', info'⟩ := kept h
    obtain ⟨given'', version'', authority'', info''⟩ := kept r
    refine ⟨by rw [given', given'', given], rfl, ?_, by rw [info', info'', info]⟩
    intro inside
    rw [given''] at inside
    rw [version', version'', authority', authority'']
    exact parts inside
  · have first : ∀ k : Header, ¬ (name = "identifier" ∧ isEmpty k.policyId = true) :=
      fun _ both => identifier both.1
    unfold Header.close
    rw [if_neg (first h), if_neg (first r), given]
    split_ifs with version authority close
    · exact ⟨rfl, rfl, fun inside => ⟨congrArg some text, (parts inside).2⟩, info⟩
    · exact ⟨rfl, rfl, fun inside => ⟨(parts inside).1, congrArg some text⟩, info⟩
    · obtain ⟨sameVersion, sameAuthority⟩ := parts close.2
      refine ⟨rfl, rfl, fun inside => Bool.noConfusion inside, ?_⟩
      rw [sameVersion, sameAuthority]
      rfl
    · exact ⟨given, rfl, parts, info⟩

theorem step_readAfter {v : Option SpifVersionInfo} {h r : Header} (same : ReadAfter v h r)
    (e : Pulled) : ReadAfter v (h.step e) (r.step e) := by
  obtain ⟨given, text, parts, info⟩ := same
  cases e with
  | start name attributes =>
    rw [Header.step, Header.step, Header.startTag, Header.startTag]
    split_ifs
    · rw [takeUrl_url, takeUrl_url]
      exact ⟨rfl, rfl, fun _ => ⟨rfl, rfl⟩, info⟩
    · rw [takeUrl_url, takeUrl_url]
      exact ⟨given, rfl, parts, info⟩
    · exact ⟨rfl, rfl, fun _ => ⟨rfl, rfl⟩, info⟩
    · exact ⟨given, rfl, parts, info⟩
  | empty name attributes =>
    rw [Header.step, Header.step, takeUrl_url, takeUrl_url]
    exact ⟨given, text, parts, info⟩
  | text raw =>
    rw [Header.step, Header.step]
    generalize trim raw = said
    exact ⟨given, rfl, parts, info⟩
  | finish name => exact close_readAfter ⟨given, text, parts, info⟩ (localName name)
  | other => exact ⟨given, text, parts, info⟩

end Headers

section OwnSaid

theorem blockKind_apart {name : String} {kind : BlockKind} (named : blockKind name = some kind) :
    localName name ∉ ["identifier", "name", "versioninfo"] := by
  cases kind with
  | classification =>
    rcases blockKind_classification named with same | same
    · rw [same]
      decide
    · rw [same]
      decide
  | category =>
    rcases blockKind_category named with same | same
    · rw [same]
      decide
    · rw [same]
      decide
  | validation =>
    rw [blockKind_validation named]
    decide

theorem closings_block (text : String) (b : Block) (rest : List Pulled) :
    (closings text (b.events ++ rest)).filterMap identifierOf =
      identifiers b.content ++ (closings "" rest).filterMap identifierOf := by
  have apart := blockKind_apart b.named
  have other : identifierOf (localName b.name, b.content.foldl textAfter "") = none := by
    refine if_neg fun both => apart ?_
    have same : localName b.name = "identifier" := both.1
    rw [same]
    exact List.mem_cons_self
  rw [Block.events, List.cons_append, closings, List.append_assoc, closings_append,
    List.filterMap_append, List.singleton_append, closings, List.filterMap_cons, other]
  rfl

def identifierParts (document : Document) : List (List String × List String) :=
  document.parts.map fun part => (identifiers part.1.content, identifiers part.2.content)

theorem identifiers_document (document : Document) : identifiers (events document) =
    allSaid (identifiers document.lead.content) (identifierParts document) := by
  have parts : ∀ (parts : List (Block × Filler)) (text : String),
      (closings text (parts.flatMap fun part => part.1.events ++ part.2.content)).filterMap
          identifierOf =
        (parts.map fun part => (identifiers part.1.content, identifiers part.2.content)).flatMap
          fun part => part.1 ++ part.2 := by
    intro parts
    induction parts with
    | nil => exact fun text => rfl
    | cons part rest ih =>
      intro text
      rw [List.flatMap_cons, List.append_assoc, closings_block, closings_append,
        List.filterMap_append, ih, List.map_cons, List.flatMap_cons, List.append_assoc]
      rfl
  rw [events, identifiers, fields, closings_append, List.filterMap_append, parts]
  rfl

theorem urls_block (b : Block) : urls b.events = urls b.content := by
  have apart := blockKind_apart b.named
  simp only [List.mem_cons, List.not_mem_nil, or_false, not_or] at apart
  have opening : urlOf (.start b.name b.attributes) = none :=
    if_neg (not_or.mpr ⟨apart.1, apart.2.1⟩)
  rw [Block.events, urls, List.filterMap_cons, opening, List.filterMap_append]
  exact List.append_nil _

def urlParts (document : Document) : List (List String × List String) :=
  document.parts.map fun part => (urls part.1.content, urls part.2.content)

theorem urls_document (document : Document) : urls (events document) =
    allSaid (urls document.lead.content) (urlParts document) := by
  have parts : ∀ parts : List (Block × Filler),
      urls (parts.flatMap fun part => part.1.events ++ part.2.content) =
        (parts.map fun part => (urls part.1.content, urls part.2.content)).flatMap
          fun part => part.1 ++ part.2 := by
    intro parts
    induction parts with
    | nil => rfl
    | cons part rest ih =>
      have first := urls_block part.1
      unfold urls at ih first ⊢
      rw [List.flatMap_cons, List.filterMap_append, List.filterMap_append, ih, first, List.map_cons,
        List.flatMap_cons]
  have rest := parts document.parts
  unfold urls at rest ⊢
  rw [events, List.filterMap_append, rest]
  rfl

structure Unversioned (p : SpifParser) : Prop where
  outside : p.inVersioninfo = false
  text : p.currentText = ""

theorem run_unread (content : List Pulled) (silent : ∀ e ∈ content, versionAfter false e = false)
    {p : SpifParser} (outside : p.inVersioninfo = false) :
    (p.run content).inVersioninfo = false ∧ (p.run content).versionInfo = p.versionInfo := by
  induction content generalizing p with
  | nil => exact ⟨outside, rfl⟩
  | cons e rest ih =>
    have header := step_header p e
    obtain ⟨still, same⟩ := header_unread (h := p.header) outside (silent e List.mem_cons_self)
    have outside' : (p.step e).inVersioninfo = false :=
      (congrArg Header.inVersioninfo header).trans still
    have same' : (p.step e).versionInfo = p.versionInfo :=
      (congrArg Header.versionInfo header).trans same
    obtain ⟨last, total⟩ := ih (fun f mem => silent f (List.mem_cons_of_mem e mem)) outside'
    exact ⟨last, total.trans same'⟩

theorem block_unversioned (b : Block) {p : SpifParser} (outside : p.inVersioninfo = false) :
    Unversioned (p.run b.events) ∧ (p.run b.events).versionInfo = p.versionInfo := by
  have apart := blockKind_apart b.named
  simp only [List.mem_cons, List.not_mem_nil, or_false, not_or] at apart
  have opened : ∀ name attributes, localName name ≠ "versioninfo" →
      versionAfter false (.start name attributes) = false := by
    intro name attributes other
    rw [versionAfter, Bool.or_false]
    exact beq_eq_false_iff_ne.mpr other
  have silent : ∀ e ∈ b.events, versionAfter false e = false := by
    intro e mem
    rcases List.mem_cons.mp mem with rfl | mem
    · exact opened _ _ apart.2.2
    · rcases List.mem_append.mp mem with inside | last
      · cases e with
        | start name attributes =>
          apply opened
          rcases b.flat _ inside name rfl with plain | rule
          · exact plain.2
          · rw [rule.2]
            decide
        | empty name attributes => rfl
        | text raw => rfl
        | finish name => exact Bool.and_false _
        | other => rfl
      · rw [List.mem_singleton.mp last]
        exact Bool.and_false _
  obtain ⟨still, same⟩ := run_unread b.events silent outside
  refine ⟨⟨still, ?_⟩, same⟩
  rw [run_block]
  rfl

theorem run_readAfter (content : List Pulled) {v : Option SpifVersionInfo} {p q : SpifParser}
    (same : ReadAfter v p.header q.header) :
    ReadAfter v (p.run content).header (q.run content).header := by
  induction content generalizing p q with
  | nil => exact same
  | cons e rest ih =>
    have next := step_readAfter same e
    rw [← step_header, ← step_header] at next
    exact ih next

theorem run_given (content : List Pulled) (p : SpifParser) :
    (p.run content).inVersioninfo = content.foldl versionAfter p.inVersioninfo := by
  induction content generalizing p with
  | nil => rfl
  | cons e rest ih =>
    have given : (p.step e).inVersioninfo = versionAfter p.inVersioninfo e :=
      (congrArg Header.inVersioninfo (step_header p e)).trans (header_given p.header e)
    rw [run_cons, ih, given, List.foldl_cons]

theorem filler_version (f : Filler) {p : SpifParser} (between : Unversioned p) :
    (p.run f.content).inVersioninfo = false ∧
      (p.run f.content).versionInfo = f.version.or p.versionInfo := by
  refine ⟨by rw [run_given, between.outside, f.closed], ?_⟩
  have same : ReadAfter p.versionInfo p.header (SpifParser.header {}) :=
    ⟨between.outside, between.text, fun inside => Bool.noConfusion inside, rfl⟩
  exact (run_readAfter f.content same).info

def versions (document : Document) : List SpifVersionInfo :=
  (fillers document).filterMap Filler.version

theorem run_versions (parts : List (Block × Filler)) {p : SpifParser}
    (outside : p.inVersioninfo = false) :
    (p.run (parts.flatMap fun part => part.1.events ++ part.2.content)).versionInfo =
      ((parts.map Prod.snd).filterMap Filler.version).getLast?.or p.versionInfo := by
  induction parts generalizing p with
  | nil => rfl
  | cons part rest ih =>
    obtain ⟨between, same⟩ := block_unversioned part.1 outside
    obtain ⟨still, read⟩ := filler_version part.2 between
    rw [List.flatMap_cons, run_append, run_append, ih still, read, same, List.map_cons,
      getLast_filterMap_cons]

theorem versions_document (document : Document) :
    (SpifParser.run {} (events document)).versionInfo = (versions document).getLast? := by
  obtain ⟨outside, read⟩ := filler_version document.lead (p := {}) ⟨rfl, rfl⟩
  have last := getLast_filterMap_cons Filler.version document.lead (document.parts.map Prod.snd) none
  rw [events, run_append, run_versions document.parts outside, read, ← last, Option.or_none]
  rfl

end OwnSaid

section Orders

def ownIdentifiers (document : Document) : List String :=
  (fillers document).flatMap fun f => identifiers f.content

def ownUrls (document : Document) : List String :=
  (fillers document).flatMap fun f => urls f.content

/-- Each block has given its own entry and nothing else; the rest is what is said between the
blocks. -/
structure OwnEntries (document : Document) (policy : ParsedSpif) : Prop where
  policyId : policy.policyId = (ownIdentifiers document).head?.getD ""
  policyOid : policy.policyOid = (ownUrls document).getLast?
  versionInfo : policy.versionInfo = (versions document).getLast?
  classifications :
    policy.allowedClassifications = (blocks document).filterMap Block.classificationEntry
  categories : policy.categories = (blocks document).filterMap Block.categoryEntry
  validations : policy.validations = (blocks document).filterMap Block.validationEntry

structure SameUpToOrder (p q : ParsedSpif) : Prop where
  policyId : q.policyId = p.policyId
  policyOid : q.policyOid = p.policyOid
  versionInfo : q.versionInfo = p.versionInfo
  classifications : q.allowedClassifications.Perm p.allowedClassifications
  categories : q.categories.Perm p.categories
  validations : q.validations.Perm p.validations

/-- In every order of the blocks the same policy is read, of the blocks' own entries. -/
def OrderIndependent (document : Document) (policy : ParsedSpif) : Prop :=
  ∀ other, Reordered document other → ∃ reread, parseSpifXml (events other, none) = .ok reread ∧
    SameUpToOrder policy reread ∧ OwnEntries other reread

/-- The policy is identified before the first block, or by no block otherwise. -/
def OwnIdentifier (document : Document) : Prop :=
  identifiers document.lead.content ≠ [] ∨ ∀ b ∈ blocks document, ∀ id,
    (identifiers b.content).head? = some id → (ownIdentifiers document).head? = some id

def lastFiller (document : Document) : Filler :=
  (document.parts.getLast?.map Prod.snd).getD document.lead

/-- A URL stands after the last block, or no block has another one than the last between them. -/
def OwnUrl (document : Document) : Prop :=
  urls (lastFiller document).content ≠ [] ∨ ∀ b ∈ blocks document, ∀ url,
    (urls b.content).getLast? = some url → (ownUrls document).getLast? = some url

theorem ownIdentifiers_said (document : Document) : ownIdentifiers document =
    ownSaid (identifiers document.lead.content) (identifierParts document) := by
  rw [ownIdentifiers, fillers, List.flatMap_cons, ownSaid, identifierParts, List.flatMap_map,
    List.flatMap_map]

theorem ownUrls_said (document : Document) : ownUrls document =
    ownSaid (urls document.lead.content) (urlParts document) := by
  rw [ownUrls, fillers, List.flatMap_cons, ownSaid, urlParts, List.flatMap_map, List.flatMap_map]

theorem lastFiller_trail (document : Document) : urls (lastFiller document).content =
    trail (urls document.lead.content) (urlParts document) := by
  rw [lastFiller, trail, urlParts, List.getLast?_map]
  cases document.parts.getLast? with
  | none => rfl
  | some part => rfl

theorem identifier_own {document : Document} (own : OwnIdentifier document) :
    (identifiers (events document)).head? = (ownIdentifiers document).head? := by
  rw [identifiers_document, ownIdentifiers_said]
  apply head_allSaid
  rcases own with spoken | agreed
  · exact Or.inl spoken
  · right
    intro said mem id first
    obtain ⟨part, there, rfl⟩ := List.mem_map.mp mem
    rw [← ownIdentifiers_said]
    exact agreed part.1 (List.mem_map_of_mem there) id first

theorem url_own {document : Document} (own : OwnUrl document) :
    (urls (events document)).getLast? = (ownUrls document).getLast? := by
  rw [urls_document, ownUrls_said]
  apply getLast_allSaid
  rcases own with spoken | agreed
  · left
    rw [← lastFiller_trail]
    exact spoken
  · right
    intro said mem url last
    obtain ⟨part, there, rfl⟩ := List.mem_map.mp mem
    rw [← ownUrls_said]
    exact agreed part.1 (List.mem_map_of_mem there) url last

theorem policy_read (document : Document) :
    let policy := (SpifParser.run {} (events document)).policy
    policy.policyId = (identifiers (events document)).head?.getD "" ∧
      policy.policyOid = (urls (events document)).getLast? ∧
      policy.versionInfo = (versions document).getLast? ∧
      policy.allowedClassifications = (blocks document).filterMap Block.classificationEntry ∧
      policy.categories = keptCategories false (blocks document) ∧
      policy.validations = (blocks document).filterMap Block.validationEntry := by
  have read := run_document document (p := {}) ⟨rfl, rfl⟩
  have oid := run_policyOid (events document) {}
  rw [Option.or_none] at oid
  exact ⟨run_policyId (events document) {}, oid, versions_document document, read.classifications,
    read.categories, read.validations⟩

theorem parseSpifXml_ok_iff (document : Document) (policy : ParsedSpif) :
    parseSpifXml (events document, none) = .ok policy ↔
      policy = (SpifParser.run {} (events document)).policy ∧ isEmpty policy.policyId = false := by
  unfold parseSpifXml
  dsimp only
  cases blank : isEmpty (SpifParser.run {} (events document)).policyId with
  | true =>
    rw [if_pos rfl]
    constructor
    · intro made
      cases made
    · intro both
      obtain ⟨rfl, identified⟩ := both
      exact Bool.noConfusion (blank.symm.trans identified)
  | false =>
    rw [if_neg Bool.false_ne_true, Except.ok.injEq]
    constructor
    · intro made
      subst made
      exact ⟨rfl, blank⟩
    · intro both
      exact both.1.symm

def refill (document : Document) (items : List Block) : Document :=
  ⟨document.lead, items.zip (document.parts.map Prod.snd)⟩

theorem refill_reordered {document : Document} {items : List Block}
    (order : items.Perm (blocks document)) :
    Reordered document (refill document items) ∧ blocks (refill document items) = items := by
  have length : items.length = (document.parts.map Prod.snd).length := by
    rw [order.length_eq, blocks, List.length_map, List.length_map]
  have filled : blocks (refill document items) = items :=
    List.map_fst_zip (Nat.le_of_eq length)
  have left : fillers (refill document items) = fillers document :=
    congrArg (document.lead :: ·) (List.map_snd_zip (Nat.le_of_eq length.symm))
  refine ⟨⟨left, ?_⟩, filled⟩
  rw [filled]
  exact order

theorem own_reordered {document other : Document} (order : Reordered document other) :
    ownIdentifiers other = ownIdentifiers document ∧ ownUrls other = ownUrls document ∧
      versions other = versions document ∧ other.lead = document.lead ∧
      lastFiller other = lastFiller document := by
  obtain ⟨lead, places⟩ := List.cons.inj order.1
  refine ⟨?_, ?_, ?_, lead, ?_⟩
  · rw [ownIdentifiers, order.1, ownIdentifiers]
  · rw [ownUrls, order.1, ownUrls]
  · rw [versions, order.1, versions]
  · rw [lastFiller, lastFiller, lead, ← List.getLast?_map, ← List.getLast?_map, places]

theorem ownIdentifier_reordered {document other : Document} (order : Reordered document other)
    (own : OwnIdentifier document) : OwnIdentifier other := by
  obtain ⟨same, _, _, lead, _⟩ := own_reordered order
  rw [OwnIdentifier, same, lead]
  rcases own with spoken | agreed
  · exact Or.inl spoken
  · exact Or.inr fun b mem => agreed b (order.2.mem_iff.mp mem)

theorem ownUrl_reordered {document other : Document} (order : Reordered document other)
    (own : OwnUrl document) : OwnUrl other := by
  obtain ⟨_, same, _, _, last⟩ := own_reordered order
  rw [OwnUrl, same, last]
  rcases own with spoken | agreed
  · exact Or.inl spoken
  · exact Or.inr fun b mem => agreed b (order.2.mem_iff.mp mem)

theorem perm_first {α : Type} {items : List α} {a : α} (mem : a ∈ items) :
    ∃ rest, (a :: rest).Perm items := by
  obtain ⟨before, after, rfl⟩ := List.append_of_mem mem
  exact ⟨before ++ after, List.perm_middle.symm⟩

theorem perm_two_first {α : Type} {items : List α} {a b : α} (first : a ∈ items)
    (second : b ∈ items) (different : b ≠ a) : ∃ rest, (a :: b :: rest).Perm items := by
  obtain ⟨others, order⟩ := perm_first first
  have elsewhere : b ∈ others := by
    rcases List.mem_cons.mp (order.mem_iff.mpr second) with same | there
    · exact absurd same different
    · exact there
  obtain ⟨rest, order'⟩ := perm_first elsewhere
  exact ⟨rest, (order'.cons a).trans order⟩

theorem ownIdentifier_of_independent {document : Document} {policy : ParsedSpif}
    (independent : OrderIndependent document policy) : OwnIdentifier document := by
  by_cases spoken : identifiers document.lead.content = []
  · right
    intro b mem id first
    obtain ⟨rest, order⟩ := perm_first mem
    obtain ⟨reordered, filled⟩ := refill_reordered order
    obtain ⟨reread, again, _, own⟩ := independent _ reordered
    obtain ⟨rfl, identified⟩ := (parseSpifXml_ok_iff _ _).mp again
    obtain ⟨same, _, _, lead, _⟩ := own_reordered reordered
    have read : (identifiers (events (refill document (b :: rest)))).head? = some id := by
      rw [identifiers_document, lead, spoken]
      cases places : (refill document (b :: rest)).parts with
      | nil =>
        rw [blocks, places] at filled
        cases filled
      | cons part parts =>
        rw [blocks, places] at filled
        obtain ⟨rfl, _⟩ := List.cons.inj filled
        rw [identifierParts, places]
        exact head_of_between first
    have given := (policy_read (refill document (b :: rest))).1.symm.trans own.policyId
    rw [own.policyId] at identified
    rw [read, same, Option.getD_some] at given
    rw [same] at identified
    cases ours : (ownIdentifiers document).head? with
    | none =>
      rw [ours] at identified
      cases identified
    | some ownId =>
      rw [ours] at given
      rw [given]
      rfl
  · exact Or.inl spoken

theorem ownUrl_of_independent {document : Document} {policy : ParsedSpif}
    (independent : OrderIndependent document policy) : OwnUrl document := by
  by_cases spoken : urls (lastFiller document).content = []
  · right
    intro b mem url last
    obtain ⟨rest, order⟩ := perm_first mem
    have atEnd : (rest ++ [b]).Perm (blocks document) :=
      (List.perm_append_singleton b rest).trans order
    obtain ⟨reordered, filled⟩ := refill_reordered atEnd
    obtain ⟨reread, again, _, own⟩ := independent _ reordered
    obtain ⟨rfl, _⟩ := (parseSpifXml_ok_iff _ _).mp again
    obtain ⟨_, same, _, _, place⟩ := own_reordered reordered
    have read : (urls (events (refill document (rest ++ [b])))).getLast? = some url := by
      rw [urls_document]
      rcases List.eq_nil_or_concat (refill document (rest ++ [b])).parts with none | split
      · rw [blocks, none] at filled
        exact absurd filled.symm (List.append_ne_nil_of_right_ne_nil _ (List.cons_ne_nil b []))
      · obtain ⟨before, part, split⟩ := split
        rw [List.concat_eq_append] at split
        rw [blocks, split, List.map_append, List.map_singleton] at filled
        obtain ⟨same, _⟩ := List.cons.inj (List.append_inj' filled rfl).2
        have ending : lastFiller (refill document (rest ++ [b])) = part.2 := by
          rw [lastFiller, split, List.getLast?_concat]
          rfl
        rw [place] at ending
        have between : (urls part.1.content).getLast? = some url := by
          rw [same]
          exact last
        rw [urlParts, split, List.map_append, List.map_singleton, ← ending, spoken]
        exact getLast_of_between between
    have given := (policy_read (refill document (rest ++ [b]))).2.1.symm.trans own.policyOid
    rw [read, same] at given
    exact given.symm
  · exact Or.inl spoken

theorem category_lost {rule category : Block} (rest : List Block)
    (names : rule.namesClassification = true) {entry : SpifCategory}
    (named : category.categoryEntry = some entry) :
    keptCategories false (rule :: category :: rest) ≠
      (rule :: category :: rest).filterMap Block.categoryEntry := by
  have kind : rule.kind = .validation := by
    rw [Block.namesClassification, Bool.and_eq_true, decide_eq_true_eq] at names
    exact names.1
  have opened : rule.leaves false = true := by
    rw [Block.leaves, kind]
    exact names
  have ruleEntry : rule.categoryEntry = none := (entries_other rule).2.1 (by rw [kind]; decide)
  intro same
  have fewer := keptCategories_fewer rest (category.leaves true)
  have lengths := congrArg List.length same
  rw [keptCategories, keptCategories, opened, filterMap_cons_toList, filterMap_cons_toList,
    ruleEntry, named] at lengths
  simp only [Bool.false_eq_true, if_false, if_true, Option.toList_none, Option.toList_some,
    List.nil_append, List.singleton_append, List.length_cons] at lengths
  omega

theorem harmless_of_independent {document : Document} {policy : ParsedSpif}
    (independent : OrderIndependent document policy) :
    (∀ b ∈ blocks document, b.namesClassification = false) ∨
      ∀ b ∈ blocks document, b.categoryEntry = none := by
  by_contra neither
  rw [not_or] at neither
  obtain ⟨opening, naming⟩ := neither
  simp only [not_forall] at opening naming
  obtain ⟨rule, ruleMem, names⟩ := opening
  obtain ⟨category, categoryMem, named⟩ := naming
  rw [Bool.not_eq_false] at names
  obtain ⟨entry, found⟩ := Option.ne_none_iff_exists'.mp named
  have different : category ≠ rule := by
    intro same
    subst same
    rw [Block.namesClassification, Bool.and_eq_true, decide_eq_true_eq] at names
    rw [(entries_other category).2.1 (by rw [names.1]; decide)] at found
    cases found
  obtain ⟨rest, order⟩ := perm_two_first ruleMem categoryMem different
  obtain ⟨reordered, filled⟩ := refill_reordered order
  obtain ⟨reread, again, _, own⟩ := independent _ reordered
  obtain ⟨rfl, _⟩ := (parseSpifXml_ok_iff _ reread).mp again
  have kept := own.categories
  rw [(policy_read _).2.2.2.2.1, filled] at kept
  exact category_lost rest names found kept

theorem ownEntries_read {document : Document} (identifier : OwnIdentifier document)
    (url : OwnUrl document)
    (harmless : (∀ b ∈ blocks document, b.namesClassification = false) ∨
      ∀ b ∈ blocks document, b.categoryEntry = none) :
    OwnEntries document (SpifParser.run {} (events document)).policy := by
  obtain ⟨policyId, policyOid, versionInfo, classifications, categories, validations⟩ :=
    policy_read document
  rw [identifier_own identifier] at policyId
  rw [url_own url] at policyOid
  rw [keptCategories_all harmless] at categories
  exact ⟨policyId, policyOid, versionInfo, classifications, categories, validations⟩

/-- Which documents say the same in every order of their blocks. -/
theorem block_order_irrelevant_iff (document : Document) (policy : ParsedSpif)
    (parsed : parseSpifXml (events document, none) = .ok policy) :
    OrderIndependent document policy ↔ OwnIdentifier document ∧ OwnUrl document ∧
      ((∀ b ∈ blocks document, b.namesClassification = false) ∨
        ∀ b ∈ blocks document, b.categoryEntry = none) := by
  obtain ⟨rfl, identified⟩ := (parseSpifXml_ok_iff document policy).mp parsed
  constructor
  · intro independent
    exact ⟨ownIdentifier_of_independent independent, ownUrl_of_independent independent,
      harmless_of_independent independent⟩
  · intro all
    obtain ⟨identifier, url, harmless⟩ := all
    have here := ownEntries_read identifier url harmless
    intro other order
    have harmless' : (∀ b ∈ blocks other, b.namesClassification = false) ∨
        ∀ b ∈ blocks other, b.categoryEntry = none := by
      rcases harmless with closed | unnamed
      · exact Or.inl fun b mem => closed b (order.2.mem_iff.mp mem)
      · exact Or.inr fun b mem => unnamed b (order.2.mem_iff.mp mem)
    have there := ownEntries_read (ownIdentifier_reordered order identifier)
      (ownUrl_reordered order url) harmless'
    obtain ⟨sameIdentifiers, sameUrls, sameVersions, _, _⟩ := own_reordered order
    have samePolicyId : (SpifParser.run {} (events other)).policy.policyId =
        (SpifParser.run {} (events document)).policy.policyId := by
      rw [there.policyId, here.policyId, sameIdentifiers]
    refine ⟨_, (parseSpifXml_ok_iff other _).mpr ⟨rfl, by rw [samePolicyId]; exact identified⟩,
      ⟨samePolicyId, ?_, ?_, ?_, ?_, ?_⟩, there⟩
    · rw [there.policyOid, here.policyOid, sameUrls]
    · rw [there.versionInfo, here.versionInfo, sameVersions]
    · rw [there.classifications, here.classifications]
      exact order.2.filterMap _
    · rw [there.categories, here.categories]
      exact order.2.filterMap _
    · rw [there.validations, here.validations]
      exact order.2.filterMap _

end Orders

section Fixtures

def leaf (tag text : String) : List Pulled := [.start tag [], .text text, .finish tag]

theorem tags_all {content : List Pulled} {P : String → Prop}
    (checked : ∀ tag ∈ content.filterMap tagName, P tag) :
    ∀ e ∈ content, ∀ tag, tagName e = some tag → P tag :=
  fun e mem tag named => checked tag (List.mem_filterMap.mpr ⟨e, mem, named⟩)

def classificationBlock (name : String) : Block where
  name := "securityClassification"
  attributes := []
  content := leaf "name" name
  kind := .classification
  named := by decide
  flat := by
    apply tags_all
    show ∀ tag ∈ ["name", "name"], _
    decide

def releasableBlock : Block where
  name := "securityCategory"
  attributes := [("type", "permissive")]
  content := leaf "name" "Releasable To" ++ leaf "categoryName" "MOCK" ++
    leaf "categoryName" "PHONY"
  kind := .category
  named := by decide
  flat := tags_all (by decide)

def mockRule : Block where
  name := "validation"
  attributes := []
  content := leaf "classification" "CONFIDENTIAL" ++ leaf "categoryName" "Releasable To" ++
    leaf "requiredValue" "MOCK" ++ leaf "requiredValue" "PHONY"
  kind := .validation
  named := by decide
  flat := tags_all (by decide)

def gap (tags : List Pulled) (plain : ∀ tag ∈ tags.filterMap tagName, blockKind tag = none)
    (closed : tags.foldl versionAfter false = false) : Filler :=
  ⟨tags, tags_all plain, closed⟩

def acmeLead : Filler where
  content := [.other, .start "spif" [], .start "versioninfo" []] ++ leaf "spifversion" "XML-SPIF" ++
    leaf "issuingauthority" "ACME Corporation" ++
    [.finish "versioninfo", .start "securityPolicyId" []] ++ leaf "identifier" "ACME" ++
    [.finish "securityPolicyId", .start "securityClassifications" []]
  plain := tags_all (by decide)
  closed := by decide

def acmeDocument : Document where
  lead := acmeLead
  parts := [
    (classificationBlock "CONFIDENTIAL", gap [.finish "securityClassifications",
      .start "securityCategories" []] (by decide) (by decide)),
    (releasableBlock, gap [.finish "securityCategories",
      .start "validations" []] (by decide) (by decide)),
    (mockRule, gap [.finish "validations", .finish "spif"] (by decide) (by decide))]

def acmeRuleFirst : Document :=
  refill acmeDocument
    [classificationBlock "CONFIDENTIAL", mockRule, releasableBlock]

theorem acmeRuleFirst_reordered : Reordered acmeDocument acmeRuleFirst :=
  (refill_reordered ((List.Perm.swap _ _ []).cons _)).1

theorem acme_category_lost : ∃ policy, parseSpifXml (events acmeDocument, none) = .ok policy ∧
    policy.categories = [⟨"Releasable To", .permissive, ["MOCK", "PHONY"]⟩] ∧
    Reordered acmeDocument acmeRuleFirst ∧
    (∃ reread, parseSpifXml (events acmeRuleFirst, none) = .ok reread ∧ reread.categories = []) ∧
    ¬ OrderIndependent acmeDocument policy := by
  have kept : (SpifParser.run {} (events acmeDocument)).policy.categories =
      [⟨"Releasable To", .permissive, ["MOCK", "PHONY"]⟩] := by decide +kernel
  have lost : (SpifParser.run {} (events acmeRuleFirst)).policy.categories = [] := by
    decide +kernel
  refine ⟨_, (parseSpifXml_ok_iff _ _).mpr ⟨rfl, by decide +kernel⟩, kept,
    acmeRuleFirst_reordered, ⟨_, (parseSpifXml_ok_iff _ _).mpr ⟨rfl, by decide +kernel⟩, lost⟩, ?_⟩
  intro independent
  obtain ⟨reread, again, same, _⟩ := independent _ acmeRuleFirst_reordered
  obtain ⟨rfl, _⟩ := (parseSpifXml_ok_iff _ _).mp again
  have lengths := same.categories.length_eq
  rw [kept, lost] at lengths
  cases lengths

def ruleless : Document where
  lead := acmeLead
  parts := [
    (classificationBlock "CONFIDENTIAL", gap [.finish "securityClassifications",
      .start "securityCategories" []] (by decide) (by decide)),
    (releasableBlock, gap [.finish "securityCategories", .finish "spif"] (by decide)
      (by decide))]

theorem ruleless_order_irrelevant : ∃ policy, parseSpifXml (events ruleless, none) = .ok policy ∧
    OrderIndependent ruleless policy := by
  have parsed := (parseSpifXml_ok_iff ruleless _).mpr ⟨rfl, by decide +kernel⟩
  refine ⟨_, parsed, (block_order_irrelevant_iff ruleless _ parsed).mpr ⟨?_, ?_, ?_⟩⟩
  · left
    decide +kernel
  · right
    decide +kernel
  · left
    decide +kernel

end Fixtures

end MimSpif
