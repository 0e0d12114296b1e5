import MimStack.Dcs.Receive
import MimStack.Dcs.Transfer
import MimStack.Decisions
import MimStack.Ztdf.RoundTrip

/-!
From release to receipt. What the source side packages, the target side opens:
the archive keeps the manifest, its JSON label is decided on as the effective label
is, and the signature is checked over the label text packaged beside it.
-/
namespace MimDcs
open ByteText Fallible MarkupText MimCore MimLabeling MimPolicy MimAudit MimCrypto MimStanag MimZtdf

section Delivery

variable [MarkupEscape] {P : CryptoProvider} {z : ZipFormat} {readTime : TimeReader}
  {resolver : DetachedLabelResolver} {σ : Type}

omit [MarkupEscape] in
theorem CrossDomainGuard.passes_times {g : CrossDomainGuard σ} {label effective : ConfidentialityLabel}
    (passes : g.passes label = some effective) :
    effective.creationTime = label.creationTime ∧ effective.reviewDateTime = label.reviewDateTime := by
  obtain ⟨decision, decided, approved, passed⟩ := CrossDomainGuard.passes_some.mp passes
  exact evaluateCrossDomain_times decided approved passed

theorem released_package {t : CrossDomainTransfer} {guard : CrossDomainGuard σ} {audit : AuditLog σ}
    {s s' : σ} {labelXml payload : String} {manifest : Option String} {zip : Bytes}
    (released : (t.execute P z readTime resolver guard audit).Yields s
      (.released labelXml payload manifest (some zip)) s') :
    ∃ effective ztdf, guard.passes t.label = some effective ∧
      t.Packages P readTime resolver effective ztdf ∧ ztdf.toZipBytes z = .ok zip := by
  obtain ⟨decision, effective, ztdf, text, bytes, admits, _, archive, same, _⟩ :=
    CrossDomainTransfer.execute_yields_released.mp released
  injection same with _ _ _ sameZip
  obtain rfl := Option.some.inj sameZip
  exact ⟨effective, ztdf, CrossDomainGuard.passes_some.mpr
    ⟨decision, admits.decided, admits.approved, admits.passed⟩, admits.packages, archive⟩

theorem received_readable {t : CrossDomainTransfer} {guard : CrossDomainGuard σ} {audit : AuditLog σ}
    (faithful : z.Faithful) {s s' : σ} {labelXml payload : String} {manifest : Option String}
    {zip : Bytes} (released : (t.execute P z readTime resolver guard audit).Yields s
      (.released labelXml payload manifest (some zip)) s')
    {r : Reception σ} (same : r.zip = zip) {now after : σ} {text : String}
    (yields : (r.receiveZtdfOnTarget P z readTime).Yields now text after) :
    TimesReadable readTime t.label := by
  obtain ⟨effective, ztdf, passes, packages, archive⟩ := released_package released
  obtain ⟨encrypted, wrapped, a, created⟩ := ZtdfPackage.create_ok_iff.mp packages.created
  have entries := ZtdfPackage.readZipEntries_toZipBytes faithful archive
  obtain ⟨_, _, _, back, _, _, admits, _⟩ := Reception.receive_yields.mp yields
  have decoded := ZtdfPackage.opened_decodes created entries (same ▸ admits.opened)
  obtain ⟨made, reviewed⟩ := CrossDomainGuard.passes_times passes
  exact (timesReadable_congr made reviewed).mp
    ((json_decoded_iff packages.valid).mp ⟨back, decoded⟩)

/-- Whoever may read the effective label in the target domain receives a released payload exactly
if the times of the label can be read back. -/
theorem released_package_received_iff (t : CrossDomainTransfer) (guard : CrossDomainGuard σ)
    (audit : AuditLog σ) (working : audit.Working) (faithful : z.Faithful) {s s' : σ}
    {labelXml payload : String} {manifest : Option String} {zip : Bytes}
    (released : (t.execute P z readTime resolver guard audit).Yields s
      (.released labelXml payload manifest (some zip)) s')
    (nmbVerifyingKey : VerifyingKey) (paired : P.Paired t.nmbSigningKey nmbVerifyingKey)
    (kasSigningKey : SigningKey)
    (unsealing : ZtdfPackage.Unseals P kasSigningKey t.kasVerifyingKey)
    (subject : SubjectAttributes) (effective : ConfidentialityLabel)
    (passes : guard.passes t.label = some effective)
    (granted : ∃ decision,
      guard.pep.pep.enforceAccess subject effective .read guard.target = .ok decision) (now : σ) :
    let r : Reception σ := ⟨subject, guard, zip, nmbVerifyingKey, localKasClient P kasSigningKey,
      audit⟩
    (∃ after, (r.receiveZtdfOnTarget P z readTime).Yields now t.payload after) ↔
      TimesReadable readTime t.label := by
  intro r
  constructor
  · rintro ⟨after, yields⟩
    exact received_readable faithful released rfl yields
  · intro readable
    obtain ⟨effective', ztdf, passes', packages, archive⟩ := released_package released
    obtain rfl := Option.some.inj (passes.symm.trans passes')
    obtain ⟨encrypted, wrapped, a, created⟩ := ZtdfPackage.create_ok_iff.mp packages.created
    have entries := ZtdfPackage.readZipEntries_toZipBytes faithful archive
    rw [← ZtdfPackage.relabelled_self created] at entries
    obtain ⟨b, bound, _⟩ := packages.bound
    obtain ⟨_, assertion, _⟩ := (BindingDataObject.assertionBound_ok_iff _ _ _ _).mp bound
    have policy := ((AssertionBinding.create_ok_iff _ _ _ _).mp assertion).1
    obtain ⟨made, reviewed⟩ := CrossDomainGuard.passes_times passes
    obtain ⟨back, decoded⟩ := (json_decoded_iff packages.valid).mpr
      ((timesReadable_congr made reviewed).mpr readable)
    exact Reception.receive_created (r := r) created paired unsealing rfl entries policy decoded granted
      fun record s => working.recorded record guard.accredited s

end Delivery

section Fixtures

open CrossDomainTransfer (fromHigh highToLow highToLow_pair)

def lowReader : SubjectAttributes :=
  { subjectId := "reader", clearance := .restricted, nationality := some "USA" }

def silentLog : AuditLog Unit := ⟨fun _ _ => (.ok (), ())⟩

theorem secretAt_released : ∀ time ∈ [DateTime.mk "2024-05-01T08:00:00+00:00",
      .mk "+10000-01-01T00:00:00+00:00"], letI := entityEscape
    ∃ z b labelXml manifest zip effective, ZipFormat.Faithful z ∧
      BindingDataObject.assertionBound echoProvider (ZtdfPackage.secretAt time) (utf8 "m")
        ⟨"nmb", [3]⟩ = .ok b ∧
      ((fromHigh (ZtdfPackage.secretAt time) "m" b).execute echoProvider z yearReader
        (fun uri => .error (.parse uri)) (highToLow Unit) silentLog).Yields ()
          (.released labelXml "m" manifest (some zip)) () ∧
      (highToLow Unit).passes (ZtdfPackage.secretAt time) = some effective ∧
      ∃ decision, (highToLow Unit).pep.pep.enforceAccess lowReader effective .read
        (highToLow Unit).target = .ok decision := by
  let : MarkupEscape := entityEscape
  have checked : ∀ time ∈ [DateTime.mk "2024-05-01T08:00:00+00:00",
      .mk "+10000-01-01T00:00:00+00:00"],
      ((highToLow Unit).passes (ZtdfPackage.secretAt time)).any (fun effective =>
        (MimSpif.SpifRegistry.withDefaults.validateLabel effective).isOk &&
        ((highToLow Unit).pep.pep.enforceAccess lowReader effective .read
          (highToLow Unit).target).isOk) = true := by
    decide +kernel
  intro time listed
  have found := checked time listed
  have paired := echoProvider_paired ⟨"nmb", [3]⟩ ⟨"nmb", [3]⟩ rfl rfl
  have digest : RustText.isEmpty (echoProvider.sha256Base64 (utf8 "m")) = false := by
    decide +kernel
  cases passes : (highToLow Unit).passes (ZtdfPackage.secretAt time) with
  | none =>
    rw [passes] at found
    cases found
  | some effective =>
    simp only [passes, Option.any_some, Bool.and_eq_true] at found
    obtain ⟨accepts, grants⟩ := found
    have policy := Fallible.ok_of_isOk accepts
    obtain ⟨p, create, verified⟩ := ZtdfPackage.create_released paired
      (ZtdfPackage.echoProvider_seals ⟨"kas", [4]⟩) policy digest yearReader fun uri =>
        .error (.parse uri)
    obtain ⟨z, text, zip, faithful, manifest, archive⟩ := ZtdfPackage.faithful_archive p
    obtain ⟨b, _, bound, method, _, _, _, _, _, accepted⟩ :=
      BindingDataObject.assertionBound_verifies paired (ZtdfPackage.secretAt_accepted time) (utf8 "m")
    obtain ⟨b', _, bound', _, _, _, _, _, _, accepted'⟩ :=
      BindingDataObject.assertionBound_verifies paired policy (utf8 "m")
    obtain ⟨decision, decided, approved, passed⟩ := CrossDomainGuard.passes_some.mp passes
    have recorded : ∀ record, Recorded silentLog record (highToLow Unit).accredited () :=
      fun record closed => by cases closed
    have admits : (fromHigh (ZtdfPackage.secretAt time) "m" b).Admits echoProvider z yearReader
        (fun uri => .error (.parse uri)) (highToLow Unit) silentLog () decision effective p :=
      ⟨highToLow_pair, method, accepted, recorded _, decided, approved, passed,
        ⟨(MimSpif.accepted_stages policy).1, ⟨b', bound', accepted'⟩, create, verified⟩,
        recorded _, ⟨text, manifest⟩, zip, archive⟩
    exact ⟨z, b, _, _, zip, effective, faithful, bound,
      CrossDomainTransfer.execute_yields_released.mpr
        ⟨decision, effective, p, text, zip, admits, manifest, archive, rfl, rfl⟩, rfl,
      Fallible.isOk_iff.mp grants⟩

theorem released_package_received_fixture : letI := entityEscape
    ∃ z b labelXml manifest zip,
      ((fromHigh (ZtdfPackage.secretAt ⟨"2024-05-01T08:00:00+00:00"⟩) "m" b).execute echoProvider z
        yearReader (fun uri => .error (.parse uri)) (highToLow Unit) silentLog).Yields ()
          (.released labelXml "m" manifest (some zip)) () ∧
      let r : Reception Unit := ⟨lowReader, highToLow Unit, zip, ⟨"nmb", [3]⟩,
        localKasClient echoProvider ⟨"kas", [4]⟩, silentLog⟩
      ∃ after, (r.receiveZtdfOnTarget echoProvider z yearReader).Yields () "m" after := by
  let : MarkupEscape := entityEscape
  obtain ⟨z, b, labelXml, manifest, zip, effective, faithful, _, released, passes, granted⟩ :=
    secretAt_released ⟨"2024-05-01T08:00:00+00:00"⟩ (by decide)
  have readable : TimesReadable yearReader (ZtdfPackage.secretAt ⟨"2024-05-01T08:00:00+00:00"⟩) :=
    ZtdfPackage.secretAt_readable.mpr ⟨_, yearReader_takes (by decide +kernel)⟩
  refine ⟨z, b, labelXml, manifest, zip, released, ?_⟩
  exact (released_package_received_iff _ _ _ (fun _ _ => rfl) faithful released _
    (echoProvider_paired ⟨"nmb", [3]⟩ ⟨"nmb", [3]⟩ rfl rfl) _
    (ZtdfPackage.echoProvider_unseals ⟨"kas", [4]⟩ ⟨"kas", [4]⟩) lowReader effective passes granted
    ()).mpr readable

/-- A message whose label was made in the year 10000 is released, and its reader gets nothing. -/
theorem far_year_undelivered : letI := entityEscape
    ∃ z b labelXml manifest zip effective, ZipFormat.Faithful z ∧ silentLog.Working ∧
      ((fromHigh (ZtdfPackage.secretAt ⟨"+10000-01-01T00:00:00+00:00"⟩) "m" b).execute echoProvider z
        yearReader (fun uri => .error (.parse uri)) (highToLow Unit) silentLog).Yields ()
          (.released labelXml "m" manifest (some zip)) () ∧
      (highToLow Unit).passes (ZtdfPackage.secretAt ⟨"+10000-01-01T00:00:00+00:00"⟩) =
        some effective ∧
      (∃ decision, (highToLow Unit).pep.pep.enforceAccess lowReader effective .read
        (highToLow Unit).target = .ok decision) ∧
      let r : Reception Unit := ⟨lowReader, highToLow Unit, zip, ⟨"nmb", [3]⟩,
        localKasClient echoProvider ⟨"kas", [4]⟩, silentLog⟩
      ∀ text after, ¬ (r.receiveZtdfOnTarget echoProvider z yearReader).Yields () text after := by
  let : MarkupEscape := entityEscape
  obtain ⟨z, b, labelXml, manifest, zip, effective, faithful, _, released, passes, granted⟩ :=
    secretAt_released ⟨"+10000-01-01T00:00:00+00:00"⟩ (by decide)
  refine ⟨z, b, labelXml, manifest, zip, effective, faithful, fun _ _ => rfl, released, passes, granted, ?_⟩
  intro r text after yields
  obtain ⟨_, taken⟩ := ZtdfPackage.secretAt_readable.mp (received_readable faithful released rfl yields)
  exact yearReader_refuses (by decide +kernel) taken

end Fixtures

end MimDcs
