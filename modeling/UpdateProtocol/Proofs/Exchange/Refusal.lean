import Mathlib.Data.List.Forall2
import UpdateProtocol.Proofs.Document.RoundTrip
import UpdateProtocol.Proofs.Exchange.Decision

namespace UpdateProtocol

theorem AppStatus.canonical_refusal_eq_ok_iff {s : AppStatus} :
    s.refusal.canonical = .ok ↔ s = .other "ok" := by
  cases s with
  | other text =>
    change ofText text = .ok ↔ _
    unfold ofText
    split <;> simp_all
  | _ => simp [refusal, canonical, text, ofText]

theorem UpdateStatus.canonical_refusal_eq_ok_iff {s : UpdateStatus} :
    s.refusal.canonical = .ok ↔ s = .other "ok" := by
  cases s with
  | other text =>
    change ofText text = .ok ↔ _
    unfold ofText
    split <;> simp_all
  | _ => simp [refusal, canonical, text, ofText]

namespace Decision

structure IsKept (d : Decision) (a : AppResponse) : Prop where
  refusal : ∀ status, d.verdict = .error status → a.status ≠ .ok
  offer : ∀ check ∈ a.updateCheck, check.status = .ok →
    ∃ update, d.verdict = .ok (some (.ok update)) ∧ check.manifest = some update.manifest

def SaysOk (d : Decision) : Prop :=
  d.verdict = .error (.other "ok") ∨ d.verdict = .ok (some (.error (.other "ok")))

variable {app : AppRequest}

theorem isKept_refused_iff {status : AppStatus} :
    (mk app (.error status)).IsKept (mk app (.error status)).answer.canonical ↔
      status ≠ .other "ok" := by
  have hstatus : (mk app (.error status)).answer.canonical.status = status.refusal.canonical := rfl
  have hcheck : (mk app (.error status)).answer.canonical.updateCheck = none := rfl
  constructor
  · rintro h rfl
    exact h.refusal _ rfl rfl
  · intro hstatus'
    refine ⟨fun _ _ => ?_, ?_⟩
    · rwa [hstatus, ne_eq, AppStatus.canonical_refusal_eq_ok_iff]
    · rw [hcheck]
      rintro _ ⟨⟩

theorem isKept_unasked : (mk app (.ok none)).IsKept (mk app (.ok none)).answer.canonical := by
  have hcheck : (mk app (.ok none)).answer.canonical.updateCheck = none := rfl
  constructor
  · rintro _ ⟨⟩
  · rw [hcheck]
    rintro _ ⟨⟩

theorem isKept_offered {update : Update} :
    (mk app (.ok (some (.ok update)))).IsKept
      (mk app (.ok (some (.ok update)))).answer.canonical := by
  constructor
  · rintro _ ⟨⟩
  · rintro _ ⟨⟩ _
    exact ⟨update, rfl, rfl⟩

theorem isKept_declined_iff {status : UpdateStatus} :
    (mk app (.ok (some (.error status)))).IsKept
        (mk app (.ok (some (.error status)))).answer.canonical ↔ status ≠ .other "ok" := by
  constructor
  · rintro h rfl
    obtain ⟨update, hverdict, -⟩ := h.offer _ rfl rfl
    cases hverdict
  · intro hstatus
    constructor
    · rintro _ ⟨⟩
    · rintro _ ⟨⟩ hok
      exact absurd (UpdateStatus.canonical_refusal_eq_ok_iff.1 hok) hstatus

theorem isKept_answer_iff (d : Decision) : d.IsKept d.answer.canonical ↔ ¬ d.SaysOk := by
  obtain ⟨app, verdict⟩ := d
  rcases verdict with status | none | update
  · simp [SaysOk, isKept_refused_iff]
  · simp [SaysOk, isKept_unasked]
  · rcases update with status | update
    · simp [SaysOk, isKept_declined_iff]
    · simp [SaysOk, isKept_offered]

end Decision

namespace Updater

theorem refusals_kept_iff {σ : Type} (u : Updater (StateM σ)) (r : Request) (s : σ)
    {contentType : String} (haccepted : ContentType.accepted contentType = true)
    (hsize : ((u.respond r).run s).1.encode.size ≤ Document.maxSize) :
    ∃ decisions read, decisions = ((r.apps.mapM (u.decide r)).run s).1 ∧
      decisions.map Decision.app = r.apps ∧
      Response.decode contentType ((u.respond r).run s).1.encode = .ok read ∧
      List.Forall₂ (fun d a => a.id = d.app.id ∧ (d.IsKept a ↔ ¬ d.SaysOk)) decisions
        read.apps := by
  refine ⟨_, _, rfl, mapM_decide_app r.apps s,
    Response.decode_written (respond_protocol u r s) haccepted hsize, ?_⟩
  have happs : ((u.respond r).run s).1.canonical.apps =
      ((r.apps.mapM (u.decide r)).run s).1.map fun d => d.answer.canonical := by
    rw [Response.canonical, respond_apps, List.map_map]
    rfl
  rw [happs, List.forall₂_map_right_iff, List.forall₂_same]
  intro d _
  exact ⟨d.answer_id, d.isKept_answer_iff⟩

def evasive : Updater (StateM Unit) :=
  { stub with
    checkApp := fun _ a => pure (if a.updateCheck = none then .error (.other "ok") else .ok ())
    checkUpdate := fun _ _ => pure (.error (.other "ok")) }

def evaded : Request :=
  { Request.new with apps := [{ id := "a" }, { id := "b", updateCheck := some {} }] }

theorem evasive_fits : ((evasive.respond evaded).run ()).1.encode.size ≤ Document.maxSize := by
  decide +kernel

theorem refusals_kept_iff_evasive :
    ContentType.accepted "text/xml" = true ∧
      ((evasive.respond evaded).run ()).1.encode.size ≤ Document.maxSize ∧
      ∃ decisions read, decisions = ((evaded.apps.mapM (evasive.decide evaded)).run ()).1 ∧
        Response.decode "text/xml" ((evasive.respond evaded).run ()).1.encode = .ok read ∧
        List.Forall₂ (fun d a => d.IsKept a ↔ ¬ d.SaysOk) decisions read.apps := by
  have haccepted : ContentType.accepted "text/xml" = true := by decide +kernel
  obtain ⟨decisions, read, hdecisions, -, hread, hkept⟩ :=
    refusals_kept_iff evasive evaded () haccepted evasive_fits
  exact ⟨haccepted, evasive_fits, decisions, read, hdecisions, hread, hkept.imp fun _ _ h => h.2⟩

theorem evasive_reads_ok :
    ∃ read : Response,
      ((evasive.respond evaded).run ()).1.encode.size ≤ Document.maxSize ∧
      Response.decode "text/xml" ((evasive.respond evaded).run ()).1.encode = .ok read ∧
      ¬ List.Forall₂ Decision.IsKept ((evaded.apps.mapM (evasive.decide evaded)).run ()).1
        read.apps := by
  have hread := Response.decode_written (Updater.respond_protocol evasive evaded ())
    (by decide +kernel : ContentType.accepted "text/xml" = true) evasive_fits
  refine ⟨_, evasive_fits, hread, ?_⟩
  intro hkept
  cases hkept with
  | cons hfirst _ => exact hfirst.refusal _ rfl rfl

end Updater

end UpdateProtocol
