import UpdateProtocol.Proofs.Exchange.Decision
import UpdateProtocol.Proofs.Exchange.Verdict
import UpdateProtocol.Proofs.Exchange.Wire

namespace UpdateProtocol

theorem AppStatus.canonical_refusal {s : AppStatus} (h : s.canonical = s) :
    s.refusal.canonical = s.refusal := by
  cases s with
  | ok => rfl
  | _ => exact h

theorem UpdateStatus.canonical_refusal {s : UpdateStatus} (h : s.canonical = s) :
    s.refusal.canonical = s.refusal := by
  cases s with
  | ok => rfl
  | _ => exact h

def Decision.IsPlain (d : Decision) : Prop :=
  match d.verdict with
  | .error status => status.canonical = status
  | .ok (some (.error status)) => status.canonical = status
  | _ => True

theorem Decision.answer_isCanonical {d : Decision} (h : d.IsPlain) : d.answer.IsCanonical := by
  obtain ⟨app, verdict⟩ := d
  cases verdict with
  | error status => exact ⟨AppStatus.canonical_refusal h, by simp [answer]⟩
  | ok update =>
    refine ⟨rfl, ?_⟩
    intro check hcheck
    cases update with
    | none => cases hcheck
    | some decision =>
      cases hcheck
      cases decision with
      | ok update => rfl
      | error status => exact UpdateStatus.canonical_refusal h

namespace Question

def app (q : Question) : AppRequest := q.request.apps.headD { id := "" }

theorem judge_single {q : Question} {α : Type} {take : AppResponse → Except Failure α}
    {r : Response} {a : AppResponse} (happs : r.apps = [a]) (hid : a.id = q.appId) :
    q.judge take (.ok r) = a.judged take := by
  have haccepted : r.accepted q.appId =
      if a.status.isOk then .ok a else .error (.appStatus a.status) := by
    simp [Response.accepted, happs, hid]
  change (r.accepted q.appId).bind _ = _
  rw [haccepted, AppResponse.judged]
  split <;> rfl

end Question

section Stateful

variable {σ : Type}

structure Updater.Plain (u : Updater (StateM σ)) : Prop where
  checkApp : ∀ r a s status, ((u.checkApp r a).run s).1 = .error status →
    ∃ text, status = .ofText text
  checkUpdate : ∀ r a s status, ((u.checkUpdate r a).run s).1 = .error status →
    ∃ text, status = .ofText text

namespace Updater

variable {u : Updater (StateM σ)} {r : Request} {a : AppRequest}

theorem Plain.canonical_checkApp (hu : u.Plain) {s : σ} {status : AppStatus}
    (h : ((u.checkApp r a).run s).1 = .error status) : status.canonical = status := by
  obtain ⟨text, rfl⟩ := hu.checkApp r a s status h
  exact AppStatus.canonical_ofText text

theorem Plain.canonical_checkUpdate (hu : u.Plain) {s : σ} {status : UpdateStatus}
    (h : ((u.checkUpdate r a).run s).1 = .error status) : status.canonical = status := by
  obtain ⟨text, rfl⟩ := hu.checkUpdate r a s status h
  exact UpdateStatus.canonical_ofText text

theorem decide_isPlain (hu : u.Plain) (s : σ) : ((u.decide r a).run s).1.IsPlain := by
  cases hrun : (u.checkApp r a).run s with
  | mk outcome s' =>
    cases outcome with
    | error status =>
      rw [decide_of_refused hrun]
      exact hu.canonical_checkApp (by rw [hrun])
    | ok _ =>
      rw [decide_of_accepted hrun]
      cases hcheck : a.updateCheck with
      | none =>
        rw [decideUpdate, hcheck]
        trivial
      | some check =>
        rw [decideUpdate_of_asked hcheck]
        cases hdecision : ((u.checkUpdate r a).run s').1 with
        | ok update => trivial
        | error status => exact hu.canonical_checkUpdate hdecision

end Updater

namespace Question

variable {u : Updater (StateM σ)} {q : Question} {s : σ}

def Fits (u : Updater (StateM σ)) (s : σ) (q : Question) : Prop :=
  q.request.encode.size ≤ Document.maxSize ∧
    ((u.respond q.request).run s).1.encode.size ≤ Document.maxSize

theorem send_eq_judged [Idna] {url : Url} {schedule : Nat → Fate} {chunking : Chunking} {α : Type}
    {take : AppResponse → Except Failure α} (hu : u.Plain) (htarget : Url.target q.url = .ok url)
    (hroute : String.ofList url.path.text ∈ Endpoint.routes)
    (hfate : schedule 0 = .answered chunking)
    (hprotocol : q.request.protocol = protocolVersion) (happs : q.request.apps = [q.app])
    (hfits : q.Fits u s) :
    ((q.send (wire u schedule) take).run []).run s =
      ((fun verdict => (verdict, [q.post url])) <$>
        (AppResponse.judged take <$> u.answerApp q.request q.app)).run s := by
  obtain ⟨hrequest, hresponse⟩ := hfits
  have hrespond : u.respond q.request =
      (fun d => { Response.new with apps := [d.answer] }) <$> u.decide q.request q.app := by
    rw [Updater.respond_eq, happs]
    simp
  rw [send_of_answered htarget hroute hfate hprotocol hrequest, Updater.answerApp_eq]
  rw [hrespond] at hresponse ⊢
  have hplain := Updater.decide_isPlain (r := q.request) (a := q.app) hu s
  have happ := Updater.decide_app (u := u) (r := q.request) (a := q.app) s
  cases hrun : (u.decide q.request q.app).run s with
  | mk d s' =>
    rw [run_map_of_run hrun] at hresponse
    rw [hrun] at hplain happ
    have hid : d.answer.id = q.appId := by
      rw [Decision.answer_id, happ, appId, happs]
      rfl
    have hread : ({ Response.new with apps := [d.answer] } : Response).received chunking =
        .ok { Response.new with apps := [d.answer] } := by
      rw [Response.received_of_fits rfl hresponse, Response.canonical_eq_self_iff.2]
      exact List.forall_mem_singleton.2 (Decision.answer_isCanonical hplain)
    rw [run_map_of_run (run_map_of_run hrun),
      run_map_of_run (run_map_of_run (run_map_of_run hrun)), hread, judge_single rfl hid]

theorem ends_agree [Idna] (hu : u.Plain) (c : Client) (a : App) {url : Url}
    (htarget : Url.target c.serverUrl = .ok url)
    (hroute : String.ofList url.path.text ∈ Endpoint.routes) {schedule : Nat → Fate}
    {chunking : Chunking} (hfate : schedule 0 = .answered chunking) (s : σ) :
    (∀ q, q = (c.askUpdateCheck a).2 → q.Fits u s →
      ((q.sendUpdateCheck (wire u schedule)).run []).run s =
        ((fun verdict => (verdict, [q.post url])) <$> u.checkVerdict q.request q.app).run s) ∧
    (∀ q, q = (c.askPing a).2 → q.Fits u s →
      ((q.sendPing (wire u schedule)).run []).run s =
        ((fun verdict => (verdict, [q.post url])) <$> u.pingVerdict q.request q.app).run s) ∧
    ∀ e q, q = c.askEvent a e → q.Fits u s →
      ((q.sendEvent (wire u schedule)).run []).run s =
        ((fun verdict => (verdict, [q.post url])) <$> u.eventVerdict q.request q.app e).run s := by
  refine ⟨?check, ?ping, ?event⟩
  case check =>
    rintro q rfl hfits
    rw [← Updater.judged_updateCheck rfl rfl rfl]
    exact send_eq_judged hu htarget hroute hfate rfl rfl hfits
  case ping =>
    rintro q rfl hfits
    rw [← Updater.judged_ping rfl rfl rfl]
    exact send_eq_judged hu htarget hroute hfate rfl rfl hfits
  case event =>
    rintro e q rfl hfits
    rw [← Updater.judged_event rfl rfl rfl]
    exact send_eq_judged hu htarget hroute hfate rfl rfl hfits

end Question

end Stateful

namespace Offer

def updater : Updater (StateM (List Call)) :=
  Updater.traced (m := Id)
    { Updater.stub with
      checkUpdate := fun _ _ =>
        pure (.ok { urls := [⟨"http://a/?b&c"⟩], manifest := { version := "2" } }) }

theorem updater_plain : updater.Plain where
  checkApp _ _ _ _ h := by cases h
  checkUpdate _ _ _ _ h := by cases h

def client : Client where
  session :=
    { userId := "a&b", sessionId := "", isMachine := true, network := {}, schedule := {} }
  serverUrl := "http://localhost:8000/v1/update/"
  version := "1"

def url : Url where
  scheme := "http".toList
  authority := some { host := .name "localhost".toList, port := some 8000 }
  path := .segments ["v1".toList, "update".toList, []]

def atOnce : Chunking := ⟨fun body => [body], fun _ => ByteArray.empty_append⟩

theorem ends_agree_offer :
    let app : App := { id := "\"<x>", version := "1" }
    let schedule : Nat → Fate := fun n => if n = 0 then .answered atOnce else .lost .reset
    let q := (client.askUpdateCheck app).2
    Url.target client.serverUrl = .ok url ∧ String.ofList url.path.text ∈ Endpoint.routes ∧
      q.Fits updater [] ∧
      ((q.sendUpdateCheck (wire updater schedule)).run []).run [] =
        ((.ok (.available
            { status := .ok, urls := [⟨"http://a/?b&c"⟩], manifest := some { version := "2" } }),
          [q.post url]), [.checkApp q.app, .checkUpdate q.app, .ping q.app]) := by
  intro app schedule q
  have htarget : Url.target client.serverUrl = .ok url := by decide +kernel
  have hroute : String.ofList url.path.text ∈ Endpoint.routes := by decide +kernel
  have hfits : q.Fits updater [] := ⟨by decide +kernel, by decide +kernel⟩
  refine ⟨htarget, hroute, hfits, ?_⟩
  exact (Question.ends_agree updater_plain client app htarget hroute rfl []).1 q rfl hfits

end Offer

end UpdateProtocol
