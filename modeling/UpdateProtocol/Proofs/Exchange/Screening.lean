import UpdateProtocol.Client.Exchange
import UpdateProtocol.Proofs.Markup.Kept

namespace UpdateProtocol

theorem AppStatus.isOk_iff {s : AppStatus} : s.isOk = true ↔ s = .ok := by
  cases s <;> simp [isOk]

theorem Acknowledgement.isOk_iff {k : Acknowledgement} : k.isOk = true ↔ k.status = "ok" :=
  decide_eq_true_iff

namespace AppResponse

variable {a : AppResponse} {k : Acknowledgement} {u : UpdateResponse}

theorem pingAccepted_of_none (h : a.ping = none) :
    a.pingAccepted = .error (.invalidResponse "ping status missing from response") := by
  rw [pingAccepted, h]

theorem pingAccepted_of_ok (h : a.ping = some k) (hk : k.status = "ok") :
    a.pingAccepted = .ok () := by
  rw [pingAccepted, h]
  exact if_pos (Acknowledgement.isOk_iff.2 hk)

theorem pingAccepted_of_refused (h : a.ping = some k) (hk : k.status ≠ "ok") :
    a.pingAccepted = .error (.pingStatus k.status) := by
  rw [pingAccepted, h]
  exact if_neg (hk ∘ Acknowledgement.isOk_iff.1)

theorem checkResult_of_error {cause : Failure} (h : a.pingAccepted = .error cause) :
    a.checkResult = .error cause := by
  rw [checkResult, h]
  rfl

theorem checkResult_of_none (h : a.pingAccepted = .ok ()) (hcheck : a.updateCheck = none) :
    a.checkResult = .error (.invalidResponse "update check missing from response") := by
  rw [checkResult, h, hcheck]
  rfl

theorem checkResult_of_ok (h : a.pingAccepted = .ok ()) (hcheck : a.updateCheck = some u)
    (hu : u.status = .ok) : a.checkResult = .ok (.available u) := by
  rw [checkResult, h, hcheck]
  dsimp only
  rw [hu]
  rfl

theorem checkResult_of_noUpdate (h : a.pingAccepted = .ok ()) (hcheck : a.updateCheck = some u)
    (hu : u.status = .noUpdate) : a.checkResult = .ok .noUpdate := by
  rw [checkResult, h, hcheck]
  dsimp only
  rw [hu]
  rfl

theorem checkResult_of_declined (h : a.pingAccepted = .ok ()) (hcheck : a.updateCheck = some u)
    (hok : u.status ≠ .ok) (hnone : u.status ≠ .noUpdate) :
    a.checkResult = .ok (.declined u.status) := by
  rw [checkResult, h, hcheck]
  dsimp only
  cases hu : u.status with
  | ok => exact absurd hu hok
  | noUpdate => exact absurd hu hnone
  | _ => rfl

end AppResponse

namespace Response

def IsFirst (r : Response) (id : String) (a : AppResponse) : Prop :=
  a.id = id ∧ ∃ earlier later, r.apps = earlier ++ a :: later ∧ ∀ b ∈ earlier, b.id ≠ id

inductive Screens (r : Response) (id : String) : Except Failure AppResponse → Prop
  | missing (absent : ∀ a ∈ r.apps, a.id ≠ id) :
      Screens r id (.error (.invalidResponse ("app " ++ id ++ " missing from response")))
  | rejected {a : AppResponse} (first : r.IsFirst id a) (status : a.status ≠ .ok) :
      Screens r id (.error (.appStatus a.status))
  | accepted {a : AppResponse} (first : r.IsFirst id a) (status : a.status = .ok) :
      Screens r id (.ok a)

inductive Pings (r : Response) (id : String) : Except Failure AppResponse → Prop
  | screened {cause : Failure} (screens : r.Screens id (.error cause)) : Pings r id (.error cause)
  | missing {a : AppResponse} (screens : r.Screens id (.ok a)) (ping : a.ping = none) :
      Pings r id (.error (.invalidResponse "ping status missing from response"))
  | refused {a : AppResponse} {k : Acknowledgement} (screens : r.Screens id (.ok a))
      (ping : a.ping = some k) (status : k.status ≠ "ok") : Pings r id (.error (.pingStatus k.status))
  | accepted {a : AppResponse} {k : Acknowledgement} (screens : r.Screens id (.ok a))
      (ping : a.ping = some k) (status : k.status = "ok") : Pings r id (.ok a)

inductive Checks (r : Response) (id : String) : Except Failure CheckResult → Prop
  | unpinged {cause : Failure} (pings : r.Pings id (.error cause)) : Checks r id (.error cause)
  | missing {a : AppResponse} (pings : r.Pings id (.ok a)) (check : a.updateCheck = none) :
      Checks r id (.error (.invalidResponse "update check missing from response"))
  | available {a : AppResponse} {u : UpdateResponse} (pings : r.Pings id (.ok a))
      (check : a.updateCheck = some u) (status : u.status = .ok) : Checks r id (.ok (.available u))
  | noUpdate {a : AppResponse} {u : UpdateResponse} (pings : r.Pings id (.ok a))
      (check : a.updateCheck = some u) (status : u.status = .noUpdate) : Checks r id (.ok .noUpdate)
  | declined {a : AppResponse} {u : UpdateResponse} (pings : r.Pings id (.ok a))
      (check : a.updateCheck = some u) (notOk : u.status ≠ .ok) (notNone : u.status ≠ .noUpdate) :
      Checks r id (.ok (.declined u.status))

variable {r : Response} {id : String} {a : AppResponse}

theorem find?_eq_some_iff : r.apps.find? (·.id = id) = some a ↔ r.IsFirst id a := by
  rw [List.find?_eq_some_iff_append, IsFirst, decide_eq_true_iff]
  simp

theorem find?_eq_none_iff : r.apps.find? (·.id = id) = none ↔ ∀ a ∈ r.apps, a.id ≠ id := by
  simp

theorem accepted_of_missing (h : ∀ a ∈ r.apps, a.id ≠ id) :
    r.accepted id = .error (.invalidResponse ("app " ++ id ++ " missing from response")) := by
  rw [accepted, find?_eq_none_iff.2 h]

theorem accepted_of_isFirst (h : r.IsFirst id a) :
    r.accepted id = if a.status.isOk then .ok a else .error (.appStatus a.status) := by
  rw [accepted, find?_eq_some_iff.2 h]

theorem screens_accepted (r : Response) (id : String) : r.Screens id (r.accepted id) := by
  cases hfind : r.apps.find? (·.id = id) with
  | none =>
    have habsent := find?_eq_none_iff.1 hfind
    rw [accepted_of_missing habsent]
    exact .missing habsent
  | some a =>
    have hfirst := find?_eq_some_iff.1 hfind
    rw [accepted_of_isFirst hfirst]
    split
    next hok => exact .accepted hfirst (AppStatus.isOk_iff.1 hok)
    next hok => exact .rejected hfirst (hok ∘ AppStatus.isOk_iff.2)

theorem Screens.accepted_eq {v : Except Failure AppResponse} (h : r.Screens id v) :
    r.accepted id = v := by
  cases h with
  | missing absent => exact accepted_of_missing absent
  | rejected first status =>
    rw [accepted_of_isFirst first, if_neg (status ∘ AppStatus.isOk_iff.1)]
  | accepted first status => rw [accepted_of_isFirst first, if_pos (AppStatus.isOk_iff.2 status)]

def pinged (r : Response) (id : String) : Except Failure AppResponse :=
  (r.accepted id).bind fun a => a.pingAccepted.map fun _ => a

theorem pinged_of_accepted (h : r.accepted id = .ok a) :
    r.pinged id = a.pingAccepted.map fun _ => a := by
  rw [pinged, h]
  rfl

theorem pings_pinged (r : Response) (id : String) : r.Pings id (r.pinged id) := by
  have hscreens := screens_accepted r id
  cases haccepted : r.accepted id with
  | error cause =>
    rw [haccepted] at hscreens
    rw [pinged, haccepted]
    exact .screened hscreens
  | ok a =>
    rw [haccepted] at hscreens
    rw [pinged_of_accepted haccepted]
    cases hping : a.ping with
    | none =>
      rw [AppResponse.pingAccepted_of_none hping]
      exact .missing hscreens hping
    | some k =>
      by_cases hk : k.status = "ok"
      · rw [AppResponse.pingAccepted_of_ok hping hk]
        exact .accepted hscreens hping hk
      · rw [AppResponse.pingAccepted_of_refused hping hk]
        exact .refused hscreens hping hk

theorem Pings.pinged_eq {v : Except Failure AppResponse} (h : r.Pings id v) :
    r.pinged id = v := by
  cases h with
  | screened screens =>
    rw [pinged, screens.accepted_eq]
    rfl
  | missing screens ping =>
    rw [pinged_of_accepted screens.accepted_eq, AppResponse.pingAccepted_of_none ping]
    rfl
  | refused screens ping status =>
    rw [pinged_of_accepted screens.accepted_eq, AppResponse.pingAccepted_of_refused ping status]
    rfl
  | accepted screens ping status =>
    rw [pinged_of_accepted screens.accepted_eq, AppResponse.pingAccepted_of_ok ping status]
    rfl

theorem pinged_eq_ok (h : r.pinged id = .ok a) :
    r.accepted id = .ok a ∧ a.pingAccepted = .ok () := by
  obtain ⟨b, haccepted, hpinged⟩ := ok_of_bind h
  obtain ⟨_, hping, rfl⟩ := ok_of_map hpinged
  exact ⟨haccepted, hping⟩

theorem bind_pingAccepted_eq (r : Response) (id : String) :
    (r.accepted id).bind AppResponse.pingAccepted = (r.pinged id).map fun _ => () := by
  cases haccepted : r.accepted id with
  | error cause =>
    rw [pinged, haccepted]
    rfl
  | ok a =>
    rw [pinged_of_accepted haccepted]
    change a.pingAccepted = (a.pingAccepted.map fun _ => a).map fun _ => ()
    cases a.pingAccepted <;> rfl

theorem bind_checkResult_of_unpinged {cause : Failure} (h : r.pinged id = .error cause) :
    (r.accepted id).bind AppResponse.checkResult = .error cause := by
  cases haccepted : r.accepted id with
  | error other =>
    rw [pinged, haccepted] at h
    cases h
    rfl
  | ok a =>
    rw [pinged_of_accepted haccepted] at h
    refine AppResponse.checkResult_of_error ?_
    cases hping : a.pingAccepted with
    | error other =>
      rw [hping] at h
      cases h
      rfl
    | ok _ =>
      rw [hping] at h
      cases h

theorem bind_checkResult_of_pinged (h : r.pinged id = .ok a) :
    (r.accepted id).bind AppResponse.checkResult = a.checkResult := by
  rw [(pinged_eq_ok h).1]
  rfl

theorem checks_bind (r : Response) (id : String) :
    r.Checks id ((r.accepted id).bind AppResponse.checkResult) := by
  have hpings := pings_pinged r id
  cases hpinged : r.pinged id with
  | error cause =>
    rw [hpinged] at hpings
    rw [bind_checkResult_of_unpinged hpinged]
    exact .unpinged hpings
  | ok a =>
    rw [hpinged] at hpings
    rw [bind_checkResult_of_pinged hpinged]
    have hping := (pinged_eq_ok hpinged).2
    cases hcheck : a.updateCheck with
    | none =>
      rw [AppResponse.checkResult_of_none hping hcheck]
      exact .missing hpings hcheck
    | some u =>
      by_cases hok : u.status = .ok
      · rw [AppResponse.checkResult_of_ok hping hcheck hok]
        exact .available hpings hcheck hok
      · by_cases hnone : u.status = .noUpdate
        · rw [AppResponse.checkResult_of_noUpdate hping hcheck hnone]
          exact .noUpdate hpings hcheck hnone
        · rw [AppResponse.checkResult_of_declined hping hcheck hok hnone]
          exact .declined hpings hcheck hok hnone

theorem Checks.bind_eq {v : Except Failure CheckResult} (h : r.Checks id v) :
    (r.accepted id).bind AppResponse.checkResult = v := by
  cases h with
  | unpinged pings => exact bind_checkResult_of_unpinged pings.pinged_eq
  | missing pings check =>
    rw [bind_checkResult_of_pinged pings.pinged_eq]
    exact AppResponse.checkResult_of_none (pinged_eq_ok pings.pinged_eq).2 check
  | available pings check status =>
    rw [bind_checkResult_of_pinged pings.pinged_eq]
    exact AppResponse.checkResult_of_ok (pinged_eq_ok pings.pinged_eq).2 check status
  | noUpdate pings check status =>
    rw [bind_checkResult_of_pinged pings.pinged_eq]
    exact AppResponse.checkResult_of_noUpdate (pinged_eq_ok pings.pinged_eq).2 check status
  | declined pings check notOk notNone =>
    rw [bind_checkResult_of_pinged pings.pinged_eq]
    exact AppResponse.checkResult_of_declined (pinged_eq_ok pings.pinged_eq).2 check notOk notNone

end Response

namespace Question

structure Screened (q : Question) (r : Response) : Prop where
  check : ∀ v, q.judge AppResponse.checkResult (.ok r) = v ↔ r.Checks q.appId v
  pingFails : ∀ cause,
    q.judge AppResponse.pingAccepted (.ok r) = .error cause ↔ r.Pings q.appId (.error cause)
  pingHolds : q.judge AppResponse.pingAccepted (.ok r) = .ok () ↔ ∃ a, r.Pings q.appId (.ok a)
  alone : ∀ (r' : Response) (a : AppResponse), r.IsFirst q.appId a → r'.IsFirst q.appId a →
    q.judge AppResponse.checkResult (.ok r) = q.judge AppResponse.checkResult (.ok r') ∧
      q.judge AppResponse.pingAccepted (.ok r) = q.judge AppResponse.pingAccepted (.ok r')

variable {α : Type}

theorem judge_ok (q : Question) (take : AppResponse → Except Failure α) (r : Response) :
    q.judge take (.ok r) = (r.accepted q.appId).bind take := rfl

theorem judge_ping (q : Question) (r : Response) :
    q.judge AppResponse.pingAccepted (.ok r) = (r.pinged q.appId).map fun _ => () := by
  rw [judge_ok, Response.bind_pingAccepted_eq]

theorem judge_congr {q : Question} (take : AppResponse → Except Failure α) {r r' : Response}
    {a : AppResponse} (h : r.IsFirst q.appId a) (h' : r'.IsFirst q.appId a) :
    q.judge take (.ok r) = q.judge take (.ok r') := by
  rw [judge_ok, judge_ok, Response.accepted_of_isFirst h, Response.accepted_of_isFirst h']

theorem send_eq_judge [Idna] {m : Type → Type} [Monad m] [LawfulMonad m] (net : Network m)
    (take : AppResponse → Except Failure α) (q : Question) :
    q.send net take = q.judge take <$> net.send q.network q.url q.request := by
  rw [send, map_eq_pure_bind]

theorem screened (q : Question) (r : Response) : q.Screened r where
  check v := by
    rw [judge_ok]
    exact ⟨fun h => h ▸ r.checks_bind q.appId, Response.Checks.bind_eq⟩
  pingFails cause := by
    rw [judge_ping]
    constructor
    · intro h
      have hpings := r.pings_pinged q.appId
      cases hpinged : r.pinged q.appId with
      | error other =>
        rw [hpinged] at h hpings
        cases h
        exact hpings
      | ok a =>
        rw [hpinged] at h
        cases h
    · intro h
      rw [h.pinged_eq]
      rfl
  pingHolds := by
    rw [judge_ping]
    constructor
    · intro h
      obtain ⟨a, hpinged, -⟩ := ok_of_map h
      exact ⟨a, hpinged ▸ r.pings_pinged q.appId⟩
    · rintro ⟨a, h⟩
      rw [h.pinged_eq]
      rfl
  alone _ _ h h' := ⟨judge_congr _ h h', judge_congr _ h h'⟩

theorem answers_screened [Idna] {m : Type → Type} [Monad m] [LawfulMonad m] (net : Network m)
    (q : Question) :
    q.sendUpdateCheck net =
        q.judge AppResponse.checkResult <$> net.send q.network q.url q.request ∧
      q.sendPing net = q.judge AppResponse.pingAccepted <$> net.send q.network q.url q.request ∧
      ∀ r, q.Screened r :=
  ⟨send_eq_judge net _ q, send_eq_judge net _ q, q.screened⟩

theorem answers_screened_crowd :
    let net : Network Id := ⟨fun _ => .error .refused, fun _ => ()⟩
    let q : Question := ⟨"", {}, { Request.new with apps := [{ id := "a" }] }⟩
    let a : AppResponse := { id := "a", status := .ok, ping := some .ok, updateCheck := some {} }
    let alone : Response := { apps := [a] }
    let crowd : Response :=
      { server := some "s", apps := [{ id := "b" }, a, { id := "a", status := .restricted }] }
    q.sendPing net = q.judge AppResponse.pingAccepted (net.send q.network q.url q.request) ∧
      q.judge AppResponse.checkResult (.ok alone) = .ok .noUpdate ∧
      q.judge AppResponse.checkResult (.ok crowd) = .ok .noUpdate := by
  intro net q a alone crowd
  have halone : alone.IsFirst q.appId a := ⟨rfl, [], [], rfl, List.forall_mem_nil _⟩
  have hcrowd : crowd.IsFirst q.appId a :=
    ⟨rfl, [{ id := "b" }], [{ id := "a", status := .restricted }], rfl,
      List.forall_mem_singleton.2 (by decide)⟩
  obtain ⟨-, hping, hscreened⟩ := answers_screened net q
  have hcheck : q.judge AppResponse.checkResult (.ok alone) = .ok .noUpdate :=
    ((hscreened alone).check _).2 (.noUpdate (.accepted (.accepted halone rfl) rfl rfl) rfl rfl)
  exact ⟨hping, hcheck, ((hscreened crowd).alone alone a hcrowd halone).1.trans hcheck⟩

end Question

end UpdateProtocol
