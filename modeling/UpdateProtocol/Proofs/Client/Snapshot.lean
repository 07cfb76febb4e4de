import UpdateProtocol.Proofs.Client.History
import UpdateProtocol.Proofs.Exchange.Sending

namespace UpdateProtocol

/-- A session id that was made for the run prints as a UUID. -/
def Origin.PrintsSession : Origin → Prop
  | .user _ _ sessionId _ => sessionId.utf8ByteSize = 36
  | .machine .. => True

namespace Inquiry

def pings : Inquiry → Bool
  | updateCheck | ping => true
  | request | event _ => false

def checksUpdate : Inquiry → Bool
  | updateCheck => true
  | request | ping | event _ => false

def events : Inquiry → List Event
  | event e => [e]
  | request | updateCheck | ping => []

def sections (inquiry : Inquiry) (app : AppRequest) : AppRequest :=
  { app with
    ping := if inquiry.pings then some {} else none
    updateCheck := if inquiry.checksUpdate then some {} else none
    events := inquiry.events }

end Inquiry

structure Snapshot (o : Origin) (c : Client) (h : Handle) (inquiry : Inquiry) (r : Request)
    (app : AppRequest) : Prop where
  protocol : r.protocol = "3.0"
  single : r.apps = [app]
  registered : c.access? (.id app.id) = some h
  current : ∃ version, version ≠ "" ∧ app.version = some version ∧
    c.app? h = some ⟨app.id, version, app.track, app.oem⟩
  track : app.track ≠ some ""
  user : ∃ userId, userId ≠ "" ∧ r.userId = some userId ∧ app.machineId = some userId
  session : ∃ sessionId, 36 ≤ sessionId.utf8ByteSize ∧ r.sessionId = some sessionId ∧
    app.bootId = some sessionId
  isMachine : r.isMachine = o.isMachine
  ping : app.ping = if inquiry.pings then some {} else none
  updateCheck : app.updateCheck = if inquiry.checksUpdate then some {} else none
  events : app.events = inquiry.events

namespace Client

variable {c d : Client} {o : Origin}

structure Opened (o : Origin) (s : Session) : Prop where
  userId : s.userId ≠ ""
  sessionId : 36 ≤ s.sessionId.utf8ByteSize
  isMachine : s.isMachine = o.isMachine

theorem opened_of_start [Idna] (hstart : o.client = .ok c) (hsession : o.PrintsSession) :
    Opened o c.session := by
  cases o with
  | user url userId sessionId settings =>
    obtain ⟨hne, hstarted⟩ := forUser_eq_ok hstart
    obtain ⟨serverUrl, -, rfl⟩ := start_eq_ok hstarted
    exact ⟨hne, Nat.le_of_eq (Eq.symm hsession), rfl⟩
  | machine url identity settings =>
    obtain ⟨serverUrl, -, rfl⟩ := start_eq_ok hstart
    refine ⟨?_, identity.bootId_long, rfl⟩
    intro hempty
    have hlong := identity.machineId_long
    change identity.machineId = "" at hempty
    rw [hempty] at hlong
    exact absurd hlong (by decide)

structure Reached (o : Origin) (c : Client) : Prop where
  consistent : c.Consistent
  sound : c.Sound
  opened : Opened o c.session

theorem reached_after [Idna] (hstart : o.client = .ok c) (hsession : o.PrintsSession)
    (ops : List Operation) : Reached o (c.after ops) := by
  obtain ⟨hc, happs⟩ := consistent_of_start hstart
  have hsound : c.Sound := by
    intro h a ha
    rw [app?, happs] at ha
    cases ha
  refine ⟨consistent_after hc ops, sound_after hc hsound ops, ?_⟩
  rw [session_after]
  exact opened_of_start hstart hsession

theorem perform_ask [Idna] {access : Access} {h : Handle} {a : App}
    (haccess : c.access? access = some h)
    (ha : c.app? h = some a) (inquiry : Inquiry) :
    c.perform (.ask access inquiry) = c.inquire a inquiry := by
  rw [perform, haccess, Option.bind_some, ha]

theorem answer_ask_handle [Idna] (c : Client) (h : Handle) (inquiry : Inquiry) :
    (c.perform (.ask (.handle h) inquiry)).2 =
      ((c.app? h).map fun a => (c.inquire a inquiry).2).getD .missing := by
  rw [perform, access?]
  cases ha : c.app? h with
  | none => rfl
  | some a =>
    rw [Option.isSome_some, if_pos rfl, Option.bind_some, ha]
    rfl

theorem request?_inquire (c : Client) (a : App) (inquiry : Inquiry) :
    (c.inquire a inquiry).2.request? = some (c.request a inquiry.sections) := by
  cases inquiry <;> rfl

theorem Reached.snapshot (hc : Reached o c) {h : Handle} {a : App} (ha : c.app? h = some a)
    (inquiry : Inquiry) :
    ∃ app, Snapshot o c h inquiry (c.request a inquiry.sections) app := by
  obtain ⟨hversion, htrack⟩ := hc.sound h a ha
  exact ⟨_, {
    protocol := rfl
    single := rfl
    registered := hc.consistent.handle?_eq_some_iff.2 (by rw [id?, ha]; rfl)
    current := ⟨a.version, hversion, rfl, ha⟩
    track := htrack
    user := ⟨c.session.userId, hc.opened.userId, rfl, rfl⟩
    session := ⟨c.session.sessionId, hc.opened.sessionId, rfl, rfl⟩
    isMachine := hc.opened.isMachine
    ping := rfl
    updateCheck := rfl
    events := rfl }⟩

theorem inquire_congr (h : c.identity = d.identity) (a : App) (inquiry : Inquiry) :
    (c.inquire a inquiry).2 = (d.inquire a inquiry).2 := by
  simp only [identity, Prod.mk.injEq] at h
  obtain ⟨hsession, hurl, hversion⟩ := h
  cases inquiry <;>
    simp [inquire, newRequest, askUpdateCheck, askPing, askPinging, askEvent, question, request,
      hsession, hurl, hversion]

end Client

structure Meanwhile (σ : Type) where
  client : Client
  posts : List Post := []
  network : σ

variable {σ : Type}

def Network.busy [Idna] (net : Network (StateM σ)) (further : Meanwhile σ → List Operation) :
    Network (StateM (Meanwhile σ)) where
  exchange p := do
    let w ← get
    let (reply, network) := (net.exchange p).run w.network
    set { client := w.client.after (further w), posts := w.posts ++ [p], network : Meanwhile σ }
    pure reply
  pause p := modify fun w =>
    { w with
      client := w.client.after (further w)
      network := ((net.pause p).run w.network).2 }

structure Meanwhile.Beside (made : List Post → Prop) (w : Meanwhile σ) (s : σ) : Prop where
  network : w.network = s
  posts : made w.posts

namespace Question

variable {q : Question} {net : Network (StateM σ)} {further : Meanwhile σ → List Operation}
  {w : Meanwhile σ}

structure Keeps [Idna] (q : Question) (net : Network (StateM σ))
    (further : Meanwhile σ → List Operation) (w : Meanwhile σ) : Prop where
  verdict : ((q.sendEvent (net.busy further)).run w).1 = ((q.sendEvent net).run w.network).1
  posted : ∀ url, Url.target q.url = .ok url →
    ∃ n, ((q.sendEvent (net.busy further)).run w).2.posts = List.replicate (n + 1) (q.post url)
  unposted : ∀ fault, Url.target q.url = .error fault →
    ((q.sendEvent (net.busy further)).run w).2.posts = []

def attempt [Idna] (q : Question) {τ : Type} (net : Network (StateM τ)) :
    StateM τ (Except Failure Response) :=
  net.post q.network q.url q.request.encode

theorem sendEvent_beside [Idna] {before after : List Post → Prop}
    (hafter : ∀ posts, after posts → before posts)
    (hattempt : ∀ w s, Meanwhile.Beside before w s →
      ((q.attempt (net.busy further)).run w).1 = ((q.attempt net).run s).1 ∧
        Meanwhile.Beside after ((q.attempt (net.busy further)).run w).2
          ((q.attempt net).run s).2)
    (hstart : before w.posts) :
    ((q.sendEvent (net.busy further)).run w).1 = ((q.sendEvent net).run w.network).1 ∧
      after ((q.sendEvent (net.busy further)).run w).2.posts := by
  have hpause (p : Pause) (w : Meanwhile σ) (s : σ) (h : Meanwhile.Beside after w s) :
      Meanwhile.Beside before (((net.busy further).pause p).run w).2 ((net.pause p).run s).2 := by
    obtain ⟨rfl, hmade⟩ := h
    exact ⟨rfl, hafter _ hmade⟩
  obtain ⟨hverdict, -, hmade⟩ := Retry.loop_related hattempt hpause (q.network.tries.toNat - 1)
    q.network.backoff ⟨rfl, hstart⟩
  exact ⟨congrArg (q.judge AppResponse.eventAccepted) hverdict, hmade⟩

theorem attempt_of_unusable [Idna] {fault : TransportFault} (h : Url.target q.url = .error fault)
    (w : Meanwhile σ) (s : σ) (hw : Meanwhile.Beside (· = []) w s) :
    ((q.attempt (net.busy further)).run w).1 = ((q.attempt net).run s).1 ∧
      Meanwhile.Beside (· = []) ((q.attempt (net.busy further)).run w).2
        ((q.attempt net).run s).2 := by
  rw [attempt, attempt, Network.post_of_unusable h, Network.post_of_unusable h]
  exact ⟨rfl, hw⟩

theorem attempt_of_target [Idna] {url : Url} (h : Url.target q.url = .ok url)
    (w : Meanwhile σ) (s : σ)
    (hw : Meanwhile.Beside (fun posts => ∃ n, posts = List.replicate n (q.post url)) w s) :
    ((q.attempt (net.busy further)).run w).1 = ((q.attempt net).run s).1 ∧
      Meanwhile.Beside (fun posts => ∃ n, posts = List.replicate (n + 1) (q.post url))
        ((q.attempt (net.busy further)).run w).2 ((q.attempt net).run s).2 := by
  obtain ⟨rfl, n, hn⟩ := hw
  rw [attempt, attempt, Network.post_of_target h, Network.post_of_target h]
  refine ⟨rfl, rfl, n, ?_⟩
  rw [List.replicate_succ', ← hn]
  rfl

theorem keeps [Idna] (hposts : w.posts = []) : q.Keeps net further w := by
  cases htarget : Url.target q.url with
  | error fault =>
    obtain ⟨hverdict, hnone⟩ :=
      sendEvent_beside (fun _ => id) (q.attempt_of_unusable htarget) hposts
    refine ⟨hverdict, ?_, fun _ _ => hnone⟩
    rw [htarget]
    rintro url ⟨⟩
  | ok url =>
    obtain ⟨hverdict, hcount⟩ := sendEvent_beside (fun _ ⟨n, hn⟩ => ⟨n + 1, hn⟩)
      (q.attempt_of_target htarget) ⟨0, hposts⟩
    refine ⟨hverdict, ?_, ?_⟩
    · intro url' hurl'
      obtain rfl := Except.ok.inj (htarget.symm.trans hurl')
      exact hcount
    · rw [htarget]
      rintro fault ⟨⟩

end Question

namespace Client

variable {c : Client} {o : Origin}

theorem asks_snapshot [Idna] (hstart : o.client = .ok c) (hsession : o.PrintsSession)
    (ops : List Operation) :
    (∀ access inquiry,
      (∀ h, (c.after ops).access? access = some h →
        ∃ r, ((c.after ops).perform (.ask access inquiry)).2.request? = some r) ∧
      ∀ r, ((c.after ops).perform (.ask access inquiry)).2.request? = some r →
        ∃ h app, (c.after ops).access? access = some h ∧
          Snapshot o (c.after ops) h inquiry r app) ∧
    (∀ ops' h h' inquiry, c.history ops h = c.history ops' h' →
      ops.filter Operation.isOnClient = ops'.filter Operation.isOnClient →
      ((c.after ops).perform (.ask (.handle h) inquiry)).2 =
        ((c.after ops').perform (.ask (.handle h') inquiry)).2) ∧
    ∀ access e q, ((c.after ops).perform (.ask access (.event e))).2 = .question q →
      q.url = (c.after ops).serverUrl ∧
        ∀ (σ : Type) (net : Network (StateM σ)) (further : Meanwhile σ → List Operation)
          (w : Meanwhile σ), w.posts = [] → q.Keeps net further w := by
  have hreached := reached_after hstart hsession ops
  refine ⟨?snapshot, ?own, ?event⟩
  case snapshot =>
    intro access inquiry
    refine ⟨?_, ?_⟩
    · intro h haccess
      obtain ⟨a, ha⟩ := app?_of_access? hreached.consistent haccess
      exact ⟨_, by rw [perform_ask haccess ha, request?_inquire]⟩
    · intro r hr
      cases haccess : (c.after ops).access? access with
      | none =>
        rw [perform, haccess] at hr
        cases hr
      | some h =>
        obtain ⟨a, ha⟩ := app?_of_access? hreached.consistent haccess
        rw [perform_ask haccess ha, request?_inquire] at hr
        cases hr
        obtain ⟨app, happ⟩ := hreached.snapshot ha inquiry
        exact ⟨h, app, rfl, happ⟩
  case own =>
    intro ops' h h' inquiry hhistory hclient
    obtain ⟨hc, happs⟩ := consistent_of_start hstart
    have hnone (h : Handle) : c.app? h = none := by rw [app?, happs, List.getElem?_nil]
    have happ : (c.after ops).app? h = (c.after ops').app? h' := by
      rw [app?_after hc, app?_after hc, hnone, hnone, hhistory]
    have hidentity : (c.after ops).identity = (c.after ops').identity := by
      rw [identity_after (rfl : c.identity = _), hclient, ← identity_after rfl]
    rw [answer_ask_handle, answer_ask_handle, happ]
    cases (c.after ops').app? h' with
    | none => rfl
    | some a => exact inquire_congr hidentity a inquiry
  case event =>
    intro access e q hq
    refine ⟨?_, fun σ net further w hposts => q.keeps hposts⟩
    rw [perform] at hq
    split at hq <;> cases hq
    rfl

def ownErrands : List Operation :=
  [.newApp "a" "1", .rename "a" "c", .set (.handle ⟨0⟩) (.track "beta")]

def silent : Network (StateM Unit) where
  exchange _ := pure (.error .timedOut)
  pause _ := pure ()

theorem asks_snapshot_errands :
    let c := laptop.after errands
    let further (_ : Meanwhile Unit) : List Operation :=
      [.rename "c" "d", .setServerUrl "http://elsewhere"]
    Origin.laptop.client = .ok laptop ∧ Origin.laptop.PrintsSession ∧
      c.app? ⟨0⟩ = some { id := "c", version := "1", track := some "beta" } ∧
      (c.perform (.ask (.handle ⟨0⟩) .updateCheck)).2 =
        ((laptop.after ownErrands).perform (.ask (.handle ⟨0⟩) .updateCheck)).2 ∧
      ∃ r h app q, Snapshot Origin.laptop c h .updateCheck r app ∧
        (c.perform (.ask (.id "c") (.event .complete))).2 = .question q ∧
        q.url = "http://localhost:8000/v1/update/" ∧
        q.Keeps silent further { client := c, network := () } := by
  intro c further
  have hstart : Origin.laptop.client = .ok laptop := rfl
  have hsession : Origin.laptop.PrintsSession := rfl
  obtain ⟨hsnapshot, hown, hevent⟩ := asks_snapshot hstart hsession errands
  have happ : c.access? (.id "c") = some ⟨0⟩ := by decide +kernel
  obtain ⟨r, hr⟩ := (hsnapshot (.id "c") .updateCheck).1 _ happ
  obtain ⟨h, app, -, hshot⟩ := (hsnapshot (.id "c") .updateCheck).2 r hr
  refine ⟨hstart, hsession, by decide +kernel, ?_, r, h, app, ?_⟩
  · exact hown ownErrands ⟨0⟩ ⟨0⟩ .updateCheck (by decide +kernel) rfl
  · obtain ⟨q, hq⟩ : ∃ q, (c.perform (.ask (.id "c") (.event .complete))).2 = .question q := ⟨_, rfl⟩
    obtain ⟨hurl, hkeeps⟩ := hevent (.id "c") .complete q hq
    refine ⟨q, hshot, hq, hurl.trans ?_, hkeeps Unit silent further _ rfl⟩
    decide +kernel

end Client

end UpdateProtocol
