import UpdateProtocol.Dispatch

namespace UpdateProtocol

structure Decision where
  app : AppRequest
  verdict : Except AppStatus (Option (Except UpdateStatus Update))

def Decision.answer (d : Decision) : AppResponse :=
  match d.verdict with
  | .error status => { id := d.app.id, status := status.refusal }
  | .ok update =>
      { id := d.app.id
        status := .ok
        ping := d.app.ping.map fun _ => .ok
        updateCheck := update.map .ofDecision
        events := d.app.events.map fun _ => .ok }

@[simp]
theorem Decision.answer_id (d : Decision) : d.answer.id = d.app.id := by
  unfold answer
  split <;> rfl

namespace Updater

variable {m : Type → Type} [Monad m]

def decideUpdate (u : Updater m) (r : Request) (a : AppRequest) :
    m (Option (Except UpdateStatus Update)) :=
  match a.updateCheck with
  | none => pure none
  | some _ => some <$> u.checkUpdate r a

def decide (u : Updater m) (r : Request) (a : AppRequest) : m Decision := do
  match ← u.checkApp r a with
  | .error status => pure ⟨a, .error status⟩
  | .ok () => do
      let update ← u.decideUpdate r a
      a.events.forM (u.event r a)
      a.ping.forM fun _ => u.ping r a
      pure ⟨a, .ok update⟩

variable [LawfulMonad m] (u : Updater m) (r : Request) (a : AppRequest)

theorem answerUpdateCheck_eq :
    u.answerUpdateCheck r a = Option.map .ofDecision <$> u.decideUpdate r a := by
  rw [answerUpdateCheck, decideUpdate]
  cases a.updateCheck <;> simp

theorem answerEvents_eq (events : List Event) :
    u.answerEvents r a events =
      (fun _ => events.map fun _ => .ok) <$> events.forM (u.event r a) := by
  induction events with
  | nil => simp [answerEvents]
  | cons e rest ih => simp [answerEvents, ih]

theorem answerPing_eq :
    u.answerPing r a =
      (fun _ => a.ping.map fun _ => .ok) <$> a.ping.forM fun _ => u.ping r a := by
  rw [answerPing]
  cases a.ping <;> simp [Option.forM]

theorem answerApp_eq : u.answerApp r a = Decision.answer <$> u.decide r a := by
  rw [answerApp, decide, map_bind]
  congr 1
  funext outcome
  cases outcome with
  | error status => simp [Decision.answer]
  | ok _ =>
    simp [answerUpdateCheck_eq, answerEvents_eq, answerPing_eq, Decision.answer]

theorem answerApps_eq (apps : List AppRequest) :
    u.answerApps r apps = List.map Decision.answer <$> apps.mapM (u.decide r) := by
  induction apps with
  | nil => simp [answerApps]
  | cons a rest ih => simp [answerApps, answerApp_eq, ih]

theorem respond_eq :
    u.respond r =
      (fun decisions => { Response.new with apps := decisions.map Decision.answer }) <$>
        r.apps.mapM (u.decide r) := by
  simp [respond, answerApps_eq]

end Updater

section Stateful

variable {σ : Type}

theorem run_bind_of_run {α β : Type} {x : StateM σ α} {f : α → StateM σ β} {s s' : σ} {v : α}
    (h : x.run s = (v, s')) : (x >>= f).run s = (f v).run s' := by
  rw [StateT.run_bind, h]
  rfl

theorem run_map_of_run {α β : Type} {x : StateM σ α} {f : α → β} {s s' : σ} {v : α}
    (h : x.run s = (v, s')) : (f <$> x).run s = (f v, s') := by
  rw [StateT.run_map, h]
  rfl

namespace Updater

variable {u : Updater (StateM σ)} {r : Request} {a : AppRequest}

theorem decide_of_refused {s s' : σ} {status : AppStatus}
    (h : (u.checkApp r a).run s = (.error status, s')) :
    (u.decide r a).run s = (⟨a, .error status⟩, s') := by
  rw [decide, run_bind_of_run h]
  rfl

theorem decide_of_accepted {s s' : σ} (h : (u.checkApp r a).run s = (.ok (), s')) :
    ((u.decide r a).run s).1 = ⟨a, .ok ((u.decideUpdate r a).run s').1⟩ := by
  rw [decide, run_bind_of_run h]
  rfl

theorem decideUpdate_of_asked {s : σ} {check : UpdateRequest} (h : a.updateCheck = some check) :
    ((u.decideUpdate r a).run s).1 = some ((u.checkUpdate r a).run s).1 := by
  rw [decideUpdate, h]
  rfl

theorem decide_app (s : σ) : ((u.decide r a).run s).1.app = a := by
  cases hrun : (u.checkApp r a).run s with
  | mk outcome s' =>
    cases outcome with
    | error status => rw [decide_of_refused hrun]
    | ok _ => rw [decide_of_accepted hrun]

theorem mapM_decide_app (apps : List AppRequest) (s : σ) :
    ((apps.mapM (u.decide r)).run s).1.map Decision.app = apps := by
  induction apps generalizing s with
  | nil => rfl
  | cons a rest ih =>
    cases hfirst : (u.decide r a).run s with
    | mk d s' =>
      have happ : d.app = a := by
        rw [← decide_app (u := u) (r := r) (a := a) s, hfirst]
      cases hrest : (rest.mapM (u.decide r)).run s' with
      | mk ds s'' =>
        have hds : ds.map Decision.app = rest := by
          rw [← ih s', hrest]
        rw [List.mapM_cons, run_bind_of_run hfirst, run_bind_of_run hrest]
        change (d :: ds).map Decision.app = a :: rest
        rw [List.map_cons, happ, hds]

theorem respond_protocol (u : Updater (StateM σ)) (r : Request) (s : σ) :
    ((u.respond r).run s).1.protocol = protocolVersion := by
  rw [respond_eq]
  rfl

theorem respond_apps (u : Updater (StateM σ)) (r : Request) (s : σ) :
    ((u.respond r).run s).1.apps =
      ((r.apps.mapM (u.decide r)).run s).1.map Decision.answer := by
  rw [respond_eq]
  rfl

end Updater

end Stateful

end UpdateProtocol
