import UpdateProtocol.Client.Exchange
import UpdateProtocol.Dispatch

namespace UpdateProtocol

def Failure.ofRefusal : AppStatus → Failure
  | .ok => .appStatus .internalError
  | status => .appStatus status

def CheckResult.ofDecision : Except UpdateStatus Update → CheckResult
  | .ok update =>
      .available { status := .ok, urls := update.urls, manifest := some update.manifest }
  | .error .noUpdate => .noUpdate
  | .error .ok => .declined .internalError
  | .error status => .declined status

namespace Updater

variable {m : Type → Type} [Monad m] {α : Type}

def ifAccepted (u : Updater m) (r : Request) (a : AppRequest) (next : m α) :
    m (Except Failure α) := do
  match ← u.checkApp r a with
  | .error status => pure (.error (.ofRefusal status))
  | .ok () => Except.ok <$> next

def checkVerdict (u : Updater m) (r : Request) (a : AppRequest) :
    m (Except Failure CheckResult) :=
  u.ifAccepted r a do
    let decision ← u.checkUpdate r a
    u.ping r a
    pure (.ofDecision decision)

def pingVerdict (u : Updater m) (r : Request) (a : AppRequest) : m (Except Failure Unit) :=
  u.ifAccepted r a (u.ping r a)

def eventVerdict (u : Updater m) (r : Request) (a : AppRequest) (e : Event) :
    m (Except Failure Unit) :=
  u.ifAccepted r a (u.event r a e)

end Updater

namespace AppResponse

variable {α : Type}

def judged (take : AppResponse → Except Failure α) (a : AppResponse) : Except Failure α :=
  if a.status.isOk then take a else .error (.appStatus a.status)

theorem judged_of_refusal (take : AppResponse → Except Failure α) (id : String) (s : AppStatus) :
    judged take { id, status := s.refusal } = .error (.ofRefusal s) := by
  cases s <;> rfl

theorem checkResult_of_decision (a : AppResponse) (decision : Except UpdateStatus Update) :
    checkResult { a with ping := some .ok, updateCheck := some (.ofDecision decision) } =
      .ok (.ofDecision decision) := by
  cases decision with
  | ok update => rfl
  | error status => cases status <;> rfl

end AppResponse

namespace Updater

variable {m : Type → Type} [Monad m] [LawfulMonad m] {u : Updater m} {r : Request} {a : AppRequest}
  {α : Type}

theorem judged_answerApp {take : AppResponse → Except Failure α} {next : m α}
    (h : (do
      let updateCheck ← u.answerUpdateCheck r a
      let events ← u.answerEvents r a a.events
      let ping ← u.answerPing r a
      pure (take { id := a.id, status := .ok, ping, updateCheck, events })) =
        Except.ok <$> next) :
    AppResponse.judged take <$> u.answerApp r a = u.ifAccepted r a next := by
  rw [answerApp, ifAccepted, map_bind]
  congr 1
  funext decision
  cases decision with
  | error status => simp [AppResponse.judged_of_refusal]
  | ok _ =>
    rw [← h]
    simp [AppResponse.judged, AppStatus.isOk]

theorem judged_updateCheck {check : UpdateRequest} {ping : PingRequest}
    (hcheck : a.updateCheck = some check) (hping : a.ping = some ping) (hevents : a.events = []) :
    AppResponse.judged AppResponse.checkResult <$> u.answerApp r a = u.checkVerdict r a := by
  apply judged_answerApp
  have htake (decision : Except UpdateStatus Update) :=
    AppResponse.checkResult_of_decision { id := a.id, status := .ok } decision
  simp [answerUpdateCheck, answerEvents, answerPing, hcheck, hping, hevents, htake]

theorem judged_ping {ping : PingRequest} (hcheck : a.updateCheck = none)
    (hping : a.ping = some ping) (hevents : a.events = []) :
    AppResponse.judged AppResponse.pingAccepted <$> u.answerApp r a = u.pingVerdict r a := by
  apply judged_answerApp
  simp [answerUpdateCheck, answerEvents, answerPing, hcheck, hping, hevents,
    AppResponse.pingAccepted, Acknowledgement.isOk, Acknowledgement.ok]

theorem judged_event {e : Event} (hcheck : a.updateCheck = none) (hping : a.ping = none)
    (hevents : a.events = [e]) :
    AppResponse.judged AppResponse.eventAccepted <$> u.answerApp r a = u.eventVerdict r a e := by
  apply judged_answerApp
  simp [answerUpdateCheck, answerEvents, answerPing, hcheck, hping, hevents,
    AppResponse.eventAccepted, Acknowledgement.isOk, Acknowledgement.ok]

end Updater

end UpdateProtocol
