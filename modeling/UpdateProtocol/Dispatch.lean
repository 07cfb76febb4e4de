import UpdateProtocol.Response

namespace UpdateProtocol

structure Update where
  urls : List DownloadUrl := []
  manifest : Manifest
  deriving DecidableEq, Repr, Inhabited

structure Updater (m : Type → Type) where
  checkApp : Request → AppRequest → m (Except AppStatus Unit)
  checkUpdate : Request → AppRequest → m (Except UpdateStatus Update)
  event : Request → AppRequest → Event → m Unit
  ping : Request → AppRequest → m Unit

def Updater.stub {m : Type → Type} [Monad m] : Updater m where
  checkApp _ _ := pure (.ok ())
  checkUpdate _ _ := pure (.error .noUpdate)
  event _ _ _ := pure ()
  ping _ _ := pure ()

namespace UpdateResponse

def ofDecision : Except UpdateStatus Update → UpdateResponse
  | .ok update => { status := .ok, urls := update.urls, manifest := some update.manifest }
  | .error status => { status := status.refusal }

end UpdateResponse

namespace Updater

variable {m : Type → Type} [Monad m]

def answerUpdateCheck (u : Updater m) (r : Request) (a : AppRequest) :
    m (Option UpdateResponse) :=
  match a.updateCheck with
  | none => pure none
  | some _ => do
      let decision ← u.checkUpdate r a
      pure (some (.ofDecision decision))

def answerEvents (u : Updater m) (r : Request) (a : AppRequest) :
    List Event → m (List Acknowledgement)
  | [] => pure []
  | e :: rest => do
      u.event r a e
      let more ← answerEvents u r a rest
      pure (.ok :: more)

def answerPing (u : Updater m) (r : Request) (a : AppRequest) : m (Option Acknowledgement) :=
  match a.ping with
  | none => pure none
  | some _ => do
      u.ping r a
      pure (some .ok)

def answerApp (u : Updater m) (r : Request) (a : AppRequest) : m AppResponse := do
  match ← u.checkApp r a with
  | .error status => pure { id := a.id, status := status.refusal }
  | .ok () => do
      let updateCheck ← u.answerUpdateCheck r a
      let events ← u.answerEvents r a a.events
      let ping ← u.answerPing r a
      pure { id := a.id, status := .ok, ping, updateCheck, events }

def answerApps (u : Updater m) (r : Request) : List AppRequest → m (List AppResponse)
  | [] => pure []
  | a :: rest => do
      let first ← u.answerApp r a
      let more ← answerApps u r rest
      pure (first :: more)

def respond (u : Updater m) (r : Request) : m Response := do
  let apps ← u.answerApps r r.apps
  pure { Response.new with apps }

end Updater

inductive Call where
  | checkApp (app : AppRequest)
  | checkUpdate (app : AppRequest)
  | event (app : AppRequest) (event : Event)
  | ping (app : AppRequest)
  deriving DecidableEq, Repr

def Updater.traced {m : Type → Type} [Monad m] (u : Updater m) :
    Updater (StateT (List Call) m) where
  checkApp r a := do
    modify (· ++ [.checkApp a])
    u.checkApp r a
  checkUpdate r a := do
    modify (· ++ [.checkUpdate a])
    u.checkUpdate r a
  event r a e := do
    modify (· ++ [.event a e])
    u.event r a e
  ping r a := do
    modify (· ++ [.ping a])
    u.ping r a

end UpdateProtocol
