import UpdateProtocol.Client.App
import UpdateProtocol.Client.ServerUrl
import UpdateProtocol.Machine
import UpdateProtocol.Settings
import UpdateProtocol.Time.Jitter

namespace UpdateProtocol

structure Session where
  userId : String
  sessionId : String
  isMachine : Bool
  network : NetworkSettings
  schedule : ScheduleSettings
  deriving DecidableEq, Repr, Inhabited

structure Handle where
  place : Nat
  deriving DecidableEq, Repr, Inhabited

structure Client where
  session : Session
  serverUrl : String
  version : String
  hasPinged : Bool := false
  apps : List App := []
  registry : List (String × Handle) := []
  deriving DecidableEq, Repr, Inhabited

namespace Client

variable [Idna]

def start (url version : String) (session : Session) : Except Failure Client := do
  let serverUrl ← ServerUrl.normalize url
  pure { session, serverUrl, version }

def forUser (url userId sessionId : String) (settings : Settings) : Except Failure Client :=
  if userId = "" then .error (.config "empty user identifier")
  else start url settings.clientVersion
    { userId, sessionId, isMachine := false
      network := settings.network, schedule := settings.schedule }

def forMachine (url : String) (identity : MachineIdentity) (settings : Settings) :
    Except Failure Client :=
  start url settings.clientVersion
    { userId := identity.machineId, sessionId := identity.bootId, isMachine := true
      network := settings.network, schedule := settings.schedule }

def setServerUrl (c : Client) (url : String) : Except Failure Client := do
  let serverUrl ← ServerUrl.normalize url
  pure { c with serverUrl }

def setVersion (c : Client) (version : String) : Client := { c with version }

def app? (c : Client) (h : Handle) : Option App := c.apps[h.place]?

def handle? (c : Client) (id : String) : Option Handle := c.registry.lookup id

def newApp (c : Client) (id version : String) : Except Failure (Client × Handle) :=
  if (c.handle? id).isSome then .error (.config ("duplicate app client " ++ Text.quoted id))
  else if version = "" then .error (.config "empty application version")
  else
    let h : Handle := ⟨c.apps.length⟩
    .ok ({ c with apps := c.apps ++ [{ id, version }], registry := (id, h) :: c.registry }, h)

def rename (c : Client) (id newId : String) : Except Failure Client :=
  if id = newId then .ok c
  else if (c.handle? newId).isSome then .error (.config ("duplicate app " ++ Text.quoted newId))
  else match c.handle? id with
    | none => .error (.config ("missing app client " ++ Text.quoted id))
    | some h =>
        .ok { c with
          apps := c.apps.modify h.place fun a => { a with id := newId }
          registry := (newId, h) :: c.registry.filter (·.1 ≠ id) }

def change (c : Client) (h : Handle) (f : App → Except Failure App) : Except Failure Client :=
  match c.app? h with
  | none => .ok c
  | some a => match f a with
    | .error cause => .error cause
    | .ok a => .ok { c with apps := c.apps.set h.place a }

def describe (c : Client) (a : App) : String :=
  "AppClient \x7b app_id: " ++ Text.quoted a.id ++ ", version: " ++ Text.quoted a.version ++
    ", endpoint: " ++ Text.quoted c.serverUrl ++ ", .. \x7d"

def pingDelay (c : Client) : Duration :=
  if c.hasPinged then c.session.schedule.interval else c.session.schedule.first

def nextPing (c : Client) (offset : Nat) : Duration :=
  Jitter.shift c.pingDelay c.session.schedule.fuzz offset

end Client

end UpdateProtocol
