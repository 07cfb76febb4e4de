import UpdateProtocol.Client.Registry
import UpdateProtocol.Transport

namespace UpdateProtocol

structure Question where
  url : String
  network : NetworkSettings
  request : Request
  deriving DecidableEq, Repr, Inhabited

inductive CheckResult where
  | available (update : UpdateResponse)
  | noUpdate
  | declined (status : UpdateStatus)
  deriving DecidableEq, Repr

namespace Client

def request (c : Client) (a : App) (sections : AppRequest → AppRequest) : Request :=
  { Request.new with
    version := some c.version
    userId := some c.session.userId
    sessionId := some c.session.sessionId
    isMachine := c.session.isMachine
    apps := [sections
      { id := a.id
        version := some a.version
        track := a.track
        oem := a.oem
        machineId := some c.session.userId
        bootId := some c.session.sessionId }] }

def newRequest (c : Client) (a : App) : Request := c.request a id

def question (c : Client) (a : App) (sections : AppRequest → AppRequest) : Question :=
  ⟨c.serverUrl, c.session.network, c.request a sections⟩

def askPinging (c : Client) (a : App) (sections : AppRequest → AppRequest) : Client × Question :=
  ({ c with hasPinged := true }, c.question a fun app => sections app.addPing)

def askUpdateCheck (c : Client) (a : App) : Client × Question :=
  c.askPinging a AppRequest.addUpdateCheck

def askPing (c : Client) (a : App) : Client × Question := c.askPinging a id

def askEvent (c : Client) (a : App) (e : Event) : Question :=
  c.question a fun app => app.addEvent e

end Client

def Acknowledgement.isOk (k : Acknowledgement) : Bool := k.status = "ok"

def Response.accepted (r : Response) (id : String) : Except Failure AppResponse :=
  match r.apps.find? (·.id = id) with
  | none => .error (.invalidResponse ("app " ++ id ++ " missing from response"))
  | some a => if a.status.isOk then .ok a else .error (.appStatus a.status)

namespace AppResponse

def pingAccepted (a : AppResponse) : Except Failure Unit :=
  match a.ping with
  | none => .error (.invalidResponse "ping status missing from response")
  | some k => if k.isOk then .ok () else .error (.pingStatus k.status)

/-- Only the first acknowledgement counts. -/
def eventAccepted (a : AppResponse) : Except Failure Unit :=
  match a.events.head? with
  | none => .error (.invalidResponse "event status missing from response")
  | some k => if k.isOk then .ok () else .error (.eventStatus k.status)

def checkResult (a : AppResponse) : Except Failure CheckResult := do
  a.pingAccepted
  match a.updateCheck with
  | none => .error (.invalidResponse "update check missing from response")
  | some u => match u.status with
    | .ok => .ok (.available u)
    | .noUpdate => .ok .noUpdate
    | status => .ok (.declined status)

end AppResponse

namespace Question

variable {m : Type → Type} {α : Type} [Monad m] [Idna]

def appId (q : Question) : String := (q.request.apps.head?.map (·.id)).getD ""

def judge (q : Question) (take : AppResponse → Except Failure α)
    (answer : Except Failure Response) : Except Failure α := do
  let response ← answer
  let app ← response.accepted q.appId
  take app

def send (net : Network m) (take : AppResponse → Except Failure α) (q : Question) :
    m (Except Failure α) := do
  let answer ← net.send q.network q.url q.request
  pure (q.judge take answer)

def sendUpdateCheck (net : Network m) (q : Question) : m (Except Failure CheckResult) :=
  q.send net AppResponse.checkResult

def sendPing (net : Network m) (q : Question) : m (Except Failure Unit) :=
  q.send net AppResponse.pingAccepted

def sendEvent (net : Network m) (q : Question) : m (Except Failure Unit) :=
  q.send net AppResponse.eventAccepted

end Question

end UpdateProtocol
