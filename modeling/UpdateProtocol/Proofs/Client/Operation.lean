import UpdateProtocol.Client.Exchange

namespace UpdateProtocol

inductive Origin where
  | user (url userId sessionId : String) (settings : Settings)
  | machine (url : String) (identity : MachineIdentity) (settings : Settings)

namespace Origin

def client [Idna] : Origin → Except Failure Client
  | user url userId sessionId settings => Client.forUser url userId sessionId settings
  | machine url identity settings => Client.forMachine url identity settings

def isMachine : Origin → Bool
  | user .. => false
  | machine .. => true

end Origin

inductive Setting where
  | version (version : String)
  | track (track : String)
  | oem (oem : String)
  deriving DecidableEq

def Setting.apply : Setting → App → Except Failure App
  | version v => App.setVersion v
  | track t => App.setTrack t
  | oem o => App.setOem o

inductive Inquiry where
  | request
  | updateCheck
  | ping
  | event (event : Event)

inductive Access where
  | handle (h : Handle)
  | id (id : String)

inductive Operation where
  | setServerUrl (url : String)
  | setVersion (version : String)
  | newApp (id version : String)
  | rename (id newId : String)
  | set (access : Access) (setting : Setting)
  | ask (access : Access) (inquiry : Inquiry)

inductive Answer where
  | done
  | handle (h : Handle)
  | request (r : Request)
  | question (q : Question)
  | failed (cause : Failure)
  | missing

namespace Answer

def handle? : Answer → Option Handle
  | handle h => some h
  | _ => none

def request? : Answer → Option Request
  | request r => some r
  | question q => some q.request
  | _ => none

def ofOutcome (c : Client) : Except Failure Client → Client × Answer
  | .ok c' => (c', .done)
  | .error cause => (c, .failed cause)

end Answer

inductive Deed where
  | register (id version : String)
  | rename (newId : String)
  | set (setting : Setting)
  deriving DecidableEq

def Deed.apply (a : Option App) : Deed → Option App
  | register id version => some { id, version }
  | rename newId => a.map fun a => { a with id := newId }
  | set setting => a.bind fun a => (setting.apply a).toOption

namespace Client

variable [Idna]

def access? (c : Client) : Access → Option Handle
  | .handle h => if (c.app? h).isSome then some h else none
  | .id id => c.handle? id

def inquire (c : Client) (a : App) : Inquiry → Client × Answer
  | .request => (c, .request (c.newRequest a))
  | .updateCheck => (c.askUpdateCheck a).map id .question
  | .ping => (c.askPing a).map id .question
  | .event e => (c, .question (c.askEvent a e))

def perform (c : Client) : Operation → Client × Answer
  | .setServerUrl url => Answer.ofOutcome c (c.setServerUrl url)
  | .setVersion version => (c.setVersion version, .done)
  | .newApp id version => match c.newApp id version with
    | .ok (c', h) => (c', .handle h)
    | .error cause => (c, .failed cause)
  | .rename id newId => Answer.ofOutcome c (c.rename id newId)
  | .set access setting => match c.access? access with
    | none => (c, .missing)
    | some h => Answer.ofOutcome c (c.change h setting.apply)
  | .ask access inquiry => match (c.access? access).bind c.app? with
    | none => (c, .missing)
    | some a => c.inquire a inquiry

def deed? (c : Client) : Operation → Option (Handle × Deed)
  | .newApp id version => match c.newApp id version with
    | .ok (_, h) => some (h, .register id version)
    | .error _ => none
  | .rename id newId => match c.rename id newId with
    | .ok _ => if id = newId then none else (c.handle? id).map fun h => (h, .rename newId)
    | .error _ => none
  | .set access setting => (c.access? access).bind fun h => match c.change h setting.apply with
    | .ok _ => some (h, .set setting)
    | .error _ => none
  | .setServerUrl _ | .setVersion _ | .ask _ _ => none

def after (c : Client) (ops : List Operation) : Client :=
  ops.foldl (fun c op => (c.perform op).1) c

def answers (c : Client) : List Operation → List Answer
  | [] => []
  | op :: ops => (c.perform op).2 :: answers (c.perform op).1 ops

def handles (c : Client) (ops : List Operation) : List Handle :=
  (c.answers ops).filterMap Answer.handle?

def deeds (c : Client) : List Operation → List (Handle × Deed)
  | [] => []
  | op :: ops => (c.deed? op).toList ++ deeds (c.perform op).1 ops

def history (c : Client) (ops : List Operation) (h : Handle) : List Deed :=
  ((c.deeds ops).filter (·.1 = h)).map Prod.snd

end Client

end UpdateProtocol
