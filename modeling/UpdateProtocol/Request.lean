import UpdateProtocol.Event

namespace UpdateProtocol

def protocolVersion : String := "3.0"

structure Os where
  platform : Option String := none
  version : Option String := none
  servicePack : Option String := none
  arch : Option String := none
  deriving DecidableEq, Repr, Inhabited

def Os.current : Os := { platform := some "linux", arch := some "x64" }

structure PingRequest where
  active : Option Int32 := none
  lastActiveDays : Option Int32 := none
  lastReportDays : Option Int32 := none
  activeDay : Option Int32 := none
  reportDay : Option Int32 := none
  deriving DecidableEq, Repr, Inhabited

structure UpdateRequest where
  targetVersion : Option String := none
  deriving DecidableEq, Repr, Inhabited

structure AppRequest where
  id : String
  version : Option String := none
  nextVersion : Option String := none
  lang : Option String := none
  client : Option String := none
  installAge : Option String := none
  track : Option String := none
  fromTrack : Option String := none
  board : Option String := none
  deltaOk : Bool := false
  oem : Option String := none
  oemVersion : Option String := none
  alephVersion : Option String := none
  machineId : Option String := none
  bootId : Option String := none
  ping : Option PingRequest := none
  updateCheck : Option UpdateRequest := none
  events : List Event := []
  deriving DecidableEq, Repr, Inhabited

namespace AppRequest

def addPing (a : AppRequest) : AppRequest :=
  { a with ping := some (a.ping.getD {}) }

def addUpdateCheck (a : AppRequest) : AppRequest :=
  { a with updateCheck := some (a.updateCheck.getD {}) }

def addEvent (a : AppRequest) (e : Event) : AppRequest :=
  { a with events := a.events ++ [e] }

end AppRequest

structure Request where
  protocol : String := ""
  version : Option String := none
  updaterVersion : Option String := none
  isMachine : Bool := false
  sessionId : Option String := none
  userId : Option String := none
  installSource : Option String := none
  testSource : Option String := none
  requestId : Option String := none
  os : Option Os := none
  apps : List AppRequest := []
  deriving DecidableEq, Repr, Inhabited

namespace Request

def new : Request := { protocol := protocolVersion, os := some .current }

def addApp (r : Request) (id version : String) : Request :=
  { r with apps := r.apps ++ [{ id, version := some version }] }

def app? (r : Request) (id : String) : Option AppRequest :=
  r.apps.find? (·.id = id)

end Request

end UpdateProtocol
