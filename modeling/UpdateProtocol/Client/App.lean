import UpdateProtocol.Failure

namespace UpdateProtocol

structure App where
  id : String
  version : String
  track : Option String := none
  oem : Option String := none
  deriving DecidableEq, Repr, Inhabited

namespace App

def setVersion (version : String) (a : App) : Except Failure App :=
  if version = "" then .error (.config "empty application version")
  else .ok { a with version }

def setTrack (track : String) (a : App) : Except Failure App :=
  if track = "" then .error (.config "empty application update track/group")
  else .ok { a with track := some track }

def setOem (oem : String) (a : App) : Except Failure App :=
  .ok { a with oem := some oem }

end App

end UpdateProtocol
