import UpdateProtocol.Request
import UpdateProtocol.Status

namespace UpdateProtocol

structure DownloadUrl where
  codebase : String
  deriving DecidableEq, Repr, Inhabited

structure Package where
  name : String
  hash : Option String := none
  sha256 : Option String := none
  size : UInt64 := 0
  required : Bool := false
  deriving DecidableEq, Repr, Inhabited

structure Action where
  event : String
  displayVersion : Option String := none
  sha256 : Option String := none
  needsAdmin : Bool := false
  isDelta : Bool := false
  disablePayloadBackoff : Bool := false
  metadataSignatureRsa : Option String := none
  metadataSize : Option String := none
  deadline : Option String := none
  deriving DecidableEq, Repr, Inhabited

structure Manifest where
  version : String
  packages : List Package := []
  actions : List Action := []
  deriving DecidableEq, Repr, Inhabited

def Manifest.addPackage (m : Manifest) (p : Package) : Manifest :=
  { m with packages := m.packages ++ [p] }

def Manifest.addAction (m : Manifest) (a : Action) : Manifest :=
  { m with actions := m.actions ++ [a] }

structure UpdateResponse where
  status : UpdateStatus := .noUpdate
  urls : List DownloadUrl := []
  manifest : Option Manifest := none
  deriving DecidableEq, Repr, Inhabited

def UpdateResponse.addUrl (u : UpdateResponse) (codebase : String) : UpdateResponse :=
  { u with urls := u.urls ++ [{ codebase }] }

def UpdateResponse.setManifest (u : UpdateResponse) (version : String) : UpdateResponse :=
  { u with manifest := some { version } }

structure Acknowledgement where
  status : String
  deriving DecidableEq, Repr, Inhabited

def Acknowledgement.ok : Acknowledgement := ⟨"ok"⟩

structure AppResponse where
  id : String
  status : AppStatus := .unset
  ping : Option Acknowledgement := none
  updateCheck : Option UpdateResponse := none
  events : List Acknowledgement := []
  deriving DecidableEq, Repr, Inhabited

namespace AppResponse

def addPing (a : AppResponse) : AppResponse :=
  { a with ping := some .ok }

def setUpdateCheck (a : AppResponse) (status : UpdateStatus) : AppResponse :=
  { a with updateCheck := some { status } }

def addEvent (a : AppResponse) : AppResponse :=
  { a with events := a.events ++ [.ok] }

end AppResponse

structure DayStart where
  elapsedSeconds : UInt64 := 0
  deriving DecidableEq, Repr, Inhabited

structure Response where
  protocol : String := ""
  server : Option String := none
  dayStart : Option DayStart := none
  apps : List AppResponse := []
  deriving DecidableEq, Repr, Inhabited

namespace Response

def new : Response :=
  { protocol := protocolVersion, server := some "omaha-rs", dayStart := some {} }

def addApp (r : Response) (id : String) (status : AppStatus) : Response :=
  { r with apps := r.apps ++ [{ id, status }] }

def app? (r : Response) (id : String) : Option AppResponse :=
  r.apps.find? (·.id = id)

end Response

end UpdateProtocol
