namespace UpdateProtocol

structure EventType where
  code : Int32
  deriving DecidableEq, Repr

namespace EventType

def updateComplete : EventType := ⟨3⟩
def updateDownloadStarted : EventType := ⟨13⟩
def updateDownloadFinished : EventType := ⟨14⟩

def names : List (Int × String) :=
  [(0, "unknown"), (1, "download complete"), (2, "install complete"), (3, "update complete"),
    (4, "uninstall"), (5, "download started"), (6, "install started"),
    (9, "new application install started"), (10, "setup started"), (11, "setup finished"),
    (12, "update application started"), (13, "update download started"),
    (14, "update download finished"), (15, "update installer started"), (16, "setup update begin"),
    (17, "setup update complete"), (20, "register product complete"),
    (30, "OEM install first check"), (40, "app-specific command started"),
    (41, "app-specific command ended"), (100, "setup failure"), (102, "COM server failure"),
    (103, "setup update failure")]

def name? (t : EventType) : Option String := names.lookup t.code.toInt

def message (t : EventType) : String := t.name?.getD ("event " ++ toString t.code.toInt)

end EventType

structure EventResult where
  code : Int32
  deriving DecidableEq, Repr

namespace EventResult

def error : EventResult := ⟨0⟩
def success : EventResult := ⟨1⟩
def successReboot : EventResult := ⟨2⟩

def names : List (Int × String) :=
  [(0, "error"), (1, "success"), (2, "success reboot"), (3, "success restart browser"),
    (4, "cancelled"), (5, "error installer MSI"), (6, "error installer other"), (7, "noupdate"),
    (8, "error installer system"), (9, "update deferred"), (10, "handoff error")]

def name? (r : EventResult) : Option String := names.lookup r.code.toInt

def message (r : EventResult) : String := r.name?.getD ("result " ++ toString r.code.toInt)

def isError (r : EventResult) : Bool := r.code.toInt ∈ [0, 5, 6, 8, 10]

end EventResult

structure Event where
  type : EventType
  result : EventResult
  previousVersion : Option String := none
  errorCode : Int32 := 0
  deriving DecidableEq, Repr

structure ExitCode where
  code : Int32
  deriving DecidableEq, Repr

namespace ExitCode

def success : ExitCode := ⟨0⟩
def error : ExitCode := ⟨1⟩
def requestError : ExitCode := ⟨2⟩
def emptyResponse : ExitCode := ⟨30⟩
def unreadableResponse : ExitCode := ⟨31⟩
def invalidResponse : ExitCode := ⟨34⟩

def names : List (Int × String) :=
  [(0, "success"), (1, "error"), (2, "omaha request error"), (3, "omaha response handler error"),
    (4, "filesystem copier error"), (5, "postinstall runner error"),
    (6, "set bootable flag error"), (7, "install device open error"),
    (8, "kernel device open error"), (9, "download transfer error"),
    (10, "payload hash mismatch error"), (11, "payload size mismatch error"),
    (12, "download payload verification error"), (13, "download new partition info error"),
    (14, "download write error"), (15, "new rootfs verification error"),
    (16, "new kernel verification error"), (17, "signed delta payload expected error"),
    (18, "download payload pubkey verification error"),
    (19, "postinstall booted from firmware B"), (20, "download state initialization error"),
    (21, "download invalid metadata magic string"),
    (22, "download signature missing in manifest"), (23, "download manifest parse error"),
    (24, "download metadata signature error"),
    (25, "download metadata signature verification error"),
    (26, "download metadata signature mismatch"),
    (27, "download operation hash verification error"),
    (28, "download operation execution error"), (29, "download operation hash mismatch"),
    (30, "omaha request empty response error"), (31, "omaha request XML parse error"),
    (32, "download invalid metadata size"), (33, "download invalid metadata signature"),
    (34, "omaha response invalid"), (35, "omaha update ignored per policy"),
    (36, "omaha update deferred per policy"), (37, "omaha error in HTTP response"),
    (38, "download operation hash missing error"),
    (39, "download metadata signature missing error"), (40, "omaha update deferred for backoff"),
    (41, "postinstall powerwash error"), (42, "new PCR policy verification error"),
    (43, "new PCR policy HTTP error")]

def httpBase : Nat := 2000

def ofHttpStatus (status : Nat) : ExitCode :=
  if 1 ≤ status ∧ status < 1000 then ⟨Int32.ofNat (httpBase + status)⟩ else requestError

def name? (c : ExitCode) : Option String := names.lookup c.code.toInt

def message (c : ExitCode) : String :=
  match c.name? with
  | some name => name
  | none =>
      if c.code.toInt > httpBase then
        "omaha response HTTP " ++ toString (c.code.toInt - httpBase) ++ " error"
      else "error code " ++ toString c.code.toInt

end ExitCode

namespace Event

def downloading : Event := { type := .updateDownloadStarted, result := .success }
def downloaded : Event := { type := .updateDownloadFinished, result := .success }
def installed : Event := { type := .updateComplete, result := .success }
def complete : Event := { type := .updateComplete, result := .successReboot }

def failure (code : ExitCode) : Event :=
  { type := .updateComplete
    result := .error
    errorCode := if code = .success then ExitCode.error.code else code.code }

def message (e : Event) : String :=
  let line := "omaha event: " ++ e.type.message ++ ": " ++ e.result.message
  if e.errorCode = 0 then line
  else line ++ " (" ++ toString e.errorCode.toInt ++ " - " ++ (ExitCode.mk e.errorCode).message ++ ")"

end Event

end UpdateProtocol
