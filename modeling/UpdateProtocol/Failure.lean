import UpdateProtocol.Document
import UpdateProtocol.Http.Status

namespace UpdateProtocol

inductive SendFault where
  | timedOut
  | refused
  | reset
  | closed
  | garbled
  deriving DecidableEq, Repr

inductive TransportFault where
  | unusable (url : Option String)
  | lost (cause : SendFault) (url : String)
  | bodyCut (timedOut : Bool)
  deriving DecidableEq, Repr

namespace TransportFault

def message : TransportFault → String
  | unusable none => "builder error"
  | unusable (some url) => "builder error for url (" ++ url ++ ")"
  | lost _ url => "error sending request for url (" ++ url ++ ")"
  | bodyCut _ => "error decoding response body"

def isTimeout : TransportFault → Bool
  | lost .timedOut _ | bodyCut true => true
  | _ => false

def isTemporary : TransportFault → Bool
  | lost .refused _ | lost .reset _ => true
  | fault => fault.isTimeout

end TransportFault

inductive Failure where
  | config (detail : String)
  | transport (fault : TransportFault)
  | http (status : HttpStatus)
  | document (fault : DocumentFault)
  | invalidResponse (detail : String)
  | appStatus (status : AppStatus)
  | pingStatus (status : String)
  | eventStatus (status : String)
  deriving DecidableEq, Repr

inductive FailureKind where
  | config
  | timeout
  | temporaryTransport
  | permanentTransport
  | document
  | invalidResponse
  | status
  deriving DecidableEq, Repr

namespace Failure

def message : Failure → String
  | config detail => "omaha: " ++ detail
  | transport fault =>
      if fault.isTimeout then "omaha: request timed out: " ++ fault.message
      else "omaha: request failed: " ++ fault.message
  | http status => status.message
  | document fault => "omaha: " ++ fault.message
  | invalidResponse detail => "omaha: invalid response: " ++ detail
  | appStatus status => "omaha: " ++ status.message
  | pingStatus status => "omaha: ping status " ++ status
  | eventStatus status => "omaha: event status " ++ status

def kind : Failure → FailureKind
  | config _ => .config
  | transport fault =>
      if fault.isTimeout then .timeout
      else if fault.isTemporary then .temporaryTransport
      else .permanentTransport
  | http status =>
      if status.isTimeout then .timeout
      else if status.isTemporary then .temporaryTransport
      else .permanentTransport
  | document _ => .document
  | invalidResponse _ => .invalidResponse
  | appStatus _ | pingStatus _ | eventStatus _ => .status

def isTimeout (f : Failure) : Bool := f.kind = .timeout

def isTemporary (f : Failure) : Bool :=
  f.kind = .timeout || f.kind = .temporaryTransport

def exitCode : Failure → ExitCode
  | http status => .ofHttpStatus status.code
  | document .empty => .emptyResponse
  | document .truncated => .invalidResponse
  | document (.unencodable _) => .requestError
  | document _ => .unreadableResponse
  | invalidResponse _ => .invalidResponse
  | _ => .requestError

def event (f : Failure) : Event := .failure f.exitCode

end Failure

end UpdateProtocol
