import UpdateProtocol.Retry
import UpdateProtocol.Settings
import UpdateProtocol.Url.Basic

namespace UpdateProtocol

structure Post where
  url : Url
  contentType : String := ContentType.xml
  userAgent : String := "omaha-client/0.1.0"
  timeout : Duration
  body : ByteArray

structure Reply where
  status : HttpStatus
  contentType : Option ByteArray := none
  chunks : List ByteArray := []
  fault : Option TransportFault := none

structure Network (m : Type → Type) where
  exchange : Post → m (Except SendFault Reply)
  pause : Pause → m Unit

namespace Reply

def receive (fault : Option TransportFault) (done : ByteArray) :
    List ByteArray → Except TransportFault ByteArray
  | [] => match fault with
    | none => .ok done
    | some fault => .error fault
  | chunk :: rest =>
      let done := done ++ chunk.extract 0 (Document.maxSize + 1 - done.size)
      if Document.maxSize < done.size then .ok done else receive fault done rest

def response (r : Reply) : Except Failure Response :=
  if r.status.isSuccess then
    match receive r.fault .empty r.chunks with
    | .error fault => .error (.transport fault)
    | .ok body => match Response.decode (ContentType.ofHeader r.contentType) body with
      | .error fault => .error (.document fault)
      | .ok response => .ok response
  else .error (.http r.status)

end Reply

namespace Url

def maxSize : Nat := 65534

def isSendable (c : Char) : Bool :=
  c.isAlphanum || c ∈ "!#$&'()*+,-./:;=?@[]_~".toList

def target [Idna] (text : String) : Except TransportFault Url :=
  match Url.parse text with
  | .error _ => .error (.unusable none)
  | .ok url =>
      let url := url.withoutLogin
      match url.host? with
      | none => .error (.unusable (some url.text))
      | some host =>
          if url.isHttp && host.text.all isSendable && url.text.utf8ByteSize ≤ maxSize then .ok url
          else .error (.unusable (some url.text))

end Url

namespace Network

variable {m : Type → Type} [Monad m] [Idna]

def post (net : Network m) (settings : NetworkSettings) (url : String) (body : ByteArray) :
    m (Except Failure Response) :=
  match Url.target url with
  | .error fault => pure (.error (.transport fault))
  | .ok url => do
      match ← net.exchange { url, timeout := settings.timeout, body } with
      | .error cause => pure (.error (.transport (.lost cause url.text)))
      | .ok reply => pure reply.response

def send (net : Network m) (settings : NetworkSettings) (url : String) (request : Request) :
    m (Except Failure Response) :=
  Retry.run settings.backoff settings.tries (net.post settings url request.encode) net.pause

end Network

end UpdateProtocol
