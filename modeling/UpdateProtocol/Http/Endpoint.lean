import UpdateProtocol.Dispatch
import UpdateProtocol.Document
import UpdateProtocol.Http.Status

namespace UpdateProtocol

structure HttpRequest where
  method : String := "POST"
  target : String
  contentType : Option ByteArray := none
  body : ByteArray := .empty

structure HttpAnswer where
  status : HttpStatus
  contentType : Option String := none
  allow : Option String := none
  body : ByteArray := .empty

namespace HttpRequest

def path (r : HttpRequest) : String :=
  String.ofList (r.target.toList.takeWhile fun c => c ≠ '?' && c ≠ '#')

end HttpRequest

namespace HttpAnswer

def plain (status : HttpStatus) (text : String) : HttpAnswer where
  status := status
  contentType := some "text/plain; charset=utf-8"
  body := text.toUTF8

def notFound : HttpAnswer := { status := .notFound }

def methodNotAllowed (allow : String) : HttpAnswer :=
  { status := ⟨405, by decide, by decide⟩, allow := some allow }

def tooLarge : HttpAnswer :=
  plain ⟨413, by decide, by decide⟩ "Failed to buffer the request body: length limit exceeded"

def badRequest (fault : DocumentFault) : HttpAnswer :=
  plain .badRequest fault.message

def document (r : Response) : HttpAnswer where
  status := .ok
  contentType := some ContentType.xml
  body := r.encode

end HttpAnswer

namespace Endpoint

def maxBody : Nat := 2 * 1024 * 1024

def routes : List String := ["/v1/update", "/v1/update/", "/"]

variable {m : Type → Type} [Monad m]

def handle (u : Updater m) (r : HttpRequest) : m HttpAnswer :=
  if r.method ≠ "POST" then pure (.methodNotAllowed "POST")
  else if r.body.size > maxBody then pure .tooLarge
  else match Request.decode (ContentType.ofHeader r.contentType) r.body with
    | .error fault => pure (.badRequest fault)
    | .ok request => do
        let response ← u.respond request
        pure (.document response)

def serve (u : Updater m) (r : HttpRequest) : m HttpAnswer :=
  if r.path ∈ routes then handle u r else pure .notFound

end Endpoint

end UpdateProtocol
