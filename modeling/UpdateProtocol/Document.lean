import UpdateProtocol.ContentType
import UpdateProtocol.Document.Response

namespace UpdateProtocol

open UpdateProtocol.Markup

inductive DocumentFault where
  | contentType (value : String)
  | unsupportedProtocol (version : String)
  | malformed (cause : Malformation)
  | empty
  | truncated
  | unencodable (detail : String)
  deriving DecidableEq, Repr

def DocumentFault.message : DocumentFault → String
  | .contentType value => "unsupported content type " ++ Text.quoted value
  | .unsupportedProtocol version => "unsupported omaha protocol version " ++ Text.quoted version
  | .malformed cause => "malformed omaha document: " ++ cause.message
  | .empty => "empty omaha document"
  | .truncated => "omaha document exceeds the size limit"
  | .unencodable detail => "failed to encode omaha document: " ++ detail

namespace Document

def maxSize : Nat := 1024 * 1024

def declaration : String := "<?xml version=\"1.0\" encoding=\"UTF-8\"?>\n"

def text (root : Element) : String :=
  declaration ++ String.ofList (Content.element root.tag root.children .broken).write

def isBlankByte (b : UInt8) : Bool :=
  b = 0x20 || b = 0x09 || b = 0x0A || b = 0x0C || b = 0x0D

def readMarkup {σ : Type} (sch : Schema σ) (item : String) (body : ByteArray) :
    Except Malformation σ :=
  match Text.ofUtf8 body with
  | .error fault => .error (.encoding fault)
  | .ok s => sch.readDocument item (Content.parse s.toList)

/-- Reads a body of the given content type. A body that is too long is cut, and then no fault of
the markup is reported but that. -/
def read {σ : Type} (sch : Schema σ) (item contentType : String) (body : ByteArray) :
    Except DocumentFault σ :=
  if !ContentType.accepted contentType then
    .error (.contentType (ContentType.trimmed contentType))
  else
    let kept := body.extract 0 maxSize
    if kept.data.all isBlankByte then .error .empty
    else match readMarkup sch item kept with
      | .ok record => .ok record
      | .error cause => .error (if body.size > maxSize then .truncated else .malformed cause)

def checkContentType (value : String) : Except DocumentFault Unit :=
  if ContentType.accepted value then .ok () else .error (.contentType (ContentType.trimmed value))

def checkProtocol (version : String) : Except DocumentFault Unit :=
  if version = protocolVersion then .ok () else .error (.unsupportedProtocol version)

end Document

def Request.text (r : Request) : String := Document.text r.element

def Request.encode (r : Request) : ByteArray := r.text.toUTF8

def Request.decode (contentType : String) (body : ByteArray) : Except DocumentFault Request := do
  let r ← Document.read Request.schema "Request" contentType body
  Document.checkProtocol r.protocol
  .ok r

def Response.text (r : Response) : String := Document.text r.element

def Response.encode (r : Response) : ByteArray := r.text.toUTF8

def Response.decode (contentType : String) (body : ByteArray) : Except DocumentFault Response := do
  let r ← Document.read Response.schema "Response" contentType body
  Document.checkProtocol r.protocol
  .ok r

end UpdateProtocol
