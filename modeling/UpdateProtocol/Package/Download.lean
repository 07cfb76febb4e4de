import UpdateProtocol.Http.Endpoint
import UpdateProtocol.Package.Store
import UpdateProtocol.Text.Percent

namespace UpdateProtocol

namespace HttpAnswer

def packageNotFound : HttpAnswer := plain .notFound "Package not found"

def packageUnavailable : HttpAnswer := plain ⟨500, by decide, by decide⟩ "Package unavailable"

def undecodableName : HttpAnswer :=
  plain .badRequest "Invalid URL: Invalid UTF-8 in `name`"

def packageContent (content : ByteArray) : HttpAnswer where
  status := .ok
  contentType := some "application/octet-stream"
  body := content

end HttpAnswer

namespace PackageStore

def packagesPath : String := "/packages/"

def baseUrlAt (host : String) : String := "http://" ++ host ++ packagesPath

def segment? (path : String) : Option String :=
  if packagesPath.toList.isPrefixOf path.toList then
    let segment := path.toList.drop packagesPath.length
    if segment = [] ∨ '/' ∈ segment then none else some (String.ofList segment)
  else none

def download (s : PackageStore) (fs : Files) (name : String) : HttpAnswer :=
  match s.file? name with
  | none => .packageNotFound
  | some file => match fs.read file with
    | .error _ => .packageUnavailable
    | .ok content => .packageContent content

def serveDownload (s : PackageStore) (fs : Files) (method segment : String) : HttpAnswer :=
  if method = "GET" ∨ method = "HEAD" then
    let answer := match Text.percentDecode? segment with
      | some name => s.download fs name
      | none => .undecodableName
    if method = "HEAD" then { answer with body := .empty } else answer
  else .methodNotAllowed "GET,HEAD"

def serve (s : PackageStore) (fs : Files) (r : HttpRequest) : HttpAnswer :=
  match segment? r.path with
  | some segment => s.serveDownload fs r.method segment
  | none => (Endpoint.serve (m := Id) s.updater r).run

end PackageStore

end UpdateProtocol
