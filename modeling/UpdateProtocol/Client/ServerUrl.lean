import UpdateProtocol.Failure
import UpdateProtocol.Url.Basic

namespace UpdateProtocol.ServerUrl

def usualPath : UrlPath := .segments ["v1".toList, "update".toList, []]

def withPath (url : Url) : Url :=
  if url.path.text = [] ∨ url.path.text = ['/'] then { url with path := usualPath } else url

def normalize [Idna] (text : String) : Except Failure String :=
  match Url.parse text with
  | .error fault =>
      .error (.config ("invalid server URL " ++ Text.quoted text ++ ": " ++ fault.message))
  | .ok url =>
      if !url.isHttp then .error (.config ("invalid server protocol: " ++ text))
      else if url.host?.isNone then .error (.config ("invalid server host: " ++ text))
      else .ok (withPath url).text

end UpdateProtocol.ServerUrl
