import UpdateProtocol.Document.Request
import UpdateProtocol.Response

namespace UpdateProtocol

open UpdateProtocol.Markup
open UpdateProtocol.Markup.Schema (field keep)

def boolAttribute (name : String) (value : Bool) : List (String × String) :=
  [(name, if value then "true" else "false")]

def wrapped (name : String) : List Element → List Element
  | [] => []
  | items => [⟨.of name [], contentOf items⟩]

def listSchema {α : Type} (name item : String) (sch : Schema α) : Schema (List α) where
  fresh := []
  children := [(name, .many item (keep sch List.cons))]
  inOrder := List.reverse

namespace DownloadUrl

def schema : Schema DownloadUrl where
  fresh := { codebase := "" }
  attributes := [field "codebase" .text fun v s => { s with codebase := v }]
  required := ["@codebase"]

def element (u : DownloadUrl) : Element where
  tag := .of "url" [("codebase", u.codebase)]

end DownloadUrl

namespace Package

def schema : Schema Package where
  fresh := { name := "" }
  attributes :=
    [field "name" .text fun v s => { s with name := v },
      field "hash" (.optional .text) fun v s => { s with hash := some v },
      field "sha256" (.optional .text) fun v s => { s with sha256 := some v },
      field "size" .uint64 fun v s => { s with size := v },
      field "required" .bool fun v s => { s with required := v }]
  required := ["@name"]

def element (p : Package) : Element where
  tag := .of "package" <|
    [("name", p.name)] ++ optionalAttribute "hash" p.hash ++
      optionalAttribute "sha256" p.sha256 ++ [("size", toString p.size.toNat)] ++
      boolAttribute "required" p.required

end Package

namespace Action

def schema : Schema Action where
  fresh := { event := "" }
  attributes :=
    [field "event" .text fun v s => { s with event := v },
      field "DisplayVersion" (.optional .text) fun v s => { s with displayVersion := some v },
      field "sha256" (.optional .text) fun v s => { s with sha256 := some v },
      field "needsadmin" .bool fun v s => { s with needsAdmin := v },
      field "IsDelta" .bool fun v s => { s with isDelta := v },
      field "DisablePayloadBackoff" .bool fun v s => { s with disablePayloadBackoff := v },
      field "MetadataSignatureRsa" (.optional .text)
        fun v s => { s with metadataSignatureRsa := some v },
      field "MetadataSize" (.optional .text) fun v s => { s with metadataSize := some v },
      field "deadline" (.optional .text) fun v s => { s with deadline := some v }]
  required := ["@event"]

def element (a : Action) : Element where
  tag := .of "action" <|
    [("event", a.event)] ++ optionalAttribute "DisplayVersion" a.displayVersion ++
      optionalAttribute "sha256" a.sha256 ++ boolAttribute "needsadmin" a.needsAdmin ++
      boolAttribute "IsDelta" a.isDelta ++
      boolAttribute "DisablePayloadBackoff" a.disablePayloadBackoff ++
      optionalAttribute "MetadataSignatureRsa" a.metadataSignatureRsa ++
      optionalAttribute "MetadataSize" a.metadataSize ++ optionalAttribute "deadline" a.deadline

end Action

namespace Manifest

def schema : Schema Manifest where
  fresh := { version := "" }
  attributes := [field "version" .text fun v s => { s with version := v }]
  children :=
    [("packages",
        .one (keep (listSchema "package" "Package" Package.schema)
          fun v s => { s with packages := v })),
      ("actions",
        .one (keep (listSchema "action" "Action" Action.schema)
          fun v s => { s with actions := v }))]
  required := ["@version"]

def element (m : Manifest) : Element where
  tag := .of "manifest" [("version", m.version)]
  children := contentOf <|
    wrapped "packages" (m.packages.map Package.element) ++
      wrapped "actions" (m.actions.map Action.element)

end Manifest

namespace UpdateResponse

def schema : Schema UpdateResponse where
  fresh := {}
  attributes := [field "status" .text fun v s => { s with status := .ofText v }]
  children :=
    [("urls",
        .one (keep (listSchema "url" "Url" DownloadUrl.schema) fun v s => { s with urls := v })),
      ("manifest", .optional (keep Manifest.schema fun v s => { s with manifest := some v }))]
  required := ["@status"]

def element (u : UpdateResponse) : Element where
  tag := .of "updatecheck" [("status", u.status.text)]
  children := contentOf <|
    wrapped "urls" (u.urls.map DownloadUrl.element) ++ u.manifest.toList.map Manifest.element

end UpdateResponse

namespace Acknowledgement

def schema : Schema Acknowledgement where
  fresh := { status := "" }
  attributes := [field "status" .text fun v s => { s with status := v }]
  required := ["@status"]

def element (name : String) (a : Acknowledgement) : Element where
  tag := .of name [("status", a.status)]

end Acknowledgement

namespace AppResponse

def schema : Schema AppResponse where
  fresh := { id := "" }
  attributes :=
    [field "appid" .text fun v s => { s with id := v },
      field "status" .text fun v s => { s with status := .ofText v }]
  children :=
    [("ping", .optional (keep Acknowledgement.schema fun v s => { s with ping := some v })),
      ("updatecheck",
        .optional (keep UpdateResponse.schema fun v s => { s with updateCheck := some v })),
      ("event",
        .many "EventResponse"
          (keep Acknowledgement.schema fun v s => { s with events := v :: s.events }))]
  required := ["@appid"]
  inOrder s := { s with events := s.events.reverse }

def element (a : AppResponse) : Element where
  tag := .of "app" [("appid", a.id), ("status", a.status.text)]
  children := contentOf <|
    a.ping.toList.map (Acknowledgement.element "ping") ++
      a.updateCheck.toList.map UpdateResponse.element ++
      a.events.map (Acknowledgement.element "event")

end AppResponse

namespace DayStart

def schema : Schema DayStart where
  fresh := {}
  attributes := [field "elapsed_seconds" .uint64 fun v s => { s with elapsedSeconds := v }]

def element (d : DayStart) : Element where
  tag := .of "daystart" [("elapsed_seconds", toString d.elapsedSeconds.toNat)]

end DayStart

namespace Response

def schema : Schema Response where
  fresh := {}
  attributes :=
    [field "protocol" .text fun v s => { s with protocol := v },
      field "server" (.optional .text) fun v s => { s with server := some v }]
  children :=
    [("daystart", .optional (keep DayStart.schema fun v s => { s with dayStart := some v })),
      ("app",
        .many "AppResponse" (keep AppResponse.schema fun v s => { s with apps := v :: s.apps }))]
  inOrder s := { s with apps := s.apps.reverse }

def element (r : Response) : Element where
  tag := .of "response" ([("protocol", r.protocol)] ++ optionalAttribute "server" r.server)
  children := contentOf (r.dayStart.toList.map DayStart.element ++ r.apps.map AppResponse.element)

end Response

end UpdateProtocol
