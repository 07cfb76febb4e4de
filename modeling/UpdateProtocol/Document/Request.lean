import UpdateProtocol.Markup.Schema
import UpdateProtocol.Request

namespace UpdateProtocol

open UpdateProtocol.Markup
open UpdateProtocol.Markup.Schema (field keep)

def optionalAttribute (name : String) (value : Option String) : List (String × String) :=
  value.toList.map (name, ·)

def intAttribute (name : String) (value : Option Int32) : List (String × String) :=
  optionalAttribute name (value.map fun n => toString n.toInt)

def flagAttribute (name text : String) (value : Bool) : List (String × String) :=
  if value then [(name, text)] else []

structure Element where
  tag : Tag
  children : Content := .closed

def contentOf (elements : List Element) : Content :=
  elements.foldr (fun e rest => .element e.tag e.children rest) .closed

namespace Os

def schema : Schema Os where
  fresh := {}
  attributes :=
    [field "platform" (.optional .text) fun v s => { s with platform := some v },
      field "version" (.optional .text) fun v s => { s with version := some v },
      field "sp" (.optional .text) fun v s => { s with servicePack := some v },
      field "arch" (.optional .text) fun v s => { s with arch := some v }]

def element (o : Os) : Element where
  tag := .of "os" <|
    optionalAttribute "platform" o.platform ++ optionalAttribute "version" o.version ++
      optionalAttribute "sp" o.servicePack ++ optionalAttribute "arch" o.arch

end Os

namespace PingRequest

def schema : Schema PingRequest where
  fresh := {}
  attributes :=
    [field "active" (.optional .int32) fun v s => { s with active := some v },
      field "a" (.optional .int32) fun v s => { s with lastActiveDays := some v },
      field "r" (.optional .int32) fun v s => { s with lastReportDays := some v },
      field "ad" (.optional .int32) fun v s => { s with activeDay := some v },
      field "rd" (.optional .int32) fun v s => { s with reportDay := some v }]

def element (p : PingRequest) : Element where
  tag := .of "ping" <|
    intAttribute "active" p.active ++ intAttribute "a" p.lastActiveDays ++
      intAttribute "r" p.lastReportDays ++ intAttribute "ad" p.activeDay ++
      intAttribute "rd" p.reportDay

end PingRequest

namespace UpdateRequest

def schema : Schema UpdateRequest where
  fresh := {}
  attributes :=
    [field "targetversionprefix" (.optional .text) fun v s => { s with targetVersion := some v }]

def element (u : UpdateRequest) : Element where
  tag := .of "updatecheck" (optionalAttribute "targetversionprefix" u.targetVersion)

end UpdateRequest

namespace Event

def schema : Schema Event where
  fresh := { type := ⟨0⟩, result := ⟨0⟩ }
  attributes :=
    [field "eventtype" .int32 fun v s => { s with type := ⟨v⟩ },
      field "eventresult" .int32 fun v s => { s with result := ⟨v⟩ },
      field "previousversion" (.optional .text) fun v s => { s with previousVersion := some v },
      field "errorcode" .int32 fun v s => { s with errorCode := v }]
  required := ["@eventtype", "@eventresult"]

def element (e : Event) : Element where
  tag := .of "event" <|
    [("eventtype", toString e.type.code.toInt), ("eventresult", toString e.result.code.toInt)] ++
      optionalAttribute "previousversion" e.previousVersion ++
      if e.errorCode = 0 then [] else [("errorcode", toString e.errorCode.toInt)]

end Event

namespace AppRequest

def schema : Schema AppRequest where
  fresh := { id := "" }
  attributes :=
    [field "appid" .text fun v s => { s with id := v },
      field "version" (.optional .text) fun v s => { s with version := some v },
      field "nextversion" (.optional .text) fun v s => { s with nextVersion := some v },
      field "lang" (.optional .text) fun v s => { s with lang := some v },
      field "client" (.optional .text) fun v s => { s with client := some v },
      field "installage" (.optional .text) fun v s => { s with installAge := some v },
      field "track" (.optional .text) fun v s => { s with track := some v },
      field "from_track" (.optional .text) fun v s => { s with fromTrack := some v },
      field "board" (.optional .text) fun v s => { s with board := some v },
      field "delta_okay" .bool fun v s => { s with deltaOk := v },
      field "oem" (.optional .text) fun v s => { s with oem := some v },
      field "oemversion" (.optional .text) fun v s => { s with oemVersion := some v },
      field "alephversion" (.optional .text) fun v s => { s with alephVersion := some v },
      field "machineid" (.optional .text) fun v s => { s with machineId := some v },
      field "bootid" (.optional .text) fun v s => { s with bootId := some v }]
  children :=
    [("ping", .optional (keep PingRequest.schema fun v s => { s with ping := some v })),
      ("updatecheck",
        .optional (keep UpdateRequest.schema fun v s => { s with updateCheck := some v })),
      ("event",
        .many "EventRequest" (keep Event.schema fun v s => { s with events := v :: s.events }))]
  required := ["@appid"]
  inOrder s := { s with events := s.events.reverse }

def attributes (a : AppRequest) : List (String × String) :=
  [("appid", a.id)] ++ optionalAttribute "version" a.version ++
    optionalAttribute "nextversion" a.nextVersion ++ optionalAttribute "lang" a.lang ++
    optionalAttribute "client" a.client ++ optionalAttribute "installage" a.installAge ++
    optionalAttribute "track" a.track ++ optionalAttribute "from_track" a.fromTrack ++
    optionalAttribute "board" a.board ++ flagAttribute "delta_okay" "true" a.deltaOk ++
    optionalAttribute "oem" a.oem ++ optionalAttribute "oemversion" a.oemVersion ++
    optionalAttribute "alephversion" a.alephVersion ++ optionalAttribute "machineid" a.machineId ++
    optionalAttribute "bootid" a.bootId

def element (a : AppRequest) : Element where
  tag := .of "app" a.attributes
  children := contentOf <|
    a.ping.toList.map PingRequest.element ++ a.updateCheck.toList.map UpdateRequest.element ++
      a.events.map Event.element

end AppRequest

namespace Request

def schema : Schema Request where
  fresh := {}
  attributes :=
    [field "protocol" .text fun v s => { s with protocol := v },
      field "version" (.optional .text) fun v s => { s with version := some v },
      field "updaterversion" (.optional .text) fun v s => { s with updaterVersion := some v },
      field "ismachine" .looseBool fun v s => { s with isMachine := v },
      field "sessionid" (.optional .text) fun v s => { s with sessionId := some v },
      field "userid" (.optional .text) fun v s => { s with userId := some v },
      field "installsource" (.optional .text) fun v s => { s with installSource := some v },
      field "testsource" (.optional .text) fun v s => { s with testSource := some v },
      field "requestid" (.optional .text) fun v s => { s with requestId := some v }]
  children :=
    [("os", .optional (keep Os.schema fun v s => { s with os := some v })),
      ("app",
        .many "AppRequest" (keep AppRequest.schema fun v s => { s with apps := v :: s.apps }))]
  inOrder s := { s with apps := s.apps.reverse }

def attributes (r : Request) : List (String × String) :=
  [("protocol", r.protocol)] ++ optionalAttribute "version" r.version ++
    optionalAttribute "updaterversion" r.updaterVersion ++
    flagAttribute "ismachine" "1" r.isMachine ++ optionalAttribute "sessionid" r.sessionId ++
    optionalAttribute "userid" r.userId ++ optionalAttribute "installsource" r.installSource ++
    optionalAttribute "testsource" r.testSource ++ optionalAttribute "requestid" r.requestId

def element (r : Request) : Element where
  tag := .of "request" r.attributes
  children := contentOf (r.os.toList.map Os.element ++ r.apps.map AppRequest.element)

end Request

end UpdateProtocol
