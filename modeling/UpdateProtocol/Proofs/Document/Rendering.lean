import UpdateProtocol.Document.Response
import UpdateProtocol.Proofs.Markup.Source

namespace UpdateProtocol

open UpdateProtocol.Markup

namespace Markup

def SpellsString (raw : List Char) (v : String) : Prop := Spells raw v.toList

def SpellsInt32 (raw : List Char) (n : Int32) : Prop := raw = (toString n.toInt).toList

def SpellsUInt64 (raw : List Char) (n : UInt64) : Prop := raw = (toString n.toNat).toList

def SpellsBool (raw : List Char) (b : Bool) : Prop :=
  raw = (if b then "true" else "false").toList

def looseWords : Bool → List String
  | true => ["1", "true"]
  | false => ["0", "false"]

def SpellsLooseBool (raw : List Char) (b : Bool) : Prop :=
  ∃ front word back, (front ++ back).all Text.isBlank = true ∧ word ∈ looseWords b ∧
    Spells raw (front ++ word.toList ++ back)

inductive Given {α : Type} (spells : List Char → α → Prop) (default : α) :
    Option (List Char) → α → Prop
  | written {raw : List Char} {v : α} (h : spells raw v) : Given spells default (some raw) v
  | omitted : Given spells default none default

namespace Source

variable {τ : Type}

structure Element.Encloses (e : Element) (item : String) (renders : Element → τ → Prop)
    (vs : List τ) : Prop where
  fits : e.Fits [item]
  row : e.children.InOneRow item
  items : List.Forall₂ renders (e.children.named item) vs

inductive Enclosed (item : String) (renders : Element → τ → Prop) : List Element → List τ → Prop
  | omitted : Enclosed item renders [] []
  | written {e : Element} {vs : List τ} (h : e.Encloses item renders vs) :
      Enclosed item renders [e] vs

end Source

end Markup

open UpdateProtocol.Markup.Source (Enclosed)

structure Os.Renders (e : Source.Element) (o : Os) : Prop where
  fits : e.Fits []
  platform : Option.Rel SpellsString (e.tag.value? "platform") o.platform
  version : Option.Rel SpellsString (e.tag.value? "version") o.version
  servicePack : Option.Rel SpellsString (e.tag.value? "sp") o.servicePack
  arch : Option.Rel SpellsString (e.tag.value? "arch") o.arch

structure PingRequest.Renders (e : Source.Element) (p : PingRequest) : Prop where
  fits : e.Fits []
  active : Option.Rel SpellsInt32 (e.tag.value? "active") p.active
  lastActiveDays : Option.Rel SpellsInt32 (e.tag.value? "a") p.lastActiveDays
  lastReportDays : Option.Rel SpellsInt32 (e.tag.value? "r") p.lastReportDays
  activeDay : Option.Rel SpellsInt32 (e.tag.value? "ad") p.activeDay
  reportDay : Option.Rel SpellsInt32 (e.tag.value? "rd") p.reportDay

structure UpdateRequest.Renders (e : Source.Element) (u : UpdateRequest) : Prop where
  fits : e.Fits []
  targetVersion : Option.Rel SpellsString (e.tag.value? "targetversionprefix") u.targetVersion

structure Event.Renders (e : Source.Element) (v : Event) : Prop where
  fits : e.Fits []
  type : Option.Rel SpellsInt32 (e.tag.value? "eventtype") (some v.type.code)
  result : Option.Rel SpellsInt32 (e.tag.value? "eventresult") (some v.result.code)
  previousVersion : Option.Rel SpellsString (e.tag.value? "previousversion") v.previousVersion
  errorCode : Given SpellsInt32 0 (e.tag.value? "errorcode") v.errorCode

structure AppRequest.Renders (e : Source.Element) (a : AppRequest) : Prop where
  fits : e.Fits ["ping", "updatecheck", "event"]
  id : Option.Rel SpellsString (e.tag.value? "appid") (some a.id)
  version : Option.Rel SpellsString (e.tag.value? "version") a.version
  nextVersion : Option.Rel SpellsString (e.tag.value? "nextversion") a.nextVersion
  lang : Option.Rel SpellsString (e.tag.value? "lang") a.lang
  client : Option.Rel SpellsString (e.tag.value? "client") a.client
  installAge : Option.Rel SpellsString (e.tag.value? "installage") a.installAge
  track : Option.Rel SpellsString (e.tag.value? "track") a.track
  fromTrack : Option.Rel SpellsString (e.tag.value? "from_track") a.fromTrack
  board : Option.Rel SpellsString (e.tag.value? "board") a.board
  deltaOk : Given SpellsBool false (e.tag.value? "delta_okay") a.deltaOk
  oem : Option.Rel SpellsString (e.tag.value? "oem") a.oem
  oemVersion : Option.Rel SpellsString (e.tag.value? "oemversion") a.oemVersion
  alephVersion : Option.Rel SpellsString (e.tag.value? "alephversion") a.alephVersion
  machineId : Option.Rel SpellsString (e.tag.value? "machineid") a.machineId
  bootId : Option.Rel SpellsString (e.tag.value? "bootid") a.bootId
  ping : List.Forall₂ PingRequest.Renders (e.children.named "ping") a.ping.toList
  updateCheck : List.Forall₂ UpdateRequest.Renders (e.children.named "updatecheck")
    a.updateCheck.toList
  row : e.children.InOneRow "event"
  events : List.Forall₂ Event.Renders (e.children.named "event") a.events

structure Request.Renders (e : Source.Element) (r : Request) : Prop where
  name : e.tag.name = "request".toList
  fits : e.Fits ["os", "app"]
  protocol : Option.Rel SpellsString (e.tag.value? "protocol") (some r.protocol)
  version : Option.Rel SpellsString (e.tag.value? "version") r.version
  updaterVersion : Option.Rel SpellsString (e.tag.value? "updaterversion") r.updaterVersion
  isMachine : Given SpellsLooseBool false (e.tag.value? "ismachine") r.isMachine
  sessionId : Option.Rel SpellsString (e.tag.value? "sessionid") r.sessionId
  userId : Option.Rel SpellsString (e.tag.value? "userid") r.userId
  installSource : Option.Rel SpellsString (e.tag.value? "installsource") r.installSource
  testSource : Option.Rel SpellsString (e.tag.value? "testsource") r.testSource
  requestId : Option.Rel SpellsString (e.tag.value? "requestid") r.requestId
  os : List.Forall₂ Os.Renders (e.children.named "os") r.os.toList
  row : e.children.InOneRow "app"
  apps : List.Forall₂ AppRequest.Renders (e.children.named "app") r.apps

structure DownloadUrl.Renders (e : Source.Element) (u : DownloadUrl) : Prop where
  fits : e.Fits []
  codebase : Option.Rel SpellsString (e.tag.value? "codebase") (some u.codebase)

structure Package.Renders (e : Source.Element) (p : Package) : Prop where
  fits : e.Fits []
  name : Option.Rel SpellsString (e.tag.value? "name") (some p.name)
  hash : Option.Rel SpellsString (e.tag.value? "hash") p.hash
  sha256 : Option.Rel SpellsString (e.tag.value? "sha256") p.sha256
  size : Given SpellsUInt64 0 (e.tag.value? "size") p.size
  required : Given SpellsBool false (e.tag.value? "required") p.required

structure Action.Renders (e : Source.Element) (a : Action) : Prop where
  fits : e.Fits []
  event : Option.Rel SpellsString (e.tag.value? "event") (some a.event)
  displayVersion : Option.Rel SpellsString (e.tag.value? "DisplayVersion") a.displayVersion
  sha256 : Option.Rel SpellsString (e.tag.value? "sha256") a.sha256
  needsAdmin : Given SpellsBool false (e.tag.value? "needsadmin") a.needsAdmin
  isDelta : Given SpellsBool false (e.tag.value? "IsDelta") a.isDelta
  disablePayloadBackoff : Given SpellsBool false (e.tag.value? "DisablePayloadBackoff")
    a.disablePayloadBackoff
  metadataSignatureRsa : Option.Rel SpellsString (e.tag.value? "MetadataSignatureRsa")
    a.metadataSignatureRsa
  metadataSize : Option.Rel SpellsString (e.tag.value? "MetadataSize") a.metadataSize
  deadline : Option.Rel SpellsString (e.tag.value? "deadline") a.deadline

structure Manifest.Renders (e : Source.Element) (m : Manifest) : Prop where
  fits : e.Fits ["packages", "actions"]
  version : Option.Rel SpellsString (e.tag.value? "version") (some m.version)
  packages : Enclosed "package" Package.Renders (e.children.named "packages") m.packages
  actions : Enclosed "action" Action.Renders (e.children.named "actions") m.actions

structure UpdateResponse.Renders (e : Source.Element) (u : UpdateResponse) : Prop where
  fits : e.Fits ["urls", "manifest"]
  status : Option.Rel SpellsString (e.tag.value? "status") (some u.status.text)
  urls : Enclosed "url" DownloadUrl.Renders (e.children.named "urls") u.urls
  manifest : List.Forall₂ Manifest.Renders (e.children.named "manifest") u.manifest.toList

structure Acknowledgement.Renders (e : Source.Element) (a : Acknowledgement) : Prop where
  fits : e.Fits []
  status : Option.Rel SpellsString (e.tag.value? "status") (some a.status)

structure AppResponse.Renders (e : Source.Element) (a : AppResponse) : Prop where
  fits : e.Fits ["ping", "updatecheck", "event"]
  id : Option.Rel SpellsString (e.tag.value? "appid") (some a.id)
  status : Given SpellsString AppStatus.unset.text (e.tag.value? "status") a.status.text
  ping : List.Forall₂ Acknowledgement.Renders (e.children.named "ping") a.ping.toList
  updateCheck : List.Forall₂ UpdateResponse.Renders (e.children.named "updatecheck")
    a.updateCheck.toList
  row : e.children.InOneRow "event"
  events : List.Forall₂ Acknowledgement.Renders (e.children.named "event") a.events

structure DayStart.Renders (e : Source.Element) (d : DayStart) : Prop where
  fits : e.Fits []
  elapsedSeconds : Given SpellsUInt64 0 (e.tag.value? "elapsed_seconds") d.elapsedSeconds

structure Response.Renders (e : Source.Element) (r : Response) : Prop where
  name : e.tag.name = "response".toList
  fits : e.Fits ["daystart", "app"]
  protocol : Option.Rel SpellsString (e.tag.value? "protocol") (some r.protocol)
  server : Option.Rel SpellsString (e.tag.value? "server") r.server
  dayStart : List.Forall₂ DayStart.Renders (e.children.named "daystart") r.dayStart.toList
  row : e.children.InOneRow "app"
  apps : List.Forall₂ AppResponse.Renders (e.children.named "app") r.apps

end UpdateProtocol
