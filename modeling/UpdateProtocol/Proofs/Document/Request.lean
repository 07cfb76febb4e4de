import UpdateProtocol.Proofs.Document.Layout

namespace UpdateProtocol

open UpdateProtocol.Markup
open UpdateProtocol.Markup.Schema (Fills Gathers)

namespace Os

theorem holds (o : Os) : o.element.Holds schema o := by
  have hfills : schema.Fills ["platform", "version", "sp", "arch"]
      (optionalAttribute "platform" o.platform ++ optionalAttribute "version" o.version ++
        optionalAttribute "sp" o.servicePack ++ optionalAttribute "arch" o.arch)
      schema.fresh o :=
    Fills.start schema
      |>.optional "platform" o.platform (fun v s => { s with platform := v }) rfl rfl
      |>.optional "version" o.version (fun v s => { s with version := v }) rfl rfl
      |>.optional "sp" o.servicePack (fun v s => { s with servicePack := v }) rfl rfl
      |>.optional "arch" o.arch (fun v s => { s with arch := v }) rfl rfl
  refine .of hfills (.nil schema o []) rfl (List.forall_mem_nil _) ?_ ?_ ?_ ?_ <;> decide

end Os

namespace PingRequest

theorem holds (p : PingRequest) : p.element.Holds schema p := by
  have hfills : schema.Fills ["active", "a", "r", "ad", "rd"]
      (intAttribute "active" p.active ++ intAttribute "a" p.lastActiveDays ++
        intAttribute "r" p.lastReportDays ++ intAttribute "ad" p.activeDay ++
        intAttribute "rd" p.reportDay)
      schema.fresh p :=
    Fills.start schema
      |>.int "active" p.active (fun v s => { s with active := v }) rfl rfl
      |>.int "a" p.lastActiveDays (fun v s => { s with lastActiveDays := v }) rfl rfl
      |>.int "r" p.lastReportDays (fun v s => { s with lastReportDays := v }) rfl rfl
      |>.int "ad" p.activeDay (fun v s => { s with activeDay := v }) rfl rfl
      |>.int "rd" p.reportDay (fun v s => { s with reportDay := v }) rfl rfl
  refine .of hfills (.nil schema p []) rfl (List.forall_mem_nil _) ?_ ?_ ?_ ?_ <;> decide

end PingRequest

namespace UpdateRequest

theorem holds (u : UpdateRequest) : u.element.Holds schema u := by
  have hfills := Fills.start schema
    |>.optional "targetversionprefix" u.targetVersion (fun v s => { s with targetVersion := v })
      rfl rfl
  refine .of hfills (.nil schema u []) rfl (List.forall_mem_nil _) ?_ ?_ ?_ ?_ <;> decide

end UpdateRequest

namespace Event

theorem holds (e : Event) : e.element.Holds schema e := by
  have hfills : schema.Fills ["eventtype", "eventresult", "previousversion", "errorcode"]
      ([("eventtype", toString e.type.code.toInt), ("eventresult", toString e.result.code.toInt)] ++
        optionalAttribute "previousversion" e.previousVersion ++
        if e.errorCode = 0 then [] else [("errorcode", toString e.errorCode.toInt)])
      schema.fresh e :=
    Fills.start schema
      |>.value "eventtype" _ (Scalar.int32_toString e.type.code) (fun v s => { s with type := ⟨v⟩ })
        rfl
      |>.value "eventresult" _ (Scalar.int32_toString e.result.code)
        (fun v s => { s with result := ⟨v⟩ }) rfl
      |>.optional "previousversion" e.previousVersion (fun v s => { s with previousVersion := v })
        rfl rfl
      |>.exceptIf "errorcode" _ (e.errorCode = 0) (Scalar.int32_toString e.errorCode)
        (fun v s => { s with errorCode := v }) (fun hzero => by rw [hzero]; rfl) rfl
  refine .of hfills (.nil schema e []) rfl (by simp [schema]) ?_ ?_ ?_ ?_ <;> decide

end Event

namespace AppRequest

theorem holds (a : AppRequest) : a.element.Holds schema a := by
  have hfills : schema.Fills
      ["appid", "version", "nextversion", "lang", "client", "installage", "track", "from_track",
        "board", "delta_okay", "oem", "oemversion", "alephversion", "machineid", "bootid"]
      a.attributes schema.fresh { a with ping := none, updateCheck := none, events := [] } :=
    Fills.start schema
      |>.text "appid" a.id (fun v s => { s with id := v }) rfl
      |>.optional "version" a.version (fun v s => { s with version := v }) rfl rfl
      |>.optional "nextversion" a.nextVersion (fun v s => { s with nextVersion := v }) rfl rfl
      |>.optional "lang" a.lang (fun v s => { s with lang := v }) rfl rfl
      |>.optional "client" a.client (fun v s => { s with client := v }) rfl rfl
      |>.optional "installage" a.installAge (fun v s => { s with installAge := v }) rfl rfl
      |>.optional "track" a.track (fun v s => { s with track := v }) rfl rfl
      |>.optional "from_track" a.fromTrack (fun v s => { s with fromTrack := v }) rfl rfl
      |>.optional "board" a.board (fun v s => { s with board := v }) rfl rfl
      |>.flag "delta_okay" "true" a.deltaOk rfl (fun v s => { s with deltaOk := v }) rfl rfl
      |>.optional "oem" a.oem (fun v s => { s with oem := v }) rfl rfl
      |>.optional "oemversion" a.oemVersion (fun v s => { s with oemVersion := v }) rfl rfl
      |>.optional "alephversion" a.alephVersion (fun v s => { s with alephVersion := v }) rfl rfl
      |>.optional "machineid" a.machineId (fun v s => { s with machineId := v }) rfl rfl
      |>.optional "bootid" a.bootId (fun v s => { s with bootId := v }) rfl rfl
  have hgathers := Gathers.nil schema { a with ping := none, updateCheck := none, events := [] } []
    |>.ofOption "ping" a.ping PingRequest.holds (fun v s => { s with ping := v })
      (by decide) (fun _ => rfl) rfl rfl
    |>.ofOption "updatecheck" a.updateCheck UpdateRequest.holds
      (fun v s => { s with updateCheck := v }) (by decide) (fun _ => rfl) rfl rfl
    |>.many "event" "EventRequest" a.events Event.holds (fun vs s => { s with events := vs })
      (by decide) (fun _ => rfl) rfl (fun _ _ => rfl) rfl
  refine .of hfills hgathers (by simp [schema]) (by simp [schema, attributes])
    ?_ ?_ ?_ ?_ <;> decide

end AppRequest

namespace Request

theorem holds (r : Request) : r.element.Holds schema r := by
  have hfills : schema.Fills
      ["protocol", "version", "updaterversion", "ismachine", "sessionid", "userid",
        "installsource", "testsource", "requestid"]
      r.attributes schema.fresh { r with os := none, apps := [] } :=
    Fills.start schema
      |>.text "protocol" r.protocol (fun v s => { s with protocol := v }) rfl
      |>.optional "version" r.version (fun v s => { s with version := v }) rfl rfl
      |>.optional "updaterversion" r.updaterVersion (fun v s => { s with updaterVersion := v })
        rfl rfl
      |>.flag "ismachine" "1" r.isMachine Scalar.looseBool_one
        (fun v s => { s with isMachine := v })
        rfl rfl
      |>.optional "sessionid" r.sessionId (fun v s => { s with sessionId := v }) rfl rfl
      |>.optional "userid" r.userId (fun v s => { s with userId := v }) rfl rfl
      |>.optional "installsource" r.installSource (fun v s => { s with installSource := v }) rfl rfl
      |>.optional "testsource" r.testSource (fun v s => { s with testSource := v }) rfl rfl
      |>.optional "requestid" r.requestId (fun v s => { s with requestId := v }) rfl rfl
  have hgathers := Gathers.nil schema { r with os := none, apps := [] } []
    |>.ofOption "os" r.os Os.holds (fun v s => { s with os := v })
      (by decide) (fun _ => rfl) rfl rfl
    |>.many "app" "AppRequest" r.apps AppRequest.holds (fun vs s => { s with apps := vs })
      (by decide) (fun _ => rfl) rfl (fun _ _ => rfl) rfl
  refine .of hfills hgathers (by simp [schema]) (List.forall_mem_nil _) ?_ ?_ ?_ ?_ <;> decide

end Request

end UpdateProtocol
