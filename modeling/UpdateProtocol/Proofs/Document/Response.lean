import UpdateProtocol.Proofs.Document.Canonical
import UpdateProtocol.Proofs.Document.Layout

namespace UpdateProtocol

open UpdateProtocol.Markup
open UpdateProtocol.Markup.Schema (Fills Gathers)

namespace DownloadUrl

theorem holds (u : DownloadUrl) : u.element.Holds schema u := by
  have hfills := Fills.start schema
    |>.text "codebase" u.codebase (fun v s => { s with codebase := v }) rfl
  refine .of hfills (.nil schema u []) rfl (by simp [schema]) ?_ ?_ ?_ ?_ <;> decide

end DownloadUrl

namespace Package

theorem holds (p : Package) : p.element.Holds schema p := by
  have hfills : schema.Fills ["name", "hash", "sha256", "size", "required"]
      ([("name", p.name)] ++ optionalAttribute "hash" p.hash ++
        optionalAttribute "sha256" p.sha256 ++ [("size", toString p.size.toNat)] ++
        boolAttribute "required" p.required)
      schema.fresh p :=
    Fills.start schema
      |>.text "name" p.name (fun v s => { s with name := v }) rfl
      |>.optional "hash" p.hash (fun v s => { s with hash := v }) rfl rfl
      |>.optional "sha256" p.sha256 (fun v s => { s with sha256 := v }) rfl rfl
      |>.value "size" _ (Scalar.uint64_toString p.size) (fun v s => { s with size := v }) rfl
      |>.bool "required" p.required (fun v s => { s with required := v }) rfl
  refine .of hfills (.nil schema p []) rfl (by simp [schema]) ?_ ?_ ?_ ?_ <;> decide

end Package

namespace Action

theorem holds (a : Action) : a.element.Holds schema a := by
  have hfills : schema.Fills
      ["event", "DisplayVersion", "sha256", "needsadmin", "IsDelta", "DisablePayloadBackoff",
        "MetadataSignatureRsa", "MetadataSize", "deadline"]
      ([("event", a.event)] ++ optionalAttribute "DisplayVersion" a.displayVersion ++
        optionalAttribute "sha256" a.sha256 ++ boolAttribute "needsadmin" a.needsAdmin ++
        boolAttribute "IsDelta" a.isDelta ++
        boolAttribute "DisablePayloadBackoff" a.disablePayloadBackoff ++
        optionalAttribute "MetadataSignatureRsa" a.metadataSignatureRsa ++
        optionalAttribute "MetadataSize" a.metadataSize ++
        optionalAttribute "deadline" a.deadline)
      schema.fresh a :=
    Fills.start schema
      |>.text "event" a.event (fun v s => { s with event := v }) rfl
      |>.optional "DisplayVersion" a.displayVersion (fun v s => { s with displayVersion := v })
        rfl rfl
      |>.optional "sha256" a.sha256 (fun v s => { s with sha256 := v }) rfl rfl
      |>.bool "needsadmin" a.needsAdmin (fun v s => { s with needsAdmin := v }) rfl
      |>.bool "IsDelta" a.isDelta (fun v s => { s with isDelta := v }) rfl
      |>.bool "DisablePayloadBackoff" a.disablePayloadBackoff
        (fun v s => { s with disablePayloadBackoff := v }) rfl
      |>.optional "MetadataSignatureRsa" a.metadataSignatureRsa
        (fun v s => { s with metadataSignatureRsa := v }) rfl rfl
      |>.optional "MetadataSize" a.metadataSize (fun v s => { s with metadataSize := v }) rfl rfl
      |>.optional "deadline" a.deadline (fun v s => { s with deadline := v }) rfl rfl
  refine .of hfills (.nil schema a []) rfl (by simp [schema]) ?_ ?_ ?_ ?_ <;> decide

end Action

namespace Manifest

theorem holds (m : Manifest) : m.element.Holds schema m := by
  have hfills := Fills.start schema
    |>.text "version" m.version (fun v s => { s with version := v }) rfl
  have hgathers := Gathers.nil schema { m with packages := [], actions := [] } []
    |>.wrapped "packages" "package" "Package" m.packages Package.holds
      (fun vs s => { s with packages := vs }) (by decide) (by decide) (by decide) (fun _ => rfl)
      rfl rfl
    |>.wrapped "actions" "action" "Action" m.actions Action.holds
      (fun vs s => { s with actions := vs }) (by decide) (by decide) (by decide) (fun _ => rfl)
      rfl rfl
  refine .of hfills hgathers rfl (by simp [schema]) ?_ ?_ ?_ ?_ <;> decide

end Manifest

namespace UpdateResponse

theorem holds (u : UpdateResponse) : u.element.Holds schema u.canonical := by
  have hfills := Fills.start schema
    |>.text "status" u.status.text (fun v s => { s with status := .ofText v }) rfl
  have hgathers := Gathers.nil schema { u.canonical with urls := [], manifest := none } []
    |>.wrapped "urls" "url" "Url" u.urls DownloadUrl.holds (fun vs s => { s with urls := vs })
      (by decide) (by decide) (by decide) (fun _ => rfl) rfl rfl
    |>.ofOption "manifest" u.manifest Manifest.holds (fun v s => { s with manifest := v })
      (by decide) (fun _ => rfl) rfl rfl
  refine .of hfills hgathers rfl (by simp [schema]) ?_ ?_ ?_ ?_ <;> decide

end UpdateResponse

namespace Acknowledgement

theorem holds {name : String} (hname : IsName name) (k : Acknowledgement) :
    (k.element name).Holds schema k := by
  have hfills := Fills.start schema
    |>.text "status" k.status (fun v s => { s with status := v }) rfl
  refine .of hfills (.nil schema k []) rfl (by simp [schema]) hname ?_ ?_ ?_ <;> decide

end Acknowledgement

namespace AppResponse

theorem holds (a : AppResponse) : a.element.Holds schema a.canonical := by
  have hfills : schema.Fills ["appid", "status"] [("appid", a.id), ("status", a.status.text)]
      schema.fresh { id := a.id, status := a.status.canonical } :=
    Fills.start schema
      |>.text "appid" a.id (fun v s => { s with id := v }) rfl
      |>.text "status" a.status.text (fun v s => { s with status := .ofText v }) rfl
  have hping : IsName "ping" := by decide
  have hevent : IsName "event" := by decide
  have hgathers := Gathers.nil schema { id := a.id, status := a.status.canonical } []
    |>.ofOption "ping" a.ping (Acknowledgement.holds hping) (fun v s => { s with ping := v })
      (by decide) (fun _ => rfl) rfl rfl
    |>.ofOptionAs "updatecheck" a.updateCheck .canonical UpdateResponse.holds
      (fun v s => { s with updateCheck := v }) (by decide) (fun _ => rfl) rfl rfl
    |>.many "event" "EventResponse" a.events (Acknowledgement.holds hevent)
      (fun vs s => { s with events := vs }) (by decide) (fun _ => rfl) rfl (fun _ _ => rfl) rfl
  refine .of hfills hgathers (by simp [schema, canonical]) (by simp [schema]) ?_ ?_ ?_ ?_ <;> decide

end AppResponse

namespace DayStart

theorem holds (d : DayStart) : d.element.Holds schema d := by
  have hfills := Fills.start schema
    |>.value "elapsed_seconds" _ (Scalar.uint64_toString d.elapsedSeconds)
      (fun v s => { s with elapsedSeconds := v }) rfl
  refine .of hfills (.nil schema d []) rfl (List.forall_mem_nil _) ?_ ?_ ?_ ?_ <;> decide

end DayStart

namespace Response

theorem holds (r : Response) : r.element.Holds schema r.canonical := by
  have hfills : schema.Fills ["protocol", "server"]
      ([("protocol", r.protocol)] ++ optionalAttribute "server" r.server) schema.fresh
      { r with dayStart := none, apps := [] } :=
    Fills.start schema
      |>.text "protocol" r.protocol (fun v s => { s with protocol := v }) rfl
      |>.optional "server" r.server (fun v s => { s with server := v }) rfl rfl
  have hgathers := Gathers.nil schema { r with dayStart := none, apps := [] } []
    |>.ofOption "daystart" r.dayStart DayStart.holds (fun v s => { s with dayStart := v })
      (by decide) (fun _ => rfl) rfl rfl
    |>.manyAs "app" "AppResponse" r.apps .canonical AppResponse.holds
      (fun vs s => { s with apps := vs }) (by decide) (fun _ => rfl) rfl (fun _ _ => rfl) rfl
  refine .of hfills hgathers (by simp [schema, canonical]) (List.forall_mem_nil _)
    ?_ ?_ ?_ ?_ <;> decide

end Response

end UpdateProtocol
