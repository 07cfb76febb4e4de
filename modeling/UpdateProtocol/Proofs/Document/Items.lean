import UpdateProtocol.Proofs.Document.Parts
import UpdateProtocol.Proofs.Document.RoundTrip

namespace UpdateProtocol

open UpdateProtocol.Markup
open UpdateProtocol.Markup.Schema (field keeps_field keeps_untouched commutes_field owns_of_read
  owns_of_childless lists_of_read wraps_of_read presence_of_read)

namespace AppRequest

structure Mirrors (scope : Scope) (e : Element) (a : AppRequest) : Prop where
  own : schema.Owns scope e { a with ping := none, updateCheck := none, events := [] }
  events : e.children.Lists "event" (Event.schema.Owns (e.scope scope)) a.events

theorem schema_apart : schema.Apart :=
  ⟨by simp [schema, field], by simp [schema, field]⟩

theorem schema_strips :
    schema.Strips fun a => { a with ping := none, updateCheck := none, events := [] } where
  fresh := rfl
  attributes := by
    simp only [schema, List.forall_mem_cons, List.not_mem_nil, IsEmpty.forall_iff, implies_true,
      and_true]
    and_intros
    all_goals exact commutes_field fun _ _ => rfl
  children a := by
    simp only [schema, List.forall_mem_cons]
    exact ⟨keeps_untouched fun _ _ => by rfl, keeps_untouched fun _ _ => by rfl,
      keeps_untouched fun _ _ => by rfl, List.forall_mem_nil _⟩
  inOrder _ := rfl

theorem schema_confines_events : schema.Confines "event" AppRequest.events where
  attributes b := by
    simp only [schema, List.forall_mem_cons, List.not_mem_nil, IsEmpty.forall_iff, implies_true,
      and_true]
    and_intros
    all_goals exact keeps_field fun _ _ h => h
  children b := by
    simp only [schema, List.forall_mem_cons]
    exact ⟨fun _ => keeps_untouched fun _ _ => by rfl, fun _ => keeps_untouched fun _ _ => by rfl,
      fun hne => absurd rfl hne, List.forall_mem_nil _⟩

theorem mirrors_of_read {scope : Scope} {e : Element} {a : AppRequest}
    (h : schema.read scope e.tag e.children = .ok a) : a.Mirrors scope e where
  own := owns_of_read schema_strips schema_apart h
  events := lists_of_read schema_apart "event" AppRequest.events rfl (fun _ _ => rfl)
    schema_confines_events rfl (fun _ => rfl) h
    (owns_of_childless rfl rfl (by simp [Event.schema, field]))

end AppRequest

namespace Request

structure Mirrors (root : Element) (r : Request) : Prop where
  own : schema.Owns [] root { r with os := none, apps := [] }
  apps : root.children.Lists "app" (AppRequest.Mirrors (root.scope [])) r.apps

theorem schema_apart : schema.Apart :=
  ⟨by simp [schema, field], List.forall_mem_nil _⟩

theorem schema_strips : schema.Strips fun r => { r with os := none, apps := [] } where
  fresh := rfl
  attributes := by
    simp only [schema, List.forall_mem_cons, List.not_mem_nil, IsEmpty.forall_iff, implies_true,
      and_true]
    and_intros
    all_goals exact commutes_field fun _ _ => rfl
  children r := by
    simp only [schema, List.forall_mem_cons]
    exact ⟨keeps_untouched fun _ _ => by rfl, keeps_untouched fun _ _ => by rfl,
      List.forall_mem_nil _⟩
  inOrder _ := rfl

theorem schema_confines_apps : schema.Confines "app" Request.apps where
  attributes b := by
    simp only [schema, List.forall_mem_cons, List.not_mem_nil, IsEmpty.forall_iff, implies_true,
      and_true]
    and_intros
    all_goals exact keeps_field fun _ _ h => h
  children b := by
    simp only [schema, List.forall_mem_cons]
    exact ⟨fun _ => keeps_untouched fun _ _ => by rfl, fun hne => absurd rfl hne,
      List.forall_mem_nil _⟩

theorem mirrors_of_read {root : Element} {r : Request}
    (h : schema.read [] root.tag root.children = .ok r) : r.Mirrors root where
  own := owns_of_read schema_strips schema_apart h
  apps := lists_of_read schema_apart "app" Request.apps rfl (fun _ _ => rfl)
    schema_confines_apps rfl (fun _ => rfl) h AppRequest.mirrors_of_read

end Request

namespace Manifest

structure Mirrors (scope : Scope) (e : Element) (m : Manifest) : Prop where
  own : schema.Owns scope e { m with packages := [], actions := [] }
  packages : Wraps "package" (e.scope scope) Package.schema.Owns (e.children.named "packages")
    m.packages
  actions : Wraps "action" (e.scope scope) Action.schema.Owns (e.children.named "actions")
    m.actions

theorem schema_apart : schema.Apart :=
  ⟨by simp [schema, field], by simp [schema, field]⟩

theorem schema_strips : schema.Strips fun m => { m with packages := [], actions := [] } where
  fresh := rfl
  attributes := List.forall_mem_singleton.2 (commutes_field fun _ _ => rfl)
  children m := by
    simp only [schema, List.forall_mem_cons]
    exact ⟨keeps_untouched fun _ _ => by rfl, keeps_untouched fun _ _ => by rfl,
      List.forall_mem_nil _⟩
  inOrder _ := rfl

theorem schema_confines_packages : schema.Confines "packages" Manifest.packages where
  attributes b := List.forall_mem_singleton.2 (keeps_field fun _ _ h => h)
  children b := by
    simp only [schema, List.forall_mem_cons]
    exact ⟨fun hne => absurd rfl hne, fun _ => keeps_untouched fun _ _ => by rfl,
      List.forall_mem_nil _⟩

theorem schema_confines_actions : schema.Confines "actions" Manifest.actions where
  attributes b := List.forall_mem_singleton.2 (keeps_field fun _ _ h => h)
  children b := by
    simp only [schema, List.forall_mem_cons]
    exact ⟨fun _ => keeps_untouched fun _ _ => by rfl, fun hne => absurd rfl hne,
      List.forall_mem_nil _⟩

theorem mirrors_of_read {scope : Scope} {e : Element} {m : Manifest}
    (h : schema.read scope e.tag e.children = .ok m) : m.Mirrors scope e where
  own := owns_of_read schema_strips schema_apart h
  packages := wraps_of_read schema_apart "packages" Manifest.packages rfl (fun _ _ => rfl)
    schema_confines_packages rfl rfl h (owns_of_childless rfl rfl (by simp [Package.schema, field]))
  actions := wraps_of_read schema_apart "actions" Manifest.actions rfl (fun _ _ => rfl)
    schema_confines_actions rfl rfl h (owns_of_childless rfl rfl (by simp [Action.schema, field]))

end Manifest

namespace UpdateResponse

structure Mirrors (scope : Scope) (e : Element) (u : UpdateResponse) : Prop where
  own : schema.Owns scope e { u with urls := [], manifest := none }
  urls : Wraps "url" (e.scope scope) DownloadUrl.schema.Owns (e.children.named "urls") u.urls
  manifest : Presence (fun m => isAbsent (e.scope scope) e.tag m.tag m.children)
    (Manifest.Mirrors (e.scope scope)) (e.children.named "manifest") u.manifest

theorem schema_apart : schema.Apart :=
  ⟨by simp [schema, field], by simp [schema, field]⟩

theorem schema_strips : schema.Strips fun u => { u with urls := [], manifest := none } where
  fresh := rfl
  attributes := List.forall_mem_singleton.2 (commutes_field fun _ _ => rfl)
  children u := by
    simp only [schema, List.forall_mem_cons]
    exact ⟨keeps_untouched fun _ _ => by rfl, keeps_untouched fun _ _ => by rfl,
      List.forall_mem_nil _⟩
  inOrder _ := rfl

theorem schema_confines_urls : schema.Confines "urls" UpdateResponse.urls where
  attributes b := List.forall_mem_singleton.2 (keeps_field fun _ _ h => h)
  children b := by
    simp only [schema, List.forall_mem_cons]
    exact ⟨fun hne => absurd rfl hne, fun _ => keeps_untouched fun _ _ => by rfl,
      List.forall_mem_nil _⟩

theorem schema_confines_manifest : schema.Confines "manifest" UpdateResponse.manifest where
  attributes b := List.forall_mem_singleton.2 (keeps_field fun _ _ h => h)
  children b := by
    simp only [schema, List.forall_mem_cons]
    exact ⟨fun _ => keeps_untouched fun _ _ => by rfl, fun hne => absurd rfl hne,
      List.forall_mem_nil _⟩

theorem mirrors_of_read {scope : Scope} {e : Element} {u : UpdateResponse}
    (h : schema.read scope e.tag e.children = .ok u) : u.Mirrors scope e where
  own := owns_of_read schema_strips schema_apart h
  urls := wraps_of_read schema_apart "urls" UpdateResponse.urls rfl (fun _ _ => rfl)
    schema_confines_urls rfl rfl h (owns_of_childless rfl rfl (by simp [DownloadUrl.schema, field]))
  manifest := presence_of_read schema_apart "manifest" UpdateResponse.manifest rfl (fun _ _ => rfl)
    schema_confines_manifest rfl (fun _ => rfl) h Manifest.mirrors_of_read

end UpdateResponse

namespace AppResponse

structure Mirrors (scope : Scope) (e : Element) (a : AppResponse) : Prop where
  own : schema.Owns scope e { a with ping := none, updateCheck := none, events := [] }
  updateCheck : Presence (fun u => isAbsent (e.scope scope) e.tag u.tag u.children)
    (UpdateResponse.Mirrors (e.scope scope)) (e.children.named "updatecheck") a.updateCheck
  events : e.children.Lists "event" (Acknowledgement.schema.Owns (e.scope scope)) a.events

theorem schema_apart : schema.Apart :=
  ⟨by simp [schema, field], by simp [schema, field]⟩

theorem schema_strips :
    schema.Strips fun a => { a with ping := none, updateCheck := none, events := [] } where
  fresh := rfl
  attributes := by
    simp only [schema, List.forall_mem_cons, List.not_mem_nil, IsEmpty.forall_iff, implies_true,
      and_true]
    and_intros
    all_goals exact commutes_field fun _ _ => rfl
  children a := by
    simp only [schema, List.forall_mem_cons]
    exact ⟨keeps_untouched fun _ _ => by rfl, keeps_untouched fun _ _ => by rfl,
      keeps_untouched fun _ _ => by rfl, List.forall_mem_nil _⟩
  inOrder _ := rfl

theorem schema_confines_updateCheck : schema.Confines "updatecheck" AppResponse.updateCheck where
  attributes b := by
    simp only [schema, List.forall_mem_cons]
    exact ⟨keeps_field fun _ _ h => h, keeps_field fun _ _ h => h, List.forall_mem_nil _⟩
  children b := by
    simp only [schema, List.forall_mem_cons]
    exact ⟨fun _ => keeps_untouched fun _ _ => by rfl, fun hne => absurd rfl hne,
      fun _ => keeps_untouched fun _ _ => by rfl, List.forall_mem_nil _⟩

theorem schema_confines_events : schema.Confines "event" AppResponse.events where
  attributes b := by
    simp only [schema, List.forall_mem_cons]
    exact ⟨keeps_field fun _ _ h => h, keeps_field fun _ _ h => h, List.forall_mem_nil _⟩
  children b := by
    simp only [schema, List.forall_mem_cons]
    exact ⟨fun _ => keeps_untouched fun _ _ => by rfl, fun _ => keeps_untouched fun _ _ => by rfl,
      fun hne => absurd rfl hne, List.forall_mem_nil _⟩

theorem mirrors_of_read {scope : Scope} {e : Element} {a : AppResponse}
    (h : schema.read scope e.tag e.children = .ok a) : a.Mirrors scope e where
  own := owns_of_read schema_strips schema_apart h
  updateCheck := presence_of_read schema_apart "updatecheck" AppResponse.updateCheck rfl
    (fun _ _ => rfl) schema_confines_updateCheck rfl (fun _ => rfl) h UpdateResponse.mirrors_of_read
  events := lists_of_read schema_apart "event" AppResponse.events rfl (fun _ _ => rfl)
    schema_confines_events rfl (fun _ => rfl) h
    (owns_of_childless rfl rfl (by simp [Acknowledgement.schema, field]))

end AppResponse

namespace Response

structure Mirrors (root : Element) (r : Response) : Prop where
  own : schema.Owns [] root { r with dayStart := none, apps := [] }
  apps : root.children.Lists "app" (AppResponse.Mirrors (root.scope [])) r.apps

theorem schema_apart : schema.Apart :=
  ⟨by simp [schema, field], List.forall_mem_nil _⟩

theorem schema_strips : schema.Strips fun r => { r with dayStart := none, apps := [] } where
  fresh := rfl
  attributes := by
    simp only [schema, List.forall_mem_cons, List.not_mem_nil, IsEmpty.forall_iff, implies_true,
      and_true]
    and_intros
    all_goals exact commutes_field fun _ _ => rfl
  children r := by
    simp only [schema, List.forall_mem_cons]
    exact ⟨keeps_untouched fun _ _ => by rfl, keeps_untouched fun _ _ => by rfl,
      List.forall_mem_nil _⟩
  inOrder _ := rfl

theorem schema_confines_apps : schema.Confines "app" Response.apps where
  attributes b := by
    simp only [schema, List.forall_mem_cons]
    exact ⟨keeps_field fun _ _ h => h, keeps_field fun _ _ h => h, List.forall_mem_nil _⟩
  children b := by
    simp only [schema, List.forall_mem_cons]
    exact ⟨fun _ => keeps_untouched fun _ _ => by rfl, fun hne => absurd rfl hne,
      List.forall_mem_nil _⟩

theorem mirrors_of_read {root : Element} {r : Response}
    (h : schema.read [] root.tag root.children = .ok r) : r.Mirrors root where
  own := owns_of_read schema_strips schema_apart h
  apps := lists_of_read schema_apart "app" Response.apps rfl (fun _ _ => rfl)
    schema_confines_apps rfl (fun _ => rfl) h AppResponse.mirrors_of_read

end Response

namespace Document

end Document

end UpdateProtocol
