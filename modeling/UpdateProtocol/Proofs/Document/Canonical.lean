import UpdateProtocol.Document.Response
import UpdateProtocol.Proofs.Markup.Kept

namespace UpdateProtocol

open UpdateProtocol.Markup
open UpdateProtocol.Markup.Schema (keeps_field keeps_keep)

namespace AppStatus

def canonical (s : AppStatus) : AppStatus := ofText s.text

@[simp]
theorem canonical_ofText (t : String) : (ofText t).canonical = ofText t := by
  rw [canonical, text_ofText]

end AppStatus

namespace UpdateStatus

def canonical (s : UpdateStatus) : UpdateStatus := ofText s.text

@[simp]
theorem canonical_ofText (t : String) : (ofText t).canonical = ofText t := by
  rw [canonical, text_ofText]

end UpdateStatus

namespace UpdateResponse

def canonical (u : UpdateResponse) : UpdateResponse := { u with status := u.status.canonical }

def IsCanonical (u : UpdateResponse) : Prop := u.status.canonical = u.status

theorem canonical_eq_self_iff {u : UpdateResponse} : u.canonical = u ↔ u.IsCanonical := by
  cases u
  simp [canonical, IsCanonical]

theorem schema_keeps : schema.Keeps IsCanonical where
  fresh := rfl
  attributes := by
    simp only [schema, List.mem_singleton, forall_eq]
    exact keeps_field fun v _ _ => UpdateStatus.canonical_ofText v
  children := by
    simp only [schema, List.forall_mem_cons]
    refine ⟨?urls, ?manifest, List.forall_mem_nil _⟩
    case urls => exact keeps_keep (fun _ => trivial) fun _ _ _ hu => hu
    case manifest => exact keeps_keep (fun _ => trivial) fun _ _ _ hu => hu
  inOrder _ hu := hu

end UpdateResponse

namespace AppResponse

def canonical (a : AppResponse) : AppResponse :=
  { a with status := a.status.canonical, updateCheck := a.updateCheck.map .canonical }

def IsCanonical (a : AppResponse) : Prop :=
  a.status.canonical = a.status ∧ ∀ u ∈ a.updateCheck, u.IsCanonical

theorem canonical_eq_self_iff {a : AppResponse} : a.canonical = a ↔ a.IsCanonical := by
  obtain ⟨id, status, ping, updateCheck, events⟩ := a
  cases updateCheck <;> simp [canonical, IsCanonical, UpdateResponse.canonical_eq_self_iff]

theorem schema_keeps : schema.Keeps IsCanonical where
  fresh := ⟨rfl, by simp [schema]⟩
  attributes := by
    simp only [schema, List.forall_mem_cons]
    refine ⟨?id, ?status, List.forall_mem_nil _⟩
    case id => exact keeps_field fun _ _ ha => ha
    case status => exact keeps_field fun v _ ha => ⟨AppStatus.canonical_ofText v, ha.2⟩
  children := by
    simp only [schema, List.forall_mem_cons]
    refine ⟨?ping, ?updateCheck, ?events, List.forall_mem_nil _⟩
    case ping => exact keeps_keep (fun _ => trivial) fun _ _ _ ha => ha
    case updateCheck =>
      refine keeps_keep (Schema.read_keeps UpdateResponse.schema_keeps) fun v a hv ha => ⟨ha.1, ?_⟩
      intro u hu
      cases hu
      exact hv
    case events => exact keeps_keep (fun _ => trivial) fun _ _ _ ha => ha
  inOrder _ ha := ha

end AppResponse

namespace Response

def canonical (r : Response) : Response := { r with apps := r.apps.map .canonical }

def IsCanonical (r : Response) : Prop := ∀ a ∈ r.apps, a.IsCanonical

theorem canonical_eq_self_iff {r : Response} : r.canonical = r ↔ r.IsCanonical := by
  obtain ⟨protocol, server, dayStart, apps⟩ := r
  have hmap : apps.map AppResponse.canonical = apps.map id ↔ ∀ a ∈ apps, a.canonical = a :=
    List.map_inj_left
  rw [List.map_id] at hmap
  simp [canonical, IsCanonical, hmap, AppResponse.canonical_eq_self_iff]

theorem schema_keeps : schema.Keeps IsCanonical where
  fresh := List.forall_mem_nil _
  attributes := by
    simp only [schema, List.forall_mem_cons]
    refine ⟨?protocol, ?server, List.forall_mem_nil _⟩
    case protocol => exact keeps_field fun _ _ hr => hr
    case server => exact keeps_field fun _ _ hr => hr
  children := by
    simp only [schema, List.forall_mem_cons]
    refine ⟨?dayStart, ?apps, List.forall_mem_nil _⟩
    case dayStart => exact keeps_keep (fun _ => trivial) fun _ _ _ hr => hr
    case apps =>
      refine keeps_keep (Schema.read_keeps AppResponse.schema_keeps) fun v r hv hr => ?_
      exact List.forall_mem_cons.2 ⟨hv, hr⟩
  inOrder _ hr a ha := hr a (List.mem_reverse.1 ha)

end Response

end UpdateProtocol
