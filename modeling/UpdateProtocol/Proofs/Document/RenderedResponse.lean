import UpdateProtocol.Proofs.Document.Canonical
import UpdateProtocol.Proofs.Document.Collects

namespace UpdateProtocol

open UpdateProtocol.Markup
open UpdateProtocol.Markup.Schema (Yields Collects swaps_field swaps_keep)

namespace DownloadUrl

theorem schema_independent : schema.Independent :=
  .of_childless rfl (by decide) (by decide) (List.pairwise_singleton ..)
    (by simp [schema, Schema.field])

theorem readsAs_of_renders {e : Source.Element} {u : DownloadUrl} (h : u.Renders e) :
    schema.ReadsAs e u := by
  intro hfine
  have hyields : Yields e.tag schema.attributes schema.fresh u :=
    Yields.start hfine.tag h.fits.plain schema.fresh
      |>.value h.codebase Scalar.text_of_spells (fun v s => { s with codebase := v })
  have hrequired : ∀ f ∈ schema.required, e.tag.Has f :=
    List.forall_mem_singleton.2 (Source.Tag.has_of_rel h.codebase)
  exact Schema.read_of_yields schema_independent rfl hfine h.fits hyields hrequired

end DownloadUrl

namespace Package

theorem schema_independent : schema.Independent := by
  refine .of_childless rfl (by decide) (by decide) ?_ (by simp [schema, Schema.field])
  simp only [schema, List.pairwise_cons, List.forall_mem_cons, List.not_mem_nil,
    IsEmpty.forall_iff, implies_true, List.Pairwise.nil, and_true]
  and_intros
  all_goals exact swaps_field fun _ _ _ => rfl

theorem readsAs_of_renders {e : Source.Element} {p : Package} (h : p.Renders e) :
    schema.ReadsAs e p := by
  intro hfine
  have hyields : Yields e.tag schema.attributes schema.fresh p :=
    Yields.start hfine.tag h.fits.plain schema.fresh
      |>.value h.name Scalar.text_of_spells (fun v s => { s with name := v })
      |>.optional h.hash Scalar.text_of_spells (fun v s => { s with hash := v }) rfl
      |>.optional h.sha256 Scalar.text_of_spells (fun v s => { s with sha256 := v }) rfl
      |>.given h.size Scalar.uint64_of_spells (fun v s => { s with size := v }) rfl
      |>.given h.required Scalar.bool_of_spells (fun v s => { s with required := v }) rfl
  have hrequired : ∀ f ∈ schema.required, e.tag.Has f :=
    List.forall_mem_singleton.2 (Source.Tag.has_of_rel h.name)
  exact Schema.read_of_yields schema_independent rfl hfine h.fits hyields hrequired

end Package

namespace Action

theorem schema_independent : schema.Independent := by
  refine .of_childless rfl (by decide) (by decide) ?_ (by simp [schema, Schema.field])
  simp only [schema, List.pairwise_cons, List.forall_mem_cons, List.not_mem_nil,
    IsEmpty.forall_iff, implies_true, List.Pairwise.nil, and_true]
  and_intros
  all_goals exact swaps_field fun _ _ _ => rfl

theorem readsAs_of_renders {e : Source.Element} {a : Action} (h : a.Renders e) :
    schema.ReadsAs e a := by
  intro hfine
  have hyields : Yields e.tag schema.attributes schema.fresh a :=
    Yields.start hfine.tag h.fits.plain schema.fresh
      |>.value h.event Scalar.text_of_spells (fun v s => { s with event := v })
      |>.optional h.displayVersion Scalar.text_of_spells
        (fun v s => { s with displayVersion := v }) rfl
      |>.optional h.sha256 Scalar.text_of_spells (fun v s => { s with sha256 := v }) rfl
      |>.given h.needsAdmin Scalar.bool_of_spells (fun v s => { s with needsAdmin := v }) rfl
      |>.given h.isDelta Scalar.bool_of_spells (fun v s => { s with isDelta := v }) rfl
      |>.given h.disablePayloadBackoff Scalar.bool_of_spells
        (fun v s => { s with disablePayloadBackoff := v }) rfl
      |>.optional h.metadataSignatureRsa Scalar.text_of_spells
        (fun v s => { s with metadataSignatureRsa := v }) rfl
      |>.optional h.metadataSize Scalar.text_of_spells (fun v s => { s with metadataSize := v }) rfl
      |>.optional h.deadline Scalar.text_of_spells (fun v s => { s with deadline := v }) rfl
  have hrequired : ∀ f ∈ schema.required, e.tag.Has f :=
    List.forall_mem_singleton.2 (Source.Tag.has_of_rel h.event)
  exact Schema.read_of_yields schema_independent rfl hfine h.fits hyields hrequired

end Action

namespace Manifest

theorem schema_independent : schema.Independent where
  attributeNames := by decide
  marked := by decide
  attributes := List.pairwise_singleton ..
  childNames := by decide
  children := by
    simp only [schema, List.pairwise_cons, List.forall_mem_cons, List.not_mem_nil,
      IsEmpty.forall_iff, implies_true, List.Pairwise.nil, and_true]
    exact swaps_keep rfl rfl fun _ _ _ => rfl
  apart := ⟨by simp [schema, Schema.field], by simp [schema, Schema.field]⟩

theorem readsAs_of_renders {e : Source.Element} {m : Manifest} (h : m.Renders e) :
    schema.ReadsAs e m := by
  intro hfine
  have hyields : Yields e.tag schema.attributes schema.fresh
      { m with packages := [], actions := [] } :=
    Yields.start hfine.tag h.fits.plain schema.fresh
      |>.value h.version Scalar.text_of_spells (fun v s => { s with version := v })
  have hcollects : schema.Collects e schema.children { m with packages := [], actions := [] } m :=
    Collects.start schema hfine h.fits { m with packages := [], actions := [] }
      |>.wrapped (h.packages.imp fun _ _ => Package.readsAs_of_renders) "Package"
        (fun vs s => { s with packages := vs }) rfl rfl
      |>.wrapped (h.actions.imp fun _ _ => Action.readsAs_of_renders) "Action"
        (fun vs s => { s with actions := vs }) rfl rfl
  have hrequired : ∀ f ∈ schema.required, e.tag.Has f :=
    List.forall_mem_singleton.2 (Source.Tag.has_of_rel h.version)
  exact hcollects.read schema_independent hyields hrequired

end Manifest

namespace UpdateResponse

theorem schema_independent : schema.Independent where
  attributeNames := by decide
  marked := by decide
  attributes := List.pairwise_singleton ..
  childNames := by decide
  children := by
    simp only [schema, List.pairwise_cons, List.forall_mem_cons, List.not_mem_nil,
      IsEmpty.forall_iff, implies_true, List.Pairwise.nil, and_true]
    exact swaps_keep rfl rfl fun _ _ _ => rfl
  apart := ⟨by simp [schema, Schema.field], by simp [schema, Schema.field]⟩

theorem readsAs_of_renders {e : Source.Element} {u : UpdateResponse} (h : u.Renders e) :
    schema.ReadsAs e u.canonical := by
  intro hfine
  have hyields : Yields e.tag schema.attributes schema.fresh
      { u.canonical with urls := [], manifest := none } :=
    Yields.start hfine.tag h.fits.plain schema.fresh
      |>.value h.status Scalar.text_of_spells (fun v s => { s with status := .ofText v })
  have hcollects : schema.Collects e schema.children
      { u.canonical with urls := [], manifest := none } u.canonical :=
    Collects.start schema hfine h.fits { u.canonical with urls := [], manifest := none }
      |>.wrapped (h.urls.imp fun _ _ => DownloadUrl.readsAs_of_renders) "Url"
        (fun vs s => { s with urls := vs }) rfl rfl
      |>.optional (h.manifest.imp fun _ _ => Manifest.readsAs_of_renders)
        (fun v s => { s with manifest := v }) rfl rfl
  have hrequired : ∀ f ∈ schema.required, e.tag.Has f :=
    List.forall_mem_singleton.2 (Source.Tag.has_of_rel h.status)
  exact hcollects.read schema_independent hyields hrequired

end UpdateResponse

namespace Acknowledgement

theorem schema_independent : schema.Independent :=
  .of_childless rfl (by decide) (by decide) (List.pairwise_singleton ..)
    (by simp [schema, Schema.field])

theorem readsAs_of_renders {e : Source.Element} {k : Acknowledgement} (h : k.Renders e) :
    schema.ReadsAs e k := by
  intro hfine
  have hyields : Yields e.tag schema.attributes schema.fresh k :=
    Yields.start hfine.tag h.fits.plain schema.fresh
      |>.value h.status Scalar.text_of_spells (fun v s => { s with status := v })
  have hrequired : ∀ f ∈ schema.required, e.tag.Has f :=
    List.forall_mem_singleton.2 (Source.Tag.has_of_rel h.status)
  exact Schema.read_of_yields schema_independent rfl hfine h.fits hyields hrequired

end Acknowledgement

namespace AppResponse

theorem schema_independent : schema.Independent where
  attributeNames := by decide
  marked := by decide
  attributes := by
    simp only [schema, List.pairwise_cons, List.forall_mem_cons, List.not_mem_nil,
      IsEmpty.forall_iff, implies_true, List.Pairwise.nil, and_true]
    exact swaps_field fun _ _ _ => rfl
  childNames := by decide
  children := by
    simp only [schema, List.pairwise_cons, List.forall_mem_cons, List.not_mem_nil,
      IsEmpty.forall_iff, implies_true, List.Pairwise.nil, and_true]
    and_intros
    all_goals exact swaps_keep rfl rfl fun _ _ _ => rfl
  apart := ⟨by simp [schema, Schema.field], by simp [schema, Schema.field]⟩

theorem readsAs_of_renders {e : Source.Element} {a : AppResponse} (h : a.Renders e) :
    schema.ReadsAs e a.canonical := by
  intro hfine
  have hyields : Yields e.tag schema.attributes schema.fresh
      { a.canonical with ping := none, updateCheck := none, events := [] } :=
    Yields.start hfine.tag h.fits.plain schema.fresh
      |>.value h.id Scalar.text_of_spells (fun v s => { s with id := v })
      |>.given h.status Scalar.text_of_spells (fun v s => { s with status := .ofText v }) rfl
  have hupdateCheck : List.Forall₂ UpdateResponse.schema.ReadsAs (e.children.named "updatecheck")
      a.canonical.updateCheck.toList := by
    rw [canonical, Option.toList_map, List.forall₂_map_right_iff]
    exact h.updateCheck.imp fun _ _ => UpdateResponse.readsAs_of_renders
  have hcollects : schema.Collects e schema.children
      { a.canonical with ping := none, updateCheck := none, events := [] }
      { a.canonical with events := a.events.reverse } :=
    Collects.start schema hfine h.fits
        { a.canonical with ping := none, updateCheck := none, events := [] }
      |>.optional (h.ping.imp fun _ _ => Acknowledgement.readsAs_of_renders)
        (fun v s => { s with ping := v }) rfl rfl
      |>.optional hupdateCheck (fun v s => { s with updateCheck := v }) rfl rfl
      |>.many h.row (h.events.imp fun _ _ => Acknowledgement.readsAs_of_renders) "EventResponse"
        (fun vs s => { s with events := vs }) rfl (fun _ _ => rfl) rfl
  have hrequired : ∀ f ∈ schema.required, e.tag.Has f :=
    List.forall_mem_singleton.2 (Source.Tag.has_of_rel h.id)
  have hread := hcollects.read schema_independent hyields hrequired
  simpa [schema, canonical] using hread

end AppResponse

namespace DayStart

theorem schema_independent : schema.Independent :=
  .of_childless rfl (by decide) (by decide) (List.pairwise_singleton ..) (List.forall_mem_nil _)

theorem readsAs_of_renders {e : Source.Element} {d : DayStart} (h : d.Renders e) :
    schema.ReadsAs e d := by
  intro hfine
  have hyields : Yields e.tag schema.attributes schema.fresh d :=
    Yields.start hfine.tag h.fits.plain schema.fresh
      |>.given h.elapsedSeconds Scalar.uint64_of_spells (fun v s => { s with elapsedSeconds := v })
        rfl
  exact Schema.read_of_yields schema_independent rfl hfine h.fits hyields (List.forall_mem_nil _)

end DayStart

namespace Response

theorem schema_independent : schema.Independent where
  attributeNames := by decide
  marked := by decide
  attributes := by
    simp only [schema, List.pairwise_cons, List.forall_mem_cons, List.not_mem_nil,
      IsEmpty.forall_iff, implies_true, List.Pairwise.nil, and_true]
    exact swaps_field fun _ _ _ => rfl
  childNames := by decide
  children := by
    simp only [schema, List.pairwise_cons, List.forall_mem_cons, List.not_mem_nil,
      IsEmpty.forall_iff, implies_true, List.Pairwise.nil, and_true]
    exact swaps_keep rfl rfl fun _ _ _ => rfl
  apart := ⟨by simp [schema, Schema.field], List.forall_mem_nil _⟩

theorem readsAs_of_renders {e : Source.Element} {r : Response} (h : r.Renders e) :
    schema.ReadsAs e r.canonical := by
  intro hfine
  have hyields : Yields e.tag schema.attributes schema.fresh
      { r with dayStart := none, apps := [] } :=
    Yields.start hfine.tag h.fits.plain schema.fresh
      |>.value h.protocol Scalar.text_of_spells (fun v s => { s with protocol := v })
      |>.optional h.server Scalar.text_of_spells (fun v s => { s with server := v }) rfl
  have happs : List.Forall₂ AppResponse.schema.ReadsAs (e.children.named "app")
      r.canonical.apps := by
    rw [canonical, List.forall₂_map_right_iff]
    exact h.apps.imp fun _ _ => AppResponse.readsAs_of_renders
  have hcollects : schema.Collects e schema.children { r with dayStart := none, apps := [] }
      { r with apps := r.canonical.apps.reverse } :=
    Collects.start schema hfine h.fits { r with dayStart := none, apps := [] }
      |>.optional (h.dayStart.imp fun _ _ => DayStart.readsAs_of_renders)
        (fun v s => { s with dayStart := v }) rfl rfl
      |>.many h.row happs "AppResponse" (fun vs s => { s with apps := vs }) rfl (fun _ _ => rfl)
        rfl
  have hread := hcollects.read schema_independent hyields (List.forall_mem_nil _)
  simpa [schema, canonical] using hread

end Response

end UpdateProtocol
