import UpdateProtocol.Proofs.Document.Collects

namespace UpdateProtocol

open UpdateProtocol.Markup
open UpdateProtocol.Markup.Schema (Yields Collects swaps_field swaps_keep)

namespace Os

theorem schema_independent : schema.Independent := by
  refine .of_childless rfl (by decide) (by decide) ?_ (List.forall_mem_nil _)
  simp only [schema, List.pairwise_cons, List.forall_mem_cons, List.not_mem_nil,
    IsEmpty.forall_iff, implies_true, List.Pairwise.nil, and_true]
  and_intros
  all_goals exact swaps_field fun _ _ _ => rfl

theorem readsAs_of_renders {e : Source.Element} {o : Os} (h : o.Renders e) :
    schema.ReadsAs e o := by
  intro hfine
  have hyields : Yields e.tag schema.attributes schema.fresh o :=
    Yields.start hfine.tag h.fits.plain schema.fresh
      |>.optional h.platform Scalar.text_of_spells (fun v s => { s with platform := v }) rfl
      |>.optional h.version Scalar.text_of_spells (fun v s => { s with version := v }) rfl
      |>.optional h.servicePack Scalar.text_of_spells (fun v s => { s with servicePack := v }) rfl
      |>.optional h.arch Scalar.text_of_spells (fun v s => { s with arch := v }) rfl
  exact Schema.read_of_yields schema_independent rfl hfine h.fits hyields (List.forall_mem_nil _)

end Os

namespace PingRequest

theorem schema_independent : schema.Independent := by
  refine .of_childless rfl (by decide) (by decide) ?_ (List.forall_mem_nil _)
  simp only [schema, List.pairwise_cons, List.forall_mem_cons, List.not_mem_nil,
    IsEmpty.forall_iff, implies_true, List.Pairwise.nil, and_true]
  and_intros
  all_goals exact swaps_field fun _ _ _ => rfl

theorem readsAs_of_renders {e : Source.Element} {p : PingRequest} (h : p.Renders e) :
    schema.ReadsAs e p := by
  intro hfine
  have hyields : Yields e.tag schema.attributes schema.fresh p :=
    Yields.start hfine.tag h.fits.plain schema.fresh
      |>.optional h.active Scalar.int32_of_spells (fun v s => { s with active := v }) rfl
      |>.optional h.lastActiveDays Scalar.int32_of_spells
        (fun v s => { s with lastActiveDays := v }) rfl
      |>.optional h.lastReportDays Scalar.int32_of_spells
        (fun v s => { s with lastReportDays := v }) rfl
      |>.optional h.activeDay Scalar.int32_of_spells (fun v s => { s with activeDay := v }) rfl
      |>.optional h.reportDay Scalar.int32_of_spells (fun v s => { s with reportDay := v }) rfl
  exact Schema.read_of_yields schema_independent rfl hfine h.fits hyields (List.forall_mem_nil _)

end PingRequest

namespace UpdateRequest

theorem schema_independent : schema.Independent :=
  .of_childless rfl (by decide) (by decide) (List.pairwise_singleton ..) (List.forall_mem_nil _)

theorem readsAs_of_renders {e : Source.Element} {u : UpdateRequest} (h : u.Renders e) :
    schema.ReadsAs e u := by
  intro hfine
  have hyields : Yields e.tag schema.attributes schema.fresh u :=
    Yields.start hfine.tag h.fits.plain schema.fresh
      |>.optional h.targetVersion Scalar.text_of_spells
        (fun v s => { s with targetVersion := v }) rfl
  exact Schema.read_of_yields schema_independent rfl hfine h.fits hyields (List.forall_mem_nil _)

end UpdateRequest

namespace Event

theorem schema_independent : schema.Independent := by
  refine .of_childless rfl (by decide) (by decide) ?_ (by simp [schema, Schema.field])
  simp only [schema, List.pairwise_cons, List.forall_mem_cons, List.not_mem_nil,
    IsEmpty.forall_iff, implies_true, List.Pairwise.nil, and_true]
  and_intros
  all_goals exact swaps_field fun _ _ _ => rfl

theorem readsAs_of_renders {e : Source.Element} {v : Event} (h : v.Renders e) :
    schema.ReadsAs e v := by
  intro hfine
  have hyields : Yields e.tag schema.attributes schema.fresh v :=
    Yields.start hfine.tag h.fits.plain schema.fresh
      |>.value h.type Scalar.int32_of_spells (fun v s => { s with type := ⟨v⟩ })
      |>.value h.result Scalar.int32_of_spells (fun v s => { s with result := ⟨v⟩ })
      |>.optional h.previousVersion Scalar.text_of_spells
        (fun v s => { s with previousVersion := v }) rfl
      |>.given h.errorCode Scalar.int32_of_spells (fun v s => { s with errorCode := v }) rfl
  have hrequired : ∀ f ∈ schema.required, e.tag.Has f :=
    List.forall_mem_cons.2 ⟨Source.Tag.has_of_rel h.type,
      List.forall_mem_singleton.2 (Source.Tag.has_of_rel h.result)⟩
  exact Schema.read_of_yields schema_independent rfl hfine h.fits hyields hrequired

end Event

namespace AppRequest

theorem schema_independent : schema.Independent where
  attributeNames := by decide
  marked := by decide
  attributes := by
    simp only [schema, List.pairwise_cons, List.forall_mem_cons, List.not_mem_nil,
      IsEmpty.forall_iff, implies_true, List.Pairwise.nil, and_true]
    and_intros
    all_goals exact swaps_field fun _ _ _ => rfl
  childNames := by decide
  children := by
    simp only [schema, List.pairwise_cons, List.forall_mem_cons, List.not_mem_nil,
      IsEmpty.forall_iff, implies_true, List.Pairwise.nil, and_true]
    and_intros
    all_goals exact swaps_keep rfl rfl fun _ _ _ => rfl
  apart := ⟨by simp [schema, Schema.field], by simp [schema, Schema.field]⟩

theorem readsAs_of_renders {e : Source.Element} {a : AppRequest} (h : a.Renders e) :
    schema.ReadsAs e a := by
  intro hfine
  have hyields : Yields e.tag schema.attributes schema.fresh
      { a with ping := none, updateCheck := none, events := [] } :=
    Yields.start hfine.tag h.fits.plain schema.fresh
      |>.value h.id Scalar.text_of_spells (fun v s => { s with id := v })
      |>.optional h.version Scalar.text_of_spells (fun v s => { s with version := v }) rfl
      |>.optional h.nextVersion Scalar.text_of_spells (fun v s => { s with nextVersion := v }) rfl
      |>.optional h.lang Scalar.text_of_spells (fun v s => { s with lang := v }) rfl
      |>.optional h.client Scalar.text_of_spells (fun v s => { s with client := v }) rfl
      |>.optional h.installAge Scalar.text_of_spells (fun v s => { s with installAge := v }) rfl
      |>.optional h.track Scalar.text_of_spells (fun v s => { s with track := v }) rfl
      |>.optional h.fromTrack Scalar.text_of_spells (fun v s => { s with fromTrack := v }) rfl
      |>.optional h.board Scalar.text_of_spells (fun v s => { s with board := v }) rfl
      |>.given h.deltaOk Scalar.bool_of_spells (fun v s => { s with deltaOk := v }) rfl
      |>.optional h.oem Scalar.text_of_spells (fun v s => { s with oem := v }) rfl
      |>.optional h.oemVersion Scalar.text_of_spells (fun v s => { s with oemVersion := v }) rfl
      |>.optional h.alephVersion Scalar.text_of_spells (fun v s => { s with alephVersion := v }) rfl
      |>.optional h.machineId Scalar.text_of_spells (fun v s => { s with machineId := v }) rfl
      |>.optional h.bootId Scalar.text_of_spells (fun v s => { s with bootId := v }) rfl
  have hcollects : schema.Collects e schema.children
      { a with ping := none, updateCheck := none, events := [] }
      { a with events := a.events.reverse } :=
    Collects.start schema hfine h.fits { a with ping := none, updateCheck := none, events := [] }
      |>.optional (h.ping.imp fun _ _ => PingRequest.readsAs_of_renders)
        (fun v s => { s with ping := v }) rfl rfl
      |>.optional (h.updateCheck.imp fun _ _ => UpdateRequest.readsAs_of_renders)
        (fun v s => { s with updateCheck := v }) rfl rfl
      |>.many h.row (h.events.imp fun _ _ => Event.readsAs_of_renders) "EventRequest"
        (fun vs s => { s with events := vs }) rfl (fun _ _ => rfl) rfl
  have hrequired : ∀ f ∈ schema.required, e.tag.Has f :=
    List.forall_mem_singleton.2 (Source.Tag.has_of_rel h.id)
  have hread := hcollects.read schema_independent hyields hrequired
  simpa [schema] using hread

end AppRequest

namespace Request

theorem schema_independent : schema.Independent where
  attributeNames := by decide
  marked := by decide
  attributes := by
    simp only [schema, List.pairwise_cons, List.forall_mem_cons, List.not_mem_nil,
      IsEmpty.forall_iff, implies_true, List.Pairwise.nil, and_true]
    and_intros
    all_goals exact swaps_field fun _ _ _ => rfl
  childNames := by decide
  children := by
    simp only [schema, List.pairwise_cons, List.forall_mem_cons, List.not_mem_nil,
      IsEmpty.forall_iff, implies_true, List.Pairwise.nil, and_true]
    exact swaps_keep rfl rfl fun _ _ _ => rfl
  apart := ⟨by simp [schema, Schema.field], List.forall_mem_nil _⟩

theorem readsAs_of_renders {e : Source.Element} {r : Request} (h : r.Renders e) :
    schema.ReadsAs e r := by
  intro hfine
  have hyields : Yields e.tag schema.attributes schema.fresh { r with os := none, apps := [] } :=
    Yields.start hfine.tag h.fits.plain schema.fresh
      |>.value h.protocol Scalar.text_of_spells (fun v s => { s with protocol := v })
      |>.optional h.version Scalar.text_of_spells (fun v s => { s with version := v }) rfl
      |>.optional h.updaterVersion Scalar.text_of_spells
        (fun v s => { s with updaterVersion := v }) rfl
      |>.given h.isMachine Scalar.looseBool_of_spells (fun v s => { s with isMachine := v }) rfl
      |>.optional h.sessionId Scalar.text_of_spells (fun v s => { s with sessionId := v }) rfl
      |>.optional h.userId Scalar.text_of_spells (fun v s => { s with userId := v }) rfl
      |>.optional h.installSource Scalar.text_of_spells
        (fun v s => { s with installSource := v }) rfl
      |>.optional h.testSource Scalar.text_of_spells (fun v s => { s with testSource := v }) rfl
      |>.optional h.requestId Scalar.text_of_spells (fun v s => { s with requestId := v }) rfl
  have hcollects : schema.Collects e schema.children { r with os := none, apps := [] }
      { r with apps := r.apps.reverse } :=
    Collects.start schema hfine h.fits { r with os := none, apps := [] }
      |>.optional (h.os.imp fun _ _ => Os.readsAs_of_renders) (fun v s => { s with os := v })
        rfl rfl
      |>.many h.row (h.apps.imp fun _ _ => AppRequest.readsAs_of_renders) "AppRequest"
        (fun vs s => { s with apps := vs }) rfl (fun _ _ => rfl) rfl
  have hread := hcollects.read schema_independent hyields (List.forall_mem_nil _)
  simpa [schema] using hread

end Request

end UpdateProtocol
