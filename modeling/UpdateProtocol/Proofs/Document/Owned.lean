import Mathlib.Data.List.Nodup
import UpdateProtocol.Proofs.Document.Elements

namespace UpdateProtocol

open UpdateProtocol.Markup

namespace Markup

variable {σ α : Type}

def Tag.attributes (tag : Tag) : List Attribute :=
  (Attribute.strictly [] (Attribute.items tag.text)).1

def Tag.isFine (tag : Tag) : Bool :=
  (Attribute.strictly [] (Attribute.items tag.text)).2

theorem Leads.map {ε γ β : Type} {step : ε → γ → γ → Prop} {on : ε → β → β → Prop} {get : γ → β}
    {es : List ε} {g g' : γ} (h : Leads step es g g')
    (hon : ∀ e s t, step e s t → on e (get s) (get t)) : Leads on es (get g) (get g') := by
  induction h with
  | nil g => exact .nil _
  | cons first _ ih => exact .cons (hon _ _ _ first) ih

end Markup

def Element.scope (e : Element) (outer : Scope) : Scope := (outer.enter? e.tag.text).getD outer

namespace Markup.Schema

variable {σ α : Type} {sch : Schema σ}

def fieldOf (a : Attribute) : String := fieldOfKey a.key

def nameOf (e : Element) : String := e.tag.plainName

inductive Gives (sch : Schema σ) (a : Attribute) (s : σ) : σ → Prop
  | unknown (h : sch.attributes.lookup (fieldOf a) = none) : Gives sch a s s
  | known {f : Field σ} {t : σ} (h : sch.attributes.lookup (fieldOf a) = some f)
      (hvalue : f.ofValue a.value s = .ok t) : Gives sch a s t

/-- What a child does that stands for an attribute: it has the name of the field, and its text is
the value. -/
inductive Enters (sch : Schema σ) (scope : Scope) (parent : Tag) (e : Element) (s : σ) : σ → Prop
  | unknown (h : sch.attributes.lookup (nameOf e) = none) : Enters sch scope parent e s s
  | absent {f : Field σ} (h : sch.attributes.lookup (nameOf e) = some f)
      (hoptional : f.isOptional = true) (habsent : isAbsent scope parent e.tag e.children = true) :
      Enters sch scope parent e s s
  | known {f : Field σ} {text : List Char} {t : σ} (h : sch.attributes.lookup (nameOf e) = some f)
      (hpresent : f.isOptional = true → isAbsent scope parent e.tag e.children = false)
      (htext : leaf e.children = .ok text) (hread : f.ofText text s = .ok t) :
      Enters sch scope parent e s t

def isField (sch : Schema σ) (name : String) : Bool := (sch.attributes.lookup name).isSome

def given (e : Element) : List String :=
  e.tag.attributes.map fieldOf ++ e.children.elements.map nameOf

structure Owns (sch : Schema σ) (scope : Scope) (e : Element) (v : σ) : Prop where
  fine : e.tag.isFine = true
  filled : ∃ s, Leads sch.Gives e.tag.attributes sch.fresh s ∧
    Leads (sch.Enters (e.scope scope) e.tag) e.children.elements s v
  once : ((given e).filter sch.isField).Nodup
  required : ∀ f ∈ sch.required, f ∈ given e

structure Adds (sch : Schema σ) (names : List String) (r r' : Reading σ) : Prop where
  seen : r'.seen.filter sch.isField =
    (names.filter sch.isField).reverse ++ r.seen.filter sch.isField
  nodup : r.seen.Nodup → r'.seen.Nodup

namespace Adds

variable {names more : List String} {r s t : Reading σ} {name : String}

theorem nil {r : Reading σ} : sch.Adds [] r r where
  seen := rfl
  nodup := id

theorem trans (h : sch.Adds names r s) (h' : sch.Adds more s t) :
    sch.Adds (names ++ more) r t where
  seen := by rw [h'.seen, h.seen, List.filter_append, List.reverse_append, List.append_assoc]
  nodup := h'.nodup ∘ h.nodup

theorem known (hnew : name ∉ r.seen) (hseen : s.seen = name :: r.seen) : sch.Adds [name] r s where
  seen := by
    rw [hseen, List.filter_cons, List.filter_cons]
    split <;> rfl
  nodup h := hseen ▸ List.nodup_cons.2 ⟨hnew, h⟩

theorem unknown (hname : sch.attributes.lookup name = none) (hseen : s.seen = r.seen) :
    sch.Adds [name] r s where
  seen := by
    have hfield : sch.isField name = false := by rw [isField, hname, Option.isSome_none]
    simp [hseen, hfield]
  nodup h := hseen ▸ h

end Adds

theorem readAttribute_gives {a : Attribute} {r r' : Reading σ}
    (h : sch.readAttribute r a = .ok r') :
    sch.Gives a r.record r'.record ∧ sch.Adds [fieldOf a] r r' := by
  simp only [readAttribute] at h
  split at h
  · rename_i hunknown
    cases h
    exact ⟨.unknown hunknown, .unknown hunknown rfl⟩
  · rename_i f hf
    split at h
    · cases h
    · rename_i hnew
      obtain ⟨s, hs, h⟩ := ok_of_bind h
      cases h
      exact ⟨.known hf hs, .known hnew rfl⟩

theorem foldlM_readAttribute_gives {as : List Attribute} {r r' : Reading σ}
    (h : as.foldlM sch.readAttribute r = .ok r') :
    Leads sch.Gives as r.record r'.record ∧ sch.Adds (as.map fieldOf) r r' := by
  induction as generalizing r with
  | nil =>
    cases h
    exact ⟨.nil _, .nil⟩
  | cons a as ih =>
    rw [List.foldlM_cons] at h
    obtain ⟨s, hs, h⟩ := ok_of_bind h
    obtain ⟨hgives, hadds⟩ := readAttribute_gives hs
    obtain ⟨hleads, hmore⟩ := ih h
    exact ⟨.cons hgives hleads, hadds.trans hmore⟩

theorem readAttributes_gives {tag : Tag} {r r' : Reading σ}
    (h : sch.readAttributes r tag.text = .ok r') :
    tag.isFine = true ∧ Leads sch.Gives tag.attributes r.record r'.record ∧
      sch.Adds (tag.attributes.map fieldOf) r r' := by
  obtain ⟨s, hs, h⟩ := ok_of_bind h
  split at h
  · rename_i hfine
    cases h
    exact ⟨hfine, foldlM_readAttribute_gives hs⟩
  · cases h

structure Apart (sch : Schema σ) : Prop where
  children : ∀ c ∈ sch.children, sch.attributes.lookup c.1 = none
  required : ∀ f ∈ sch.required, sch.attributes.lookup f ≠ none

theorem Apart.lookup_eq_none (h : sch.Apart) {name : String}
    (hname : sch.children.lookup name ≠ none) :
    sch.attributes.lookup name = none := by
  obtain ⟨child, hchild⟩ := Option.ne_none_iff_exists'.1 hname
  exact h.children _ (mem_of_lookup_eq_some hchild)

theorem Apart.child?_eq (h : sch.Apart) {name : String} {f : Field σ}
    (hf : sch.attributes.lookup name = some f) : sch.child? name = some f.child := by
  have hnone : sch.children.lookup name = none := by
    by_contra hname
    rw [h.lookup_eq_none hname] at hf
    cases hf
  rw [child?_of_not_child hnone, hf, Option.map_some]

theorem Passes.adds (hapart : sch.Apart) {e : Element} {r r' : Reading σ} (hr : sch.Tidy r)
    (h : sch.Passes e r r') : sch.Adds [nameOf e] r r' := by
  have hfield {f : Field σ} (hf : sch.attributes.lookup (nameOf e) = some f) :
      sch.child? e.tag.plainName = some f.child := hapart.child?_eq hf
  cases h with
  | begun _ hnew hseen => exact .known hnew hseen
  | continued hl hname hseen =>
    refine .unknown (Option.eq_none_iff_forall_ne_some.2 fun f hf => ?_) hseen
    have hmany := (hr _ hl e.tag hname).2
    rw [hfield hf, Field.child] at hmany
    split at hmany <;> cases hmany
  | passed hunknown hseen =>
    refine .unknown (Option.eq_none_iff_forall_ne_some.2 fun f hf => ?_) hseen
    rw [hfield hf] at hunknown
    cases hunknown

theorem readContent_adds (hapart : sch.Apart) {scope : Scope} {parent : Tag} {c : Content}
    {r r' : Reading σ} (hr : sch.Tidy r) (h : sch.readContent scope parent c r = .ok r') :
    sch.Adds (c.elements.map nameOf) r r' := by
  refine readContent_induction (motive := fun c r => sch.Tidy r →
    sch.Adds (c.elements.map nameOf) r r') ?closed ?text ?element h hr
  case closed => exact fun _ => .nil
  case text => exact fun ih => ih
  case element =>
    intro tag children rest r s hs ih hr
    obtain ⟨-, hpasses, htidy⟩ := readChild_passes (e := ⟨tag, children⟩) hr hs
    exact (hpasses.adds hapart hr).trans (ih htidy)

end Markup.Schema

namespace Markup

variable {σ α : Type}

structure Field.Commutes (strip : σ → σ) (f : Field σ) : Prop where
  ofValue : ∀ {raw s t}, f.ofValue raw s = .ok t → f.ofValue raw (strip s) = .ok (strip t)
  ofText : ∀ {text s t}, f.ofText text s = .ok t → f.ofText text (strip s) = .ok (strip t)

theorem Field.Commutes.keeps {strip : σ → σ} {f : Field σ} (h : f.Commutes strip) :
    f.Keeps fun s => strip s = s where
  ofValue raw s t hs ht := by
    have hstripped := h.ofValue ht
    rw [hs, ht] at hstripped
    exact (Except.ok.inj hstripped).symm
  ofText text s t hs ht := by
    have hstripped := h.ofText ht
    rw [hs, ht] at hstripped
    exact (Except.ok.inj hstripped).symm

theorem Field.Commutes.id (f : Field σ) : f.Commutes (id : σ → σ) where
  ofValue h := h
  ofText h := h

namespace Schema

variable {sch : Schema σ} {strip : σ → σ}

theorem commutes_field {name : String} {x : Scalar α} {put : α → σ → σ}
    (h : ∀ v s, strip (put v s) = put v (strip s)) : (field name x put).2.Commutes strip where
  ofValue hread := by
    obtain ⟨v, hv, rfl⟩ := ok_of_map hread
    simp only [field, hv, Except.map, h]
  ofText hread := by
    obtain ⟨v, hv, rfl⟩ := ok_of_map hread
    simp only [field, hv, Except.map, h]

theorem readAttributes_keeps {P : σ → Prop} {text : List Char} {r : Reading σ}
    (hfresh : P sch.fresh) (hattributes : ∀ f ∈ sch.attributes, f.2.Keeps P)
    (h : sch.readAttributes { record := sch.fresh } text = .ok r) : P r.record := by
  have hkeeps : Keeps P { sch with children := [], inOrder := id } :=
    ⟨hfresh, hattributes, List.forall_mem_nil _, fun _ hs => hs⟩
  exact (readAttributes_sound hkeeps (.of_none (P := P) hfresh []) h).1

structure Strips (sch : Schema σ) (strip : σ → σ) : Prop where
  fresh : strip sch.fresh = sch.fresh
  attributes : ∀ f ∈ sch.attributes, f.2.Commutes strip
  children : ∀ s, ∀ c ∈ sch.children, c.2.read.Keeps fun t => strip t = s
  inOrder : ∀ s, strip (sch.inOrder s) = strip s

theorem Strips.readAttributes (h : sch.Strips strip) {text : List Char} {r : Reading σ}
    (hr : sch.readAttributes { record := sch.fresh } text = .ok r) : strip r.record = r.record :=
  readAttributes_keeps (P := fun s => strip s = s) h.fresh
    (fun f hf => (h.attributes f hf).keeps) hr

theorem Acts.keeps {P : σ → Prop} {scope : Scope} {parent : Tag} {e : Element} {s t : σ}
    (h : sch.Acts scope parent e s t)
    (hread : ∀ {child}, sch.child? e.tag.plainName = some child → child.read.Keeps P) (hs : P s) :
    P t := by
  cases h with
  | unknown => exact hs
  | one hchild ht => exact hread hchild _ _ _ _ _ hs ht
  | absent => exact hs
  | optional hchild _ ht => exact hread hchild _ _ _ _ _ hs ht
  | many hchild ht => exact hread hchild _ _ _ _ _ hs ht

theorem Field.child_cases (f : Field σ) :
    (f.isOptional = true ∧ f.child = .optional f.read) ∨
      (f.isOptional = false ∧ f.child = .one f.read) := by
  cases h : f.isOptional <;> simp [Field.child, h]

theorem Acts.enters (hstrips : sch.Strips strip) (hapart : sch.Apart) {scope : Scope} {parent : Tag}
    {e : Element} {s t : σ} (h : sch.Acts scope parent e s t) :
    sch.Enters scope parent e (strip s) (strip t) := by
  cases hf : sch.attributes.lookup (nameOf e) with
  | none =>
    have hsame : strip t = strip s := by
      refine h.keeps (P := fun t => strip t = strip s) (fun hchild => ?_) rfl
      replace hchild := (child?_of_not_attribute hf).symm.trans hchild
      exact hstrips.children (strip s) _ (mem_of_lookup_eq_some hchild)
    rw [hsame]
    exact .unknown hf
  | some f =>
    have hchild : sch.child? e.tag.plainName = some f.child := hapart.child?_eq hf
    have hcommutes := hstrips.attributes _ (mem_of_lookup_eq_some hf)
    have htext (hpresent : f.isOptional = true → isAbsent scope parent e.tag e.children = false)
        (ht : f.read scope e.tag e.children s = .ok t) :
        sch.Enters scope parent e (strip s) (strip t) := by
      obtain ⟨text, htext, ht⟩ := ok_of_bind ht
      exact .known hf hpresent htext (hcommutes.ofText ht)
    obtain ⟨hoptional, hkind⟩ | ⟨hrequired, hkind⟩ := Field.child_cases f
    · cases h with
      | absent _ habsent => exact .absent hf hoptional habsent
      | optional h habsent ht =>
        rw [hchild, hkind] at h
        cases h
        exact htext (fun _ => habsent) ht
      | unknown h => simp [hchild] at h
      | one h => simp [hchild, hkind] at h
      | many h => simp [hchild, hkind] at h
    · cases h with
      | one h ht =>
        rw [hchild, hkind] at h
        cases h
        exact htext (fun hoptional => by simp [hrequired] at hoptional) ht
      | unknown h => simp [hchild] at h
      | absent h => simp [hchild, hkind] at h
      | optional h => simp [hchild, hkind] at h
      | many h => simp [hchild, hkind] at h

theorem owns_of_read (hstrips : sch.Strips strip) (hapart : sch.Apart) {scope : Scope}
    {e : Element} {v : σ} (h : sch.read scope e.tag e.children = .ok v) :
    sch.Owns scope e (strip v) := by
  obtain ⟨r, hattributes, h⟩ := ok_of_bind h
  obtain ⟨r', hcontent, h⟩ := ok_of_bind h
  obtain ⟨hlist, -⟩ := readAttributes_seen hattributes
  have htidy : sch.Tidy r := .of_none hlist
  obtain ⟨hfine, hgives, hadds⟩ := readAttributes_gives hattributes
  have hadds : sch.Adds (given e) { record := sch.fresh } r' :=
    hadds.trans (readContent_adds hapart htidy hcontent)
  have hgiven : r'.seen.filter sch.isField = ((given e).filter sch.isField).reverse := by
    rw [hadds.seen, List.filter_nil, List.append_nil]
  split at h
  · cases h
  · rename_i hfound
    cases h
    refine ⟨hfine, ⟨r.record, hgives, ?_⟩, ?_, ?_⟩
    · rw [hstrips.inOrder, ← hstrips.readAttributes hattributes]
      exact (readContent_leads htidy hcontent).map fun _ _ _ h => h.enters hstrips hapart
    · rw [← List.nodup_reverse, ← hgiven]
      exact (hadds.nodup .nil).filter _
    · intro f hf
      have hm : f ∈ r'.seen := by simpa using List.find?_eq_none.1 hfound f hf
      have hfield : sch.isField f = true := Option.isSome_iff_ne_none.2 (hapart.required f hf)
      have hmem : f ∈ r'.seen.filter sch.isField := List.mem_filter.2 ⟨hm, hfield⟩
      rw [hgiven, List.mem_reverse] at hmem
      exact List.mem_of_mem_filter hmem

theorem owns_of_childless (hchildren : sch.children = []) (hinOrder : sch.inOrder = id)
    (hrequired : ∀ f ∈ sch.required, sch.attributes.lookup f ≠ none) {scope : Scope} {e : Element}
    {v : σ} (h : sch.read scope e.tag e.children = .ok v) : sch.Owns scope e v := by
  have hstrips : sch.Strips id :=
    ⟨rfl, fun f _ => .id f.2, by simp [hchildren], fun _ => by rw [hinOrder]; rfl⟩
  exact owns_of_read hstrips ⟨by simp [hchildren], hrequired⟩ h

end Schema

end Markup

end UpdateProtocol
