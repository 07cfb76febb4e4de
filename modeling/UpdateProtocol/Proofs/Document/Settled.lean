import UpdateProtocol.Proofs.Document.AnyOrder
import UpdateProtocol.Proofs.Document.Layout
import UpdateProtocol.Proofs.Document.Owned
import UpdateProtocol.Proofs.Markup.SourceText

namespace UpdateProtocol

open UpdateProtocol.Markup

namespace Markup.Schema

variable {σ τ : Type} {sch : Schema σ}

def fill (f : Field σ) (a : Attribute) (s : σ) : Except Malformation σ :=
  f.ofValue a.value s

def gather (child : Child σ) (e : Element) (s : σ) : Except Malformation σ :=
  child.read [] e.tag e.children s

structure Independent (sch : Schema σ) : Prop where
  attributeNames : (sch.attributes.map Prod.fst).Nodup
  marked : ∀ name ∈ sch.attributes.map Prod.fst, '@' ∈ name.toList
  attributes : sch.attributes.Pairwise fun f g => ∀ a b, Swaps (fill f.2 a) (fill g.2 b)
  childNames : (sch.children.map Prod.fst).Nodup
  children : sch.children.Pairwise fun c d => ∀ e f, Swaps (gather c.2 e) (gather d.2 f)
  apart : sch.Apart

theorem Independent.of_childless (hchildren : sch.children = [])
    (hnames : (sch.attributes.map Prod.fst).Nodup)
    (hmarked : ∀ name ∈ sch.attributes.map Prod.fst, '@' ∈ name.toList)
    (hswaps : sch.attributes.Pairwise fun f g => ∀ a b, Swaps (fill f.2 a) (fill g.2 b))
    (hrequired : ∀ f ∈ sch.required, sch.attributes.lookup f ≠ none) : sch.Independent where
  attributeNames := hnames
  marked := hmarked
  attributes := hswaps
  childNames := by simp [hchildren]
  children := by simp [hchildren]
  apart := ⟨by simp [hchildren], hrequired⟩

theorem Independent.lookup_eq_none (h : sch.Independent) {name : String}
    (hname : '@' ∉ name.toList) :
    sch.attributes.lookup name = none := by
  refine Option.eq_none_iff_forall_ne_some.2 fun f hf => hname (h.marked name ?_)
  exact List.mem_map_of_mem (mem_of_lookup_eq_some hf)

theorem foldlM_readAttribute_of_settle (hind : sch.Independent) {as : List Attribute}
    {r : Reading σ} {t : σ} (hdistinct : (as.map fieldOf).Nodup)
    (hseen : ∀ a ∈ as, fieldOf a ∉ r.seen)
    (h : settle fieldOf fill sch.attributes as r.record = .ok t) :
    ∃ r', as.foldlM sch.readAttribute r = .ok r' ∧ r'.record = t ∧ (∀ f ∈ r.seen, f ∈ r'.seen) ∧
      ∀ a ∈ as, sch.attributes.lookup (fieldOf a) ≠ none → fieldOf a ∈ r'.seen := by
  induction as generalizing r with
  | nil =>
    rw [settle_nil_right] at h
    cases h
    exact ⟨r, rfl, rfl, fun _ hf => hf, List.forall_mem_nil _⟩
  | cons a as ih =>
    obtain ⟨ha, hdistinct⟩ := List.nodup_cons.1 hdistinct
    obtain ⟨hnew, hseen⟩ := List.forall_mem_cons.1 hseen
    rw [List.foldlM_cons]
    cases hread : sch.attributes.lookup (fieldOf a) with
    | none =>
      have hstep : sch.readAttribute r a = .ok r := by
        rw [fieldOf] at hread
        simp only [readAttribute, hread]
      rw [settle_cons_unknown hread] at h
      obtain ⟨r', hr', ht, hkept, hfields⟩ := ih hdistinct hseen h
      rw [hstep]
      exact ⟨r', hr', ht, hkept, List.forall_mem_cons.2 ⟨fun hne => absurd hread hne, hfields⟩⟩
    | some f =>
      obtain ⟨u, hu, h⟩ := settle_cons_known hind.attributeNames hind.attributes hread h
      have hstep : sch.readAttribute r a =
          .ok { r with record := u, seen := fieldOf a :: r.seen } := by
        rw [fill] at hu
        rw [fieldOf] at hread hnew
        simp only [readAttribute, hread, if_neg hnew, hu]
        rfl
      have hmore : ∀ b ∈ as, fieldOf b ∉ fieldOf a :: r.seen := by
        intro b hb hm
        rcases List.mem_cons.1 hm with he | hm
        · exact ha (he ▸ List.mem_map_of_mem hb)
        · exact hseen b hb hm
      obtain ⟨r', hr', ht, hkept, hfields⟩ :=
        ih (r := { r with record := u, seen := fieldOf a :: r.seen }) hdistinct hmore h
      rw [hstep]
      refine ⟨r', hr', ht, fun f hf => hkept f (List.mem_cons_of_mem _ hf), ?_⟩
      exact List.forall_mem_cons.2 ⟨fun _ => hkept _ (List.mem_cons_self ..), hfields⟩

theorem readChild_of_closed {scope : Scope} {parent tag : Tag} {children : Content} {r : Reading σ}
    (h : ∀ l, r.list = some l → tag.name ≠ l.name) :
    sch.readChild scope parent tag children r = sch.readField scope parent tag children r := by
  unfold readChild
  split
  · rename_i l hl
    exact if_neg (h l hl).symm
  · rfl

theorem readChild_of_unknown {scope : Scope} {parent : Tag} {e : Element} {r : Reading σ}
    (htidy : sch.Tidy r) (hunknown : sch.child? e.tag.plainName = none)
    (hskip : skip e.children = .ok ()) :
    sch.readChild scope parent e.tag e.children r = .ok { r with list := none } := by
  have hclosed : ∀ l, r.list = some l → e.tag.name ≠ l.name := by
    intro l hl hname
    have hmany := (htidy l hl e.tag hname).2
    rw [hunknown] at hmany
    cases hmany
  rw [readChild_of_closed hclosed]
  simp only [readField, hunknown, hskip]
  rfl

theorem readField_of_gather {parent : Tag} {e : Element} {r : Reading σ} {child : Child σ} {u : σ}
    (hchild : sch.child? e.tag.plainName = some child) (hnew : e.tag.plainName ∉ r.seen)
    (hpresent : isAbsent [] parent e.tag e.children = false)
    (hu : gather child e r.record = .ok u) :
    ∃ r', sch.readField [] parent e.tag e.children r = .ok r' ∧ r'.record = u := by
  cases child with
  | one read =>
    change read [] e.tag e.children r.record = .ok u at hu
    refine ⟨{ record := u, seen := e.tag.plainName :: r.seen }, ?_, rfl⟩
    simp only [readField, hchild, if_neg hnew, hu]
    rfl
  | optional read =>
    change read [] e.tag e.children r.record = .ok u at hu
    refine ⟨{ record := u, seen := e.tag.plainName :: r.seen }, ?_, rfl⟩
    simp only [readField, hchild, if_neg hnew, hpresent, hu]
    rfl
  | many item read =>
    change read [] e.tag e.children r.record = .ok u at hu
    refine ⟨{ record := u, seen := e.tag.plainName :: r.seen
              list := some ⟨e.tag.name, item, read⟩ }, ?_, rfl⟩
    simp only [readField, hchild, if_neg hnew, hu]
    rfl

theorem readChild_of_gather {parent : Tag} {e : Element} {es : List Element} {r : Reading σ}
    {child : Child σ} {u : σ} (htidy : sch.Tidy r)
    (hchild : sch.child? e.tag.plainName = some child)
    (hstands : sch.Stands r e.tag.plainName (e :: es))
    (hpresent : isAbsent [] parent e.tag e.children = false)
    (hu : gather child e r.record = .ok u) :
    ∃ r', sch.readChild [] parent e.tag e.children r = .ok r' ∧ r'.record = u := by
  by_cases hm : e.tag.plainName ∈ r.seen
  · -- a name that was seen is the one of the open list
    obtain ⟨⟨l, hl, hname⟩, -⟩ := (hstands.1 hm).open_of_eq rfl
    have hmany := (htidy l hl e.tag hname).2
    rw [hchild] at hmany
    cases hmany
    refine ⟨{ r with record := u }, ?_, rfl⟩
    change l.read [] e.tag e.children r.record = .ok u at hu
    simp only [readChild, hl, if_pos hname.symm, hu]
    rfl
  · rw [readChild_of_closed fun l hl hname => hm (htidy l hl e.tag hname).1]
    exact readField_of_gather hchild hm hpresent hu

theorem readChild_of_settle (hind : sch.Independent) {parent : Tag} {e : Element}
    {es : List Element} {r : Reading σ} {t : σ} (htidy : sch.Tidy r)
    (hname : sch.attributes.lookup e.tag.plainName = none)
    (hstands : ∀ name, sch.children.lookup name ≠ none → sch.Stands r name (e :: es))
    (hskip : sch.children.lookup e.tag.plainName = none → skip e.children = .ok ())
    (hpresent : sch.children.lookup e.tag.plainName ≠ none →
      isAbsent [] parent e.tag e.children = false)
    (h : settle nameOf gather sch.children (e :: es) r.record = .ok t) :
    ∃ r', sch.readChild [] parent e.tag e.children r = .ok r' ∧
      settle nameOf gather sch.children es r'.record = .ok t := by
  have hlookup := child?_of_not_attribute hname
  cases hchild : sch.children.lookup (nameOf e) with
  | none =>
    rw [settle_cons_unknown hchild] at h
    exact ⟨_, readChild_of_unknown htidy (hlookup.trans hchild) (hskip hchild), h⟩
  | some child =>
    have hknown : sch.children.lookup (nameOf e) ≠ none := by
      rw [hchild]
      exact Option.some_ne_none child
    obtain ⟨u, hu, h⟩ := settle_cons_known hind.childNames hind.children hchild h
    obtain ⟨r', hstep, rfl⟩ := readChild_of_gather htidy (hlookup.trans hchild) (hstands _ hknown)
      (hpresent hknown) hu
    exact ⟨r', hstep, h⟩

theorem Passes.seen_subset {e : Element} {r r' : Reading σ} (h : sch.Passes e r r') :
    r.seen ⊆ r'.seen := by
  cases h with
  | continued _ _ hseen => exact hseen ▸ List.Subset.refl _
  | passed _ hseen => exact hseen ▸ List.Subset.refl _
  | begun _ _ hseen =>
    rw [hseen]
    exact List.subset_cons_self _ _

theorem readContent_of_settle (hind : sch.Independent) {parent : Tag} {es : List Element}
    {r : Reading σ} {t : σ} (htidy : sch.Tidy r)
    (hnames : ∀ e ∈ es, sch.attributes.lookup e.tag.plainName = none)
    (hstands : ∀ name, sch.children.lookup name ≠ none → sch.Stands r name es)
    (hskip : ∀ e ∈ es, sch.children.lookup e.tag.plainName = none → skip e.children = .ok ())
    (hpresent : ∀ e ∈ es, sch.children.lookup e.tag.plainName ≠ none →
      isAbsent [] parent e.tag e.children = false)
    (h : settle nameOf gather sch.children es r.record = .ok t) :
    ∃ r', sch.readContent [] parent (contentOf es) r = .ok r' ∧ r'.record = t ∧
      r.seen ⊆ r'.seen := by
  induction es generalizing r with
  | nil =>
    rw [settle_nil_right] at h
    cases h
    exact ⟨r, rfl, rfl, List.Subset.refl _⟩
  | cons e es ih =>
    obtain ⟨hname, hnames⟩ := List.forall_mem_cons.1 hnames
    obtain ⟨hskipped, hskip⟩ := List.forall_mem_cons.1 hskip
    obtain ⟨hpresent₁, hpresent⟩ := List.forall_mem_cons.1 hpresent
    obtain ⟨r₁, hstep, h⟩ := readChild_of_settle hind htidy hname hstands hskipped hpresent₁ h
    obtain ⟨-, hpasses, htidy₁⟩ := readChild_passes htidy hstep
    have hstands₁ : ∀ name, sch.children.lookup name ≠ none → sch.Stands r₁ name es := by
      intro name hname
      obtain ⟨child, hchild⟩ := Option.ne_none_iff_exists'.1 hname
      exact (hstands name hname).tail (by simp [child?_of_child hchild]) hpasses
    obtain ⟨r', hr', ht, hkept⟩ := ih htidy₁ hnames hstands₁ hskip hpresent h
    refine ⟨r', ?_, ht, List.Subset.trans hpasses.seen_subset hkept⟩
    change sch.readContent [] parent (.element e.tag e.children (contentOf es)) r = _
    rw [readContent, hstep]
    exact hr'

theorem stands_of_begins (hind : sch.Independent) {es : List Element} {r : Reading σ}
    (hseen : ∀ f ∈ r.seen, sch.attributes.lookup f ≠ none)
    (hbegins : ∀ c ∈ sch.children, sch.Begins c.1 es) {name : String}
    (hname : sch.children.lookup name ≠ none) : sch.Stands r name es := by
  obtain ⟨child, hchild⟩ := Option.ne_none_iff_exists'.1 hname
  have hmem := mem_of_lookup_eq_some hchild
  exact ⟨fun hm => absurd (hind.apart.children _ hmem) (hseen name hm), fun _ => hbegins _ hmem⟩

end Markup.Schema

namespace Markup.Source

variable {t : Tag} {s : Source} {e : Element}

theorem qualifier?_of_not_mem {key : List Char} (h : ':' ∉ key) : qualifier? key = none := by
  rw [qualifier?, Text.splitFirst?_eq_none_iff.2 h, Option.map_none]

theorem localName_of_not_mem {name : List Char} (h : ':' ∉ name) : localName name = name := by
  rw [localName, Text.splitFirst?_eq_none_iff.2 h]

theorem mem_of_mem_localName {name : List Char} {c : Char} (h : c ∈ localName name) : c ∈ name := by
  unfold localName at h
  split at h
  · rename_i before after hsplit
    rw [(Text.splitFirst?_eq_some_iff.1 hsplit).1]
    exact List.mem_append_right _ (List.mem_cons_of_mem _ h)
  · exact h

theorem fieldOfKey_of_not_mem {key : List Char} (h : ':' ∉ key) :
    fieldOfKey key = "@" ++ String.ofList key := by
  have hfield : String.ofList ('@' :: key) = "@" ++ String.ofList key := by
    rw [← String.toList_inj]
    simp
  rw [fieldOfKey, localName_of_not_mem h, hfield]
  split <;> rfl

namespace Tag

def Has (t : Tag) (f : String) : Prop := ∃ a ∈ t.attributes, f = "@" ++ String.ofList a.key

theorem qualifier?_read (h : t.IsPlain) :
    ∀ a ∈ t.attributes.map Attribute.read, qualifier? a.key = none := by
  intro a ha
  obtain ⟨b, hb, rfl⟩ := List.mem_map.1 ha
  exact qualifier?_of_not_mem (h.keys b hb)

theorem enter?_text (h : t.IsFine) (hplain : t.IsPlain) (scope : Scope) :
    scope.enter? t.text = some scope := by
  rw [Scope.enter?, items_text h, Markup.Attribute.untilMalformed_pairs]
  exact Scope.foldlM_bind?_of_qualifier?_none (qualifier?_read hplain)

theorem marksNil_text (h : t.IsFine) (hplain : t.IsPlain) (scope : Scope) :
    scope.marksNil t.text = false := by
  rw [Scope.marksNil, List.any_eq_false]
  intro a ha
  have hpair := Markup.Attribute.pair_mem_of_mem_leniently ha
  rw [items_text h] at hpair
  obtain ⟨b, hb, hab⟩ := List.mem_map.1 hpair
  cases hab
  simp [Scope.isNil_of_qualifier?_none (qualifier?_read hplain a hb)]

end Tag

namespace Element

def read (e : Element) : UpdateProtocol.Element := ⟨e.tag.read, e.children.content⟩

theorem IsFine.tag (h : e.IsFine) : e.tag.IsFine := by
  obtain ⟨tag, stop, children⟩ := e
  cases h with
  | short _ htag _ => exact htag
  | long _ htag _ _ _ => exact htag

theorem IsFine.children (h : e.IsFine) : e.children.IsFine := by
  obtain ⟨tag, stop, children⟩ := e
  cases h with
  | short hgap _ _ => exact .done hgap
  | long _ _ hchildren _ _ => exact hchildren

end Element

theorem mark_not_mem_plainName {t : Tag} (h : t.IsFine) : '@' ∉ t.read.plainName.toList := by
  intro hm
  rw [Markup.Tag.plainName, String.toList_ofList] at hm
  exact absurd (h.name.2 '@' (mem_of_mem_localName hm)) (by decide)

theorem isFine_of_mem_elements (h : s.IsFine) : ∀ e ∈ s.elements, e.IsFine := by
  induction h with
  | done _ => exact List.forall_mem_nil _
  | short _ htag _ ih =>
    exact List.forall_mem_cons.2 ⟨.short .empty htag (.done .empty), ih⟩
  | long _ htag hchildren hstop _ _ ih =>
    exact List.forall_mem_cons.2 ⟨.long .empty htag hchildren hstop (.done .empty), ih⟩

theorem content_of_isSpaced (h : s.IsSpaced) :
    s.content = contentOf (s.elements.map Element.read) := by
  induction s with
  | done gap => exact Gap.before_of_blank h _
  | element gap tag stop children rest _ ih =>
    rw [content, Gap.before_of_blank h.1, ih h.2]
    rfl

theorem isAbsent_of_isPlain {parent tag : Tag} (hp : parent.IsFine) (hpplain : parent.IsPlain)
    (ht : tag.IsFine) (htplain : tag.IsPlain) (scope : Scope) (children : Content) :
    isAbsent scope parent.read tag.read children = false := by
  simp only [isAbsent, Tag.read, Tag.marksNil_text hp hpplain, Tag.marksNil_text ht htplain,
    Bool.or_self]

theorem fieldOf_read {a : Attribute} (h : ':' ∉ a.key) :
    Schema.fieldOf a.read = "@" ++ String.ofList a.key := fieldOfKey_of_not_mem h

end Markup.Source

namespace Markup.Schema

variable {σ τ : Type} {sch : Schema σ}

theorem readAttributes_of_settle (hind : sch.Independent) {t : Source.Tag} (hfine : t.IsFine)
    (hplain : t.IsPlain) {s : σ}
    (h : settle fieldOf fill sch.attributes (t.attributes.map Source.Attribute.read) sch.fresh =
      .ok s) :
    ∃ r, sch.readAttributes { record := sch.fresh } t.text = .ok r ∧ r.record = s ∧
      ∀ a ∈ t.attributes, sch.attributes.lookup ("@" ++ String.ofList a.key) ≠ none →
        "@" ++ String.ofList a.key ∈ r.seen := by
  have hdistinct : ((t.attributes.map Source.Attribute.read).map fieldOf).Nodup := by
    have hfields : (t.attributes.map Source.Attribute.read).map fieldOf =
        (t.attributes.map Source.Attribute.key).map fun key => "@" ++ String.ofList key := by
      simp only [List.map_map]
      exact List.map_congr_left fun a ha => Source.fieldOf_read (hplain.keys a ha)
    rw [hfields]
    refine List.pairwise_map.2 (hfine.distinct.imp fun hne he => hne ?_)
    simpa [← String.toList_inj] using he
  obtain ⟨r, hr, hs, -, hfields⟩ := foldlM_readAttribute_of_settle
    (r := { record := sch.fresh }) hind hdistinct (fun _ _ => List.not_mem_nil) h
  refine ⟨r, ?_, hs, fun a ha hknown => ?_⟩
  · rw [readAttributes, Source.Tag.strictly_text hfine]
    simp only [hr]
    rfl
  · have hfield := Source.fieldOf_read (hplain.keys a ha)
    rw [← hfield] at hknown ⊢
    exact hfields _ (List.mem_map_of_mem ha) hknown

theorem read_of_settle (hind : sch.Independent) {e : Source.Element} (hfine : e.IsFine)
    (hfits : e.Fits (sch.children.map Prod.fst)) {s t : σ}
    (hattributes : settle fieldOf fill sch.attributes
      (e.tag.attributes.map Source.Attribute.read) sch.fresh = .ok s)
    (hchildren : settle nameOf gather sch.children
      (e.children.elements.map Source.Element.read) s = .ok t)
    (hbegins : ∀ c ∈ sch.children, sch.Begins c.1 (e.children.elements.map Source.Element.read))
    (hrequired : ∀ f ∈ sch.required, e.tag.Has f) :
    sch.read [] e.tag.read e.children.content = .ok (sch.inOrder t) := by
  obtain ⟨r, hr, rfl, hfields⟩ := readAttributes_of_settle hind hfine.tag hfits.plain hattributes
  obtain ⟨hlist, hseen⟩ := readAttributes_seen hr
  have helement : ∀ f ∈ e.children.elements.map Source.Element.read, ∃ g ∈ e.children.elements,
      f = g.read ∧ g.IsFine := by
    intro f hf
    obtain ⟨g, hg, rfl⟩ := List.mem_map.1 hf
    exact ⟨g, hg, rfl, Source.isFine_of_mem_elements hfine.children g hg⟩
  have hskip : ∀ f ∈ e.children.elements.map Source.Element.read,
      sch.children.lookup f.tag.plainName = none → skip f.children = .ok () := by
    intro f hf _
    obtain ⟨g, -, rfl, hg⟩ := helement f hf
    exact Source.skip_content hg.children
  have hpresent : ∀ f ∈ e.children.elements.map Source.Element.read,
      sch.children.lookup f.tag.plainName ≠ none →
        isAbsent [] e.tag.read f.tag f.children = false := by
    intro f hf hname
    obtain ⟨g, hg, rfl, hgfine⟩ := helement f hf
    obtain ⟨child, hchild⟩ := Option.ne_none_iff_exists'.1 hname
    have hplain := hfits.known g hg (List.mem_map_of_mem (mem_of_lookup_eq_some hchild))
    exact Source.isAbsent_of_isPlain hfine.tag hfits.plain hgfine.tag hplain _ _
  have hnames : ∀ f ∈ e.children.elements.map Source.Element.read,
      sch.attributes.lookup f.tag.plainName = none := by
    intro f hf
    obtain ⟨g, -, rfl, hg⟩ := helement f hf
    exact hind.lookup_eq_none (Source.mark_not_mem_plainName hg.tag)
  obtain ⟨r', hr', rfl, hkept⟩ := readContent_of_settle hind (.of_none hlist) hnames
    (fun _ => stands_of_begins hind hseen hbegins) hskip hpresent hchildren
  have hfound : sch.required.find? (· ∉ r'.seen) = none := by
    rw [List.find?_eq_none]
    intro f hf
    obtain ⟨a, ha, rfl⟩ := hrequired f hf
    simpa using hkept (hfields a ha (hind.apart.required _ hf))
  refine read_of_ok hr ?_ hfound
  rw [Source.content_of_isSpaced hfits.spaced]
  change sch.readContent ((Scope.enter? [] e.tag.text).getD []) e.tag.read _ r = _
  rw [Source.Tag.enter?_text hfine.tag hfits.plain]
  exact hr'

end Markup.Schema

end UpdateProtocol
