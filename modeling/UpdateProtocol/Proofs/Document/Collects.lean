import UpdateProtocol.Proofs.Document.Yields

namespace UpdateProtocol

open UpdateProtocol.Markup

namespace Markup.Source

variable {τ : Type} {e : Element} {s : Source} {name : String}

theorem filter_nameOf (s : Source) (name : String) :
    (s.elements.map Element.read).filter (Schema.nameOf · = name) =
      (s.named name).map Element.read := by
  rw [List.filter_map]
  rfl

theorem named_of_inOneRow (h : s.InOneRow name) :
    ∃ before after, s.elements = before ++ s.named name ++ after ∧
      (∀ e ∈ before, e.tag.read.plainName ≠ name) ∧ ∀ e ∈ after, e.tag.read.plainName ≠ name := by
  obtain ⟨before, row, after, hes, hnamed, hothers⟩ := h
  obtain ⟨hbefore, hafter⟩ := List.forall_mem_append.1 hothers
  have hrow : s.named name = row := by
    rw [named, hes]
    refine filter_row ?_ ?_ ?_
    · simpa using hbefore
    · simpa using hnamed
    · simpa using hafter
  exact ⟨before, after, by rw [hrow, hes], hbefore, hafter⟩

theorem inOneRow_of_length_le_one (h : (s.named name).length ≤ 1) : s.InOneRow name := by
  cases hnamed : s.named name with
  | nil =>
    refine ⟨s.elements, [], [], by simp, List.forall_mem_nil _, ?_⟩
    intro e he hname
    rw [List.append_nil] at he
    have hmem : e ∈ s.named name := List.mem_filter.2 ⟨he, decide_eq_true hname⟩
    rw [hnamed] at hmem
    exact absurd hmem List.not_mem_nil
  | cons e row =>
    obtain rfl : row = [] := by simpa [hnamed] using h
    obtain ⟨before, after, hes, hbefore, he, hafter⟩ := List.filter_eq_cons_iff.1 hnamed
    refine ⟨before, [e], after, by simp [hes], ?_, List.forall_mem_append.2 ⟨?_, ?_⟩⟩
    · exact List.forall_mem_singleton.2 (of_decide_eq_true he)
    · exact fun f hf hname => hbefore f hf (decide_eq_true hname)
    · exact fun f hf hname => List.filter_eq_nil_iff.1 hafter f hf (decide_eq_true hname)

theorem Tag.name_of_isPlain {t : Tag} (h : t.IsPlain) (hname : t.read.plainName = name) :
    t.name = name.toList := by
  rw [← hname, Markup.Tag.plainName, String.toList_ofList, Tag.read, localName_of_not_mem h.name]

theorem Enclosed.imp {item : String} {R S : Element → τ → Prop} (h : ∀ e v, R e v → S e v)
    {es : List Element} {vs : List τ} (hes : Enclosed item R es vs) : Enclosed item S es vs := by
  cases hes with
  | omitted => exact .omitted
  | written he => exact .written ⟨he.fits, he.row, he.items.imp fun e v => h e v⟩

end Markup.Source

namespace Markup.Schema

variable {σ τ ρ : Type} {sch : Schema σ} {sub : Schema τ}

theorem swaps_keep {ρ : Type} {sub : Schema τ} {sub' : Schema ρ} {put : τ → σ → σ}
    {put' : ρ → σ → σ} {c d : Child σ} (hc : c.read = keep sub put) (hd : d.read = keep sub' put')
    (h : ∀ v w s, put' w (put v s) = put v (put' w s)) (e f : Element) :
    Swaps (gather c e) (gather d f) := by
  intro s t u ht hu
  rw [gather, hc] at ht
  rw [gather, hd] at hu
  obtain ⟨v, hv, rfl⟩ := ok_of_map ht
  obtain ⟨w, hw, rfl⟩ := ok_of_map hu
  refine ⟨put' w s, ?_, ?_⟩
  · simp only [gather, hd, keep, hw]
    rfl
  · simp only [gather, hc, keep, hv, h]
    rfl

def ReadsAs (sub : Schema τ) (e : Source.Element) (v : τ) : Prop :=
  e.IsFine → sub.read [] e.tag.read e.children.content = .ok v

theorem perform_gather {es : List Source.Element} {vs : List τ} (hfine : ∀ e ∈ es, e.IsFine)
    (h : List.Forall₂ sub.ReadsAs es vs) {child : Child σ} {put : τ → σ → σ}
    (hchild : child.read = keep sub put) (s : σ) :
    perform ((es.map Source.Element.read).map (gather child)) s =
      .ok (vs.foldl (fun s v => put v s) s) := by
  induction h generalizing s with
  | nil => rfl
  | @cons e v es vs he _ ih =>
    obtain ⟨hfirst, hfine⟩ := List.forall_mem_cons.1 hfine
    refine perform_cons.2 ⟨put v s, ?_, ih hfine (put v s)⟩
    rw [gather, hchild, keep]
    change (sub.read [] e.tag.read e.children.content).map (put · s) = _
    rw [he hfirst]
    rfl

theorem begins_of_inOneRow {s : Source} {name : String} (h : s.InOneRow name)
    (hplain : ∀ e ∈ s.elements, e.tag.read.plainName = name → e.tag.IsPlain)
    (hlength : (∀ item read, sch.child? name ≠ some (.many item read)) →
      (s.named name).length ≤ 1) : sch.Begins name (s.elements.map Source.Element.read) := by
  have hrow := Source.named_of_inOneRow h
  have hspelled : ∀ e ∈ s.named name, e.tag.name = name.toList := by
    intro e he
    obtain ⟨hmem, hname⟩ := List.mem_filter.1 he
    exact Source.Tag.name_of_isPlain (hplain e hmem (of_decide_eq_true hname))
      (of_decide_eq_true hname)
  obtain ⟨before, after, hes, hbefore, hafter⟩ := hrow
  refine ⟨before.map Source.Element.read, (s.named name).map Source.Element.read,
    after.map Source.Element.read, ?_, ⟨?named, ?spelling, ?notBefore, ?notAfter⟩, ?_⟩
  · rw [← List.map_append, ← List.map_append, ← hes]
  case named =>
    exact List.forall_mem_map.2 fun e he => of_decide_eq_true (List.mem_filter.1 he).2
  case spelling =>
    refine List.forall_mem_map.2 fun e he => List.forall_mem_map.2 fun f hf => ?_
    exact (hspelled e he).trans (hspelled f hf).symm
  case notBefore => exact List.forall_mem_map.2 hbefore
  case notAfter => exact List.forall_mem_map.2 hafter
  · rw [List.length_map]
    exact hlength

structure Collects (sch : Schema σ) (e : Source.Element) (children : List (String × Child σ))
    (s u : σ) : Prop where
  fine : e.IsFine
  fits : e.Fits (sch.children.map Prod.fst)
  settled : settle nameOf gather children (e.children.elements.map Source.Element.read) s = .ok u
  begins : ∀ c ∈ children, sch.Begins c.1 (e.children.elements.map Source.Element.read)

namespace Collects

variable {e : Source.Element} {children : List (String × Child σ)} {s u : σ} {name : String}

theorem start (sch : Schema σ) (hfine : e.IsFine) (hfits : e.Fits (sch.children.map Prod.fst))
    (s : σ) : sch.Collects e [] s s where
  fine := hfine
  fits := hfits
  settled := settle_nil_left
  begins := List.forall_mem_nil _

theorem step (h : sch.Collects e children s u) {child : Child σ} {put : τ → σ → σ} {vs : List τ}
    (hchild : sch.children.lookup name = some child) (hread : child.read = keep sub put)
    (hvs : List.Forall₂ sub.ReadsAs (e.children.named name) vs) (hrow : e.children.InOneRow name)
    (hlength : (∀ item read, child ≠ .many item read) → vs.length ≤ 1) :
    sch.Collects e (children ++ [(name, child)]) s (vs.foldl (fun s v => put v s) u) where
  fine := h.fine
  fits := h.fits
  settled := by
    have hfine : ∀ f ∈ e.children.named name, f.IsFine := fun f hf =>
      Source.isFine_of_mem_elements h.fine.children f (List.mem_of_mem_filter hf)
    refine settle_concat h.settled ?_
    rw [Source.filter_nameOf]
    exact perform_gather hfine hvs hread u
  begins := by
    have hplain : ∀ f ∈ e.children.elements, f.tag.read.plainName = name → f.tag.IsPlain := by
      rintro f hf rfl
      exact h.fits.known f hf (List.mem_map_of_mem (mem_of_lookup_eq_some hchild))
    rw [List.forall_mem_append, List.forall_mem_singleton]
    refine ⟨h.begins, begins_of_inOneRow hrow hplain fun hmany => ?_⟩
    rw [hvs.length_eq]
    refine hlength fun item read he => hmany item read ?_
    rw [child?_of_child hchild, he]

theorem optional (h : sch.Collects e children s u) {v? : Option τ}
    (hv : List.Forall₂ sub.ReadsAs (e.children.named name) v?.toList)
    (set : Option τ → σ → σ)
    (hchild : sch.children.lookup name = some (.optional (keep sub fun v => set (some v))))
    (hnone : set none u = u) :
    sch.Collects e (children ++ [(name, .optional (keep sub fun v => set (some v)))]) s
      (set v? u) := by
  have hlength : v?.toList.length ≤ 1 := by cases v? <;> simp
  have hrow : e.children.InOneRow name := Source.inOneRow_of_length_le_one (by rwa [hv.length_eq])
  have hstep := h.step hchild rfl hv hrow fun _ => hlength
  cases v? with
  | none =>
    rw [hnone]
    exact hstep
  | some v => exact hstep

theorem many (h : sch.Collects e children s u) {vs : List τ} (hrow : e.children.InOneRow name)
    (hvs : List.Forall₂ sub.ReadsAs (e.children.named name) vs) (item : String)
    {put : τ → σ → σ} (set : List τ → σ → σ)
    (hchild : sch.children.lookup name = some (.many item (keep sub put)))
    (hput : ∀ v vs, put v (set vs u) = set (v :: vs) u) (hnil : set [] u = u) :
    sch.Collects e (children ++ [(name, .many item (keep sub put))]) s (set vs.reverse u) := by
  have hfold : vs.foldl (fun s v => put v s) u = set vs.reverse u := by
    have hitems : vs.foldl (fun s v => put v s) (set [] u) = set ((vs.map id).reverse ++ []) u :=
      Gathers.foldl_put hput vs []
    rwa [hnil, List.map_id, List.append_nil] at hitems
  rw [← hfold]
  exact h.step hchild rfl hvs hrow fun hmany => absurd rfl (hmany item _)

theorem read (hind : sch.Independent) {t : σ} (hy : Yields e.tag sch.attributes sch.fresh s)
    (hc : sch.Collects e sch.children s t) (hrequired : ∀ f ∈ sch.required, e.tag.Has f) :
    sch.read [] e.tag.read e.children.content = .ok (sch.inOrder t) :=
  read_of_settle hind hc.fine hc.fits hy.settled hc.settled hc.begins hrequired

end Collects

theorem read_of_yields (hind : sch.Independent) (hchildren : sch.children = [])
    {e : Source.Element} (hfine : e.IsFine) (hfits : e.Fits []) {s : σ}
    (hy : Yields e.tag sch.attributes sch.fresh s) (hrequired : ∀ f ∈ sch.required, e.tag.Has f) :
    sch.read [] e.tag.read e.children.content = .ok (sch.inOrder s) := by
  have hc : sch.Collects e sch.children s s := by
    rw [hchildren]
    exact .start sch hfine (by rwa [hchildren]) s
  exact hc.read hind hy hrequired

theorem listSchema_independent (name item : String) (sub : Schema τ) :
    (listSchema name item sub).Independent where
  attributeNames := .nil
  marked := List.forall_mem_nil _
  attributes := .nil
  childNames := List.pairwise_singleton ..
  children := List.pairwise_singleton ..
  apart := ⟨fun _ _ => rfl, List.forall_mem_nil _⟩

theorem readsAs_of_encloses {sub : Schema τ} {name : String} (item : String) {e : Source.Element}
    {vs : List τ} (h : e.Encloses name sub.ReadsAs vs) :
    (listSchema name item sub).ReadsAs e vs := by
  intro hfine
  have hy : Yields e.tag (listSchema name item sub).attributes [] [] :=
    .start hfine.tag h.fits.plain []
  have hchild : (listSchema name item sub).children.lookup name =
      some (.many item (keep sub List.cons)) := by simp [listSchema]
  have hc := Collects.start (listSchema name item sub) hfine h.fits []
    |>.many h.row h.items item (fun vs _ => vs) hchild (fun _ _ => rfl) rfl
  have hread := hc.read (listSchema_independent name item sub) hy (List.forall_mem_nil _)
  rw [hread]
  exact congrArg Except.ok (List.reverse_reverse vs)

theorem Collects.wrapped {sub : Schema τ} {e : Source.Element}
    {children : List (String × Child σ)} {s u : σ} {name inner : String} {vs : List τ}
    (h : sch.Collects e children s u)
    (hvs : Source.Enclosed inner sub.ReadsAs (e.children.named name) vs) (item : String)
    (set : List τ → σ → σ)
    (hchild : sch.children.lookup name = some (.one (keep (listSchema inner item sub) set)))
    (hnil : set [] u = u) :
    sch.Collects e (children ++ [(name, .one (keep (listSchema inner item sub) set))]) s
      (set vs u) := by
  generalize hes : e.children.named name = es at hvs
  have hlength : (e.children.named name).length ≤ 1 := by
    rw [hes]
    cases hvs <;> simp
  have hrow := Source.inOneRow_of_length_le_one hlength
  cases hvs with
  | omitted =>
    have hnone : List.Forall₂ (listSchema inner item sub).ReadsAs (e.children.named name) [] := by
      rw [hes]
      exact .nil
    rw [hnil]
    exact h.step hchild rfl hnone hrow fun _ => by simp
  | @written f vs hf =>
    have hone : List.Forall₂ (listSchema inner item sub).ReadsAs (e.children.named name) [vs] := by
      rw [hes]
      exact .cons (readsAs_of_encloses item hf) .nil
    exact h.step hchild rfl hone hrow fun _ => by simp

end Markup.Schema

end UpdateProtocol
