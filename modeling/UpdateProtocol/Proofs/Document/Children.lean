import UpdateProtocol.Document.Response
import UpdateProtocol.Proofs.Markup.Kept
import UpdateProtocol.Proofs.Markup.Written

namespace UpdateProtocol

open UpdateProtocol.Markup

structure Element.Holds {τ : Type} (sch : Schema τ) (e : Element) (v : τ) : Prop where
  tag : e.tag.IsWritten
  children : e.children.IsWritten
  read : sch.read [] e.tag e.children = .ok v

theorem contentOf_isWritten {es : List Element}
    (h : ∀ e ∈ es, e.tag.IsWritten ∧ e.children.IsWritten) : (contentOf es).IsWritten := by
  induction es with
  | nil => exact .closed
  | cons e es ih =>
    have he := h e (List.mem_cons_self ..)
    exact .element he.1 he.2 (ih fun f hf => h f (List.mem_cons_of_mem _ hf))

namespace Markup

theorem scopeAt_of_isWritten {tag : Tag} {children : Content} (ht : tag.IsWritten)
    (hc : children.IsWritten) (scope : Scope) : scopeAt scope tag children = scope := by
  have hinner : (scope.enter? tag.text).getD scope = scope := by
    rw [Scope.enter?_of_isWritten ht, Option.getD_some]
  cases hc with
  | closed => exact hinner
  | element ht' _ _ =>
    simp only [scopeAt, hinner, Scope.enter?_of_isWritten ht', Option.getD_some]

theorem isAbsent_of_isWritten {parent tag : Tag} {children : Content} (hp : parent.IsWritten)
    (ht : tag.IsWritten) (hc : children.IsWritten) (scope : Scope) :
    isAbsent scope parent tag children = false := by
  simp only [isAbsent, scopeAt_of_isWritten ht hc, Scope.marksNil_of_isWritten ht,
    Scope.marksNil_of_isWritten hp, Bool.or_self]

def Reading.Orderly {σ : Type} (r : Reading σ) : Prop :=
  ∀ l, r.list = some l → String.ofList l.name ∈ r.seen

namespace Schema

variable {σ τ : Type} {sch : Schema σ}

theorem readChild_of_unseen {tag : Tag} {r : Reading σ} (ht : tag.IsWritten) (hr : r.Orderly)
    (hseen : tag.plainName ∉ r.seen) (scope : Scope) (parent : Tag) (children : Content) :
    sch.readChild scope parent tag children r = sch.readField scope parent tag children r := by
  unfold readChild
  split
  · rename_i l hl
    have hname : l.name ≠ tag.name := by
      intro he
      have hm := hr l hl
      rw [he, ← ht.plainName_toList, String.ofList_toList] at hm
      exact hseen hm
    rw [if_neg hname]
  · rfl

theorem readContent_append {es fs : List Element} (scope : Scope) (parent : Tag) (r : Reading σ) :
    sch.readContent scope parent (contentOf (es ++ fs)) r =
      (sch.readContent scope parent (contentOf es) r).bind
        (sch.readContent scope parent (contentOf fs)) := by
  induction es generalizing r with
  | nil => rfl
  | cons e es ih =>
    change sch.readContent scope parent (.element e.tag e.children (contentOf (es ++ fs))) r =
      (sch.readContent scope parent (.element e.tag e.children (contentOf es)) r).bind _
    rw [readContent, readContent]
    cases sch.readChild scope parent e.tag e.children r with
    | error _ => rfl
    | ok r => exact ih r

structure Gathers (sch : Schema σ) (names : List String) (es : List Element) (s t : σ) : Prop where
  written : ∀ e ∈ es, e.tag.IsWritten ∧ e.children.IsWritten
  read : ∀ (parent : Tag) (r : Reading σ), parent.IsWritten → r.record = s → r.Orderly →
    (∀ n ∈ names, n ∉ r.seen) →
    ∃ r', sch.readContent [] parent (contentOf es) r = .ok r' ∧ r'.record = t ∧ r'.Orderly ∧
      (∀ x ∈ r.seen, x ∈ r'.seen) ∧ ∀ x ∈ r'.seen, x ∈ names ∨ x ∈ r.seen

namespace Gathers

variable {names more : List String} {es fs : List Element} {s t u : σ}

theorem nil (sch : Schema σ) (s : σ) (names : List String) : sch.Gathers names [] s s where
  written _ he := absurd he List.not_mem_nil
  read _ r _ hs hr _ := ⟨r, rfl, hs, hr, fun _ hx => hx, fun _ hx => .inr hx⟩

theorem append (h : sch.Gathers names es s t) (h' : sch.Gathers more fs t u)
    (hnew : ∀ n ∈ more, n ∉ names) : sch.Gathers (names ++ more) (es ++ fs) s u := by
  refine ⟨?_, ?_⟩
  · intro e he
    exact (List.mem_append.1 he).elim (h.written e) (h'.written e)
  · intro parent r hp hs hr hseen
    obtain ⟨r₁, hread₁, ht, hr₁, hkept₁, hnames₁⟩ :=
      h.read parent r hp hs hr fun n hn => hseen n (List.mem_append_left _ hn)
    have hseen₁ : ∀ n ∈ more, n ∉ r₁.seen := by
      intro n hn hm
      rcases hnames₁ n hm with hm | hm
      · exact hnew n hn hm
      · exact hseen n (List.mem_append_right _ hn) hm
    obtain ⟨r₂, hread₂, hu, hr₂, hkept₂, hnames₂⟩ := h'.read parent r₁ hp ht hr₁ hseen₁
    refine ⟨r₂, ?_, hu, hr₂, fun x hx => hkept₂ x (hkept₁ x hx), ?_⟩
    · rw [readContent_append, hread₁]
      exact hread₂
    · intro x hx
      rcases hnames₂ x hx with hx | hx
      · exact .inl (List.mem_append_right _ hx)
      · exact (hnames₁ x hx).imp_left (List.mem_append_left _)

theorem single {e : Element} {t : σ} (ht : e.tag.IsWritten) (hc : e.children.IsWritten)
    (hread : ∀ (parent : Tag) (r : Reading σ), parent.IsWritten → e.tag.plainName ∉ r.seen →
      r.record = s → sch.readField [] parent e.tag e.children r =
        .ok { record := t, seen := e.tag.plainName :: r.seen }) :
    sch.Gathers [e.tag.plainName] [e] s t where
  written f hf := by
    rw [List.mem_singleton.1 hf]
    exact ⟨ht, hc⟩
  read parent r hp hs hr hseen := by
    have hunseen := hseen _ (List.mem_singleton.2 rfl)
    refine ⟨{ record := t, seen := e.tag.plainName :: r.seen }, ?_, rfl, ?_, ?_, ?_⟩
    · change sch.readContent [] parent (.element e.tag e.children .closed) r = _
      rw [readContent, readChild_of_unseen ht hr hunseen, hread parent r hp hunseen hs]
      rfl
    · intro l hl
      cases hl
    · exact fun x hx => List.mem_cons_of_mem _ hx
    · intro x hx
      exact (List.mem_cons.1 hx).imp_left List.mem_singleton.2

theorem one {sub : Schema τ} {e : Element} {v : τ} (he : e.Holds sub v) (put : τ → σ → σ)
    (hchild : sch.children.lookup e.tag.plainName = some (.one (keep sub put))) (s : σ) :
    sch.Gathers [e.tag.plainName] [e] s (put v s) := by
  refine single he.tag he.children fun parent r _ hseen hs => ?_
  simp only [readField, child?_of_child hchild, if_neg hseen, keep, he.read, hs]
  rfl

theorem optional {sub : Schema τ} {e : Element} {v : τ} (he : e.Holds sub v) (put : τ → σ → σ)
    (hchild : sch.children.lookup e.tag.plainName = some (.optional (keep sub put))) (s : σ) :
    sch.Gathers [e.tag.plainName] [e] s (put v s) := by
  refine single he.tag he.children fun parent r hp hseen hs => ?_
  simp only [readField, child?_of_child hchild, if_neg hseen,
    isAbsent_of_isWritten hp he.tag he.children, keep, he.read, hs]
  rfl

theorem ofOptionAs {ρ : Type} {sub : Schema τ} (h : sch.Gathers names es s t) (name : String)
    (v? : Option ρ) {element : ρ → Element} (reads : ρ → τ)
    (hholds : ∀ v, (element v).Holds sub (reads v)) (set : Option τ → σ → σ)
    (hnew : name ∉ names)
    (hname : ∀ v, (element v).tag.plainName = name)
    (hchild : sch.children.lookup name =
      some (.optional (keep sub fun v => set (some v))))
    (hnone : set none t = t) :
    sch.Gathers (names ++ [name]) (es ++ v?.toList.map element) s (set (v?.map reads) t) := by
  refine h.append ?_ fun n hn => List.mem_singleton.1 hn ▸ hnew
  cases v? with
  | none =>
    rw [Option.map_none, hnone]
    exact nil sch t [name]
  | some v =>
    have hopt := optional (hholds v) (fun v => set (some v)) (by rw [hname]; exact hchild) t
    rwa [hname] at hopt

theorem ofOption {sub : Schema τ} (h : sch.Gathers names es s t) (name : String) (v? : Option τ)
    {element : τ → Element} (hholds : ∀ v, (element v).Holds sub v) (set : Option τ → σ → σ)
    (hnew : name ∉ names)
    (hname : ∀ v, (element v).tag.plainName = name)
    (hchild : sch.children.lookup name =
      some (.optional (keep sub fun v => set (some v))))
    (hnone : set none t = t) :
    sch.Gathers (names ++ [name]) (es ++ v?.toList.map element) s (set v? t) := by
  have hread := h.ofOptionAs name v? id hholds set hnew hname hchild hnone
  rwa [Option.map_id] at hread

theorem readContent_items {ρ : Type} {sub : Schema τ} {element : ρ → Element} {reads : ρ → τ}
    {name item : String} {put : τ → σ → σ} (hholds : ∀ v, (element v).Holds sub (reads v))
    (hname : ∀ v, (element v).tag.plainName = name) (parent : Tag) (vs : List ρ) (r : Reading σ)
    (hlist : r.list = some ⟨name.toList, item, keep sub put⟩) :
    sch.readContent [] parent (contentOf (vs.map element)) r =
      .ok { r with record := vs.foldl (fun s v => put (reads v) s) r.record } := by
  induction vs generalizing r with
  | nil => rfl
  | cons v vs ih =>
    have htag : name.toList = (element v).tag.name := by
      rw [← hname v, (hholds v).tag.plainName_toList]
    have hstep : sch.readChild [] parent (element v).tag (element v).children r =
        .ok { r with record := put (reads v) r.record } := by
      simp only [readChild, hlist, htag, if_true, keep, (hholds v).read]
      rfl
    change sch.readContent [] parent
      (.element (element v).tag (element v).children (contentOf (vs.map element))) r = _
    rw [readContent, hstep]
    exact ih { r with record := put (reads v) r.record } hlist

theorem foldl_put {ρ : Type} {reads : ρ → τ} {put : τ → σ → σ} {set : List τ → σ → σ}
    (hput : ∀ v vs, put v (set vs t) = set (v :: vs) t) (vs : List ρ) (done : List τ) :
    vs.foldl (fun s v => put (reads v) s) (set done t) =
      set ((vs.map reads).reverse ++ done) t := by
  induction vs generalizing done with
  | nil => rfl
  | cons v vs ih =>
    rw [List.foldl_cons, hput, ih]
    simp

theorem readChild_first {sub : Schema τ} {e : Element} {v : τ} {item : String} {put : τ → σ → σ}
    (he : e.Holds sub v) {r : Reading σ} (hr : r.Orderly) (hseen : e.tag.plainName ∉ r.seen)
    (hchild : sch.children.lookup e.tag.plainName = some (.many item (keep sub put)))
    (parent : Tag) :
    sch.readChild [] parent e.tag e.children r =
      .ok { record := put v r.record, seen := e.tag.plainName :: r.seen
            list := some ⟨e.tag.name, item, keep sub put⟩ } := by
  rw [readChild_of_unseen he.tag hr hseen]
  simp only [readField, child?_of_child hchild, if_neg hseen, keep, he.read]
  rfl

theorem manyAs {ρ : Type} {sub : Schema τ} (h : sch.Gathers names es s t) (name item : String)
    (vs : List ρ) {element : ρ → Element} (reads : ρ → τ)
    (hholds : ∀ v, (element v).Holds sub (reads v)) {put : τ → σ → σ} (set : List τ → σ → σ)
    (hnew : name ∉ names) (hname : ∀ v, (element v).tag.plainName = name)
    (hchild : sch.children.lookup name = some (.many item (keep sub put)))
    (hput : ∀ v vs, put v (set vs t) = set (v :: vs) t) (hnil : set [] t = t) :
    sch.Gathers (names ++ [name]) (es ++ vs.map element) s (set (vs.map reads).reverse t) := by
  refine h.append ?_ fun n hn => List.mem_singleton.1 hn ▸ hnew
  refine ⟨?written, ?read⟩
  case written =>
    intro e he
    obtain ⟨v, -, rfl⟩ := List.mem_map.1 he
    exact ⟨(hholds v).tag, (hholds v).children⟩
  case read =>
    intro parent r hp hs hr hseen
    cases vs with
    | nil => exact ⟨r, rfl, hs.trans hnil.symm, hr, fun _ hx => hx, fun _ hx => .inr hx⟩
    | cons v vs =>
      have htag : (element v).tag.name = name.toList := by
        rw [← (hholds v).tag.plainName_toList, hname v]
      have hunseen : name ∉ r.seen := hseen name (List.mem_singleton.2 rfl)
      have hfirst := readChild_first (hholds v) hr (by rwa [hname v]) (by rwa [hname v]) parent
      rw [hname v, htag, hs] at hfirst
      refine ⟨{ record := vs.foldl (fun s v => put (reads v) s) (put (reads v) t)
                seen := name :: r.seen
                list := some ⟨name.toList, item, keep sub put⟩ }, ?_, ?_, ?_, ?_, ?_⟩
      · change sch.readContent [] parent
          (.element (element v).tag (element v).children (contentOf (vs.map element))) r = _
        rw [readContent, hfirst]
        exact readContent_items hholds hname parent vs _ rfl
      · have hone : put (reads v) t = set [reads v] t := by rw [← hput, hnil]
        change vs.foldl (fun s v => put (reads v) s) (put (reads v) t) = _
        rw [hone, foldl_put hput, List.map_cons, List.reverse_cons]
      · intro l hl
        cases hl
        rw [String.ofList_toList]
        exact List.mem_cons_self ..
      · exact fun x hx => List.mem_cons_of_mem _ hx
      · intro x hx
        exact (List.mem_cons.1 hx).imp_left List.mem_singleton.2

theorem many {sub : Schema τ} (h : sch.Gathers names es s t) (name item : String) (vs : List τ)
    {element : τ → Element} (hholds : ∀ v, (element v).Holds sub v) {put : τ → σ → σ}
    (set : List τ → σ → σ) (hnew : name ∉ names)
    (hname : ∀ v, (element v).tag.plainName = name)
    (hchild : sch.children.lookup name = some (.many item (keep sub put)))
    (hput : ∀ v vs, put v (set vs t) = set (v :: vs) t)
    (hnil : set [] t = t) :
    sch.Gathers (names ++ [name]) (es ++ vs.map element) s (set vs.reverse t) := by
  have hread := h.manyAs name item vs id hholds set hnew hname hchild hput hnil
  rwa [List.map_id] at hread

end Gathers

end Schema

end Markup

end UpdateProtocol
