import UpdateProtocol.Proofs.Document.Owned

namespace UpdateProtocol

open UpdateProtocol.Markup
open UpdateProtocol.Markup.Schema (keep keeps_keep)

namespace Markup

variable {σ τ : Type}

structure Content.Lists (c : Content) (name : String) (reads : Element → τ → Prop) (vs : List τ) :
    Prop where
  row : c.InOneRow name
  items : List.Forall₂ reads (c.named name) vs

inductive Wraps (item : String) (scope : Scope) (reads : Scope → Element → τ → Prop) :
    List Element → List τ → Prop
  | missing : Wraps item scope reads [] []
  | whole {e : Element} {vs : List τ} (items : e.children.Lists item (reads (e.scope scope)) vs) :
      Wraps item scope reads [e] vs

inductive Presence (absent : Element → Bool) (reads : Element → τ → Prop) :
    List Element → Option τ → Prop
  | missing : Presence absent reads [] none
  | absent {e : Element} (h : absent e = true) : Presence absent reads [e] none
  | present {e : Element} {v : τ} (h : absent e = false) (hreads : reads e v) :
      Presence absent reads [e] (some v)

namespace Leads

variable {ε γ β : Type} {step : ε → γ → γ → Prop} {on : ε → β → β → Prop} {get : γ → β}

theorem filter {p : ε → Bool} {es : List ε} {g g' : γ} (h : Leads step es g g')
    (hskip : ∀ e s t, p e = false → step e s t → get t = get s)
    (hon : ∀ e s t, p e = true → step e s t → on e (get s) (get t)) :
    Leads on (es.filter p) (get g) (get g') := by
  induction h with
  | nil g => exact .nil _
  | @cons e es g g' g'' first _ ih =>
    cases hp : p e with
    | true =>
      rw [List.filter_cons_of_pos hp]
      exact .cons (hon e g g' hp first) ih
    | false =>
      rw [List.filter_cons_of_neg (by rw [hp]; exact Bool.false_ne_true),
        ← hskip e g g' hp first]
      exact ih

theorem items {reads : ε → β → Prop} {es : List ε} {done all : List β}
    (h : Leads (fun e bs bs' => ∃ v, reads e v ∧ bs' = v :: bs) es done all) :
    ∃ vs, List.Forall₂ reads es vs ∧ all = vs.reverse ++ done := by
  induction h with
  | nil g => exact ⟨[], .nil, rfl⟩
  | cons first _ ih =>
    obtain ⟨v, hv, rfl⟩ := first
    obtain ⟨vs, hvs, rfl⟩ := ih
    exact ⟨v :: vs, .cons hv hvs, by simp⟩

theorem of_length_le_one {es : List ε} {b b' : β} (h : Leads on es b b') (hlength : es.length ≤ 1) :
    (es = [] ∧ b' = b) ∨ ∃ e, es = [e] ∧ on e b b' := by
  cases h with
  | nil => exact .inl ⟨rfl, rfl⟩
  | cons first rest =>
    cases rest with
    | nil => exact .inr ⟨_, rfl, first⟩
    | cons => exact absurd hlength (by simp)

end Leads

namespace Schema

variable {sch : Schema σ} {sub : Schema τ}

theorem keeps_untouched {β : Type} {G : σ → β} {put : τ → σ → σ}
    (h : ∀ v s, G (put v s) = G s) {b : β} :
    ElementReader.Keeps (fun s => G s = b) (keep sub put) :=
  keeps_keep (Q := fun _ => True) (fun _ => trivial) fun v s _ hs => (h v s).trans hs

structure Confines (sch : Schema σ) (name : String) {β : Type} (get : σ → β) : Prop where
  attributes : ∀ b, ∀ f ∈ sch.attributes, f.2.Keeps fun s => get s = b
  children : ∀ b, ∀ c ∈ sch.children, c.1 ≠ name → c.2.read.Keeps fun s => get s = b

namespace Confines

variable {β : Type} {name : String} {get : σ → β} {child : Child σ}

theorem read_keeps (h : sch.Confines name get) {other : String} (hne : other ≠ name)
    (hchild : sch.child? other = some child) (b : β) : child.read.Keeps fun s => get s = b :=
  forall_mem_fields (Q := fun n c => n ≠ name → c.read.Keeps fun s => get s = b) (h.children b)
    (fun f hf _ => by
      rw [f.2.read_child]
      exact (h.attributes b f hf).read) _ (mem_of_lookup_eq_some hchild) hne

theorem readAttributes (h : sch.Confines name get) {text : List Char} {r : Reading σ}
    (hr : sch.readAttributes { record := sch.fresh } text = .ok r) :
    get r.record = get sch.fresh :=
  readAttributes_keeps (P := fun s => get s = get sch.fresh) rfl (h.attributes _) hr

theorem leads (h : sch.Confines name get) {scope : Scope} {parent : Tag} {c : Content} {s t : σ}
    {on : Element → β → β → Prop} (hleads : Leads (sch.Acts scope parent) c.elements s t)
    (hon : ∀ e s t, e.tag.plainName = name → sch.Acts scope parent e s t → on e (get s) (get t)) :
    Leads on (c.named name) (get s) (get t) := by
  refine hleads.filter ?_ fun e s t he => hon e s t (of_decide_eq_true he)
  intro e s t he hacts
  have hname : e.tag.plainName ≠ name := of_decide_eq_false he
  exact hacts.keeps (P := fun t => get t = get s) (fun hchild => h.read_keeps hname hchild _) rfl

end Confines

theorem leads_of_read (hapart : sch.Apart) {name : String} {child : Child σ}
    (hchild : sch.children.lookup name = some child) {β : Type} {get : σ → β}
    (hconfines : sch.Confines name get) {scope : Scope} {e : Element} {v : σ}
    (h : sch.read scope e.tag e.children = .ok v) (on : Element → β → β → Prop)
    (hon : ∀ f s t, f.tag.plainName = name → sch.Acts (e.scope scope) e.tag f s t →
      on f (get s) (get t)) :
    e.children.InOneRow name ∧
      ((∀ item read, child ≠ .many item read) → (e.children.named name).length ≤ 1) ∧
      ∃ t, sch.inOrder t = v ∧ Leads on (e.children.named name) (get sch.fresh) (get t) := by
  obtain ⟨r, hattributes, h⟩ := ok_of_bind h
  obtain ⟨r', hcontent, h⟩ := ok_of_bind h
  obtain ⟨hlist, hseen⟩ := readAttributes_seen hattributes
  have htidy : sch.Tidy r := .of_none hlist
  have hknown : sch.child? name = some child := child?_of_child hchild
  have hnew : name ∉ r.seen := fun hm =>
    hseen name hm (hapart.children _ (mem_of_lookup_eq_some hchild))
  obtain ⟨before, row, after, hes, hrow, hlength⟩ :=
    (readContent_stands htidy hcontent (by simp [hknown])).2 hnew
  split at h
  · cases h
  · cases h
    refine ⟨⟨before, row, after, hes, hrow⟩, fun hmany => ?_, r'.record, rfl, ?_⟩
    · rw [Content.named, hes, hrow.filter_eq]
      refine hlength fun item read he => hmany item read ?_
      rw [hknown] at he
      exact Option.some.inj he
    · rw [← hconfines.readAttributes hattributes]
      exact hconfines.leads (readContent_leads htidy hcontent) hon

theorem lists_of_read (hapart : sch.Apart) (name : String) (get : σ → List τ) {item : String}
    {put : τ → σ → σ} (hchild : sch.children.lookup name = some (.many item (keep sub put)))
    (hput : ∀ v s, get (put v s) = v :: get s) (hconfines : sch.Confines name get)
    (hnil : get sch.fresh = []) (hinOrder : ∀ s, get (sch.inOrder s) = (get s).reverse)
    {scope : Scope} {e : Element} {v : σ} (h : sch.read scope e.tag e.children = .ok v)
    {reads : Element → τ → Prop}
    (hreads : ∀ {f w}, sub.read (e.scope scope) f.tag f.children = .ok w → reads f w) :
    e.children.Lists name reads (get v) := by
  obtain ⟨hrow, -, t, rfl, hleads⟩ :=
    leads_of_read hapart hchild hconfines h (fun f bs bs' => ∃ w, reads f w ∧ bs' = w :: bs) <| by
      intro f s t hf hacts
      have hknown := hf ▸ child?_of_child hchild
      cases hacts with
      | many h ht =>
        rw [hknown] at h
        cases h
        obtain ⟨w, hw, rfl⟩ := ok_of_map ht
        exact ⟨w, hreads hw, hput w s⟩
      | unknown h => simp [hknown] at h
      | one h => simp [hknown] at h
      | absent h => simp [hknown] at h
      | optional h => simp [hknown] at h
  obtain ⟨vs, hvs, hget⟩ := hleads.items
  rw [hinOrder, hget, hnil, List.append_nil, List.reverse_reverse]
  exact ⟨hrow, hvs⟩

theorem lists_of_listSchema {inner item : String} {scope : Scope} {e : Element} {vs : List τ}
    (h : (listSchema inner item sub).read scope e.tag e.children = .ok vs)
    {reads : Element → τ → Prop}
    (hreads : ∀ {f w}, sub.read (e.scope scope) f.tag f.children = .ok w → reads f w) :
    e.children.Lists inner reads vs := by
  have hchild : (listSchema inner item sub).children.lookup inner =
      some (.many item (keep sub List.cons)) := by simp [listSchema]
  have hconfines : (listSchema inner item sub).Confines inner id :=
    ⟨fun _ => List.forall_mem_nil _, by simp [listSchema]⟩
  exact lists_of_read ⟨fun _ _ => rfl, List.forall_mem_nil _⟩ inner id hchild (fun _ _ => rfl)
    hconfines rfl (fun _ => rfl) h hreads

theorem wraps_of_read (hapart : sch.Apart) (name : String) (get : σ → List τ)
    {inner item : String} {set : List τ → σ → σ}
    (hchild : sch.children.lookup name = some (.one (keep (listSchema inner item sub) set)))
    (hset : ∀ vs s, get (set vs s) = vs) (hconfines : sch.Confines name get)
    (hnil : get sch.fresh = []) (hinOrder : sch.inOrder = id)
    {scope : Scope} {e : Element} {v : σ} (h : sch.read scope e.tag e.children = .ok v)
    {reads : Scope → Element → τ → Prop}
    (hreads : ∀ {scope f w}, sub.read scope f.tag f.children = .ok w → reads scope f w) :
    Wraps inner (e.scope scope) reads (e.children.named name) (get v) := by
  obtain ⟨-, hlength, t, rfl, hleads⟩ :=
    leads_of_read hapart hchild hconfines h
      (fun f _ vs => f.children.Lists inner (reads (f.scope (e.scope scope))) vs) <| by
      intro f s t hf hacts
      have hknown := hf ▸ child?_of_child hchild
      cases hacts with
      | one h ht =>
        rw [hknown] at h
        cases h
        obtain ⟨vs, hvs, rfl⟩ := ok_of_map ht
        rw [hset]
        exact lists_of_listSchema hvs hreads
      | unknown h => simp [hknown] at h
      | absent h => simp [hknown] at h
      | optional h => simp [hknown] at h
      | many h => simp [hknown] at h
  rw [hinOrder, id_eq]
  obtain ⟨hempty, hget⟩ | ⟨f, hsingle, hlists⟩ :=
    hleads.of_length_le_one (hlength fun _ _ => by simp)
  · rw [hempty, hget, hnil]
    exact .missing
  · rw [hsingle]
    exact .whole hlists

theorem presence_of_read (hapart : sch.Apart) (name : String) (get : σ → Option τ)
    {set : τ → σ → σ} (hchild : sch.children.lookup name = some (.optional (keep sub set)))
    (hset : ∀ v s, get (set v s) = some v) (hconfines : sch.Confines name get)
    (hnone : get sch.fresh = none) (hinOrder : ∀ s, get (sch.inOrder s) = get s)
    {scope : Scope} {e : Element} {v : σ} (h : sch.read scope e.tag e.children = .ok v)
    {reads : Element → τ → Prop}
    (hreads : ∀ {f w}, sub.read (e.scope scope) f.tag f.children = .ok w → reads f w) :
    Presence (fun f => isAbsent (e.scope scope) e.tag f.tag f.children) reads
      (e.children.named name) (get v) := by
  obtain ⟨-, hlength, t, rfl, hleads⟩ :=
    leads_of_read hapart hchild hconfines h (fun f b b' =>
      (isAbsent (e.scope scope) e.tag f.tag f.children = true ∧ b' = b) ∨
        isAbsent (e.scope scope) e.tag f.tag f.children = false ∧ ∃ w, reads f w ∧ b' = some w)
      <| by
      intro f s t hf hacts
      have hknown := hf ▸ child?_of_child hchild
      cases hacts with
      | absent _ habsent => exact .inl ⟨habsent, rfl⟩
      | optional h habsent ht =>
        rw [hknown] at h
        cases h
        obtain ⟨w, hw, rfl⟩ := ok_of_map ht
        exact .inr ⟨habsent, w, hreads hw, hset w s⟩
      | unknown h => simp [hknown] at h
      | one h => simp [hknown] at h
      | many h => simp [hknown] at h
  rw [hinOrder]
  obtain ⟨hempty, hget⟩ | ⟨f, hsingle, ⟨habsent, hget⟩ | ⟨habsent, w, hw, hget⟩⟩ :=
    hleads.of_length_le_one (hlength fun _ _ => by simp)
  · rw [hempty, hget, hnone]
    exact .missing
  · rw [hsingle, hget, hnone]
    exact .absent habsent
  · rw [hsingle, hget]
    exact .present habsent hw

end Schema

end Markup

end UpdateProtocol
