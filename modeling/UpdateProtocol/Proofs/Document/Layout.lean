import UpdateProtocol.Proofs.Document.Attributes
import UpdateProtocol.Proofs.Document.Children

namespace UpdateProtocol

open UpdateProtocol.Markup

namespace Markup.Schema

variable {σ : Type} {sch : Schema σ}

theorem read_of_ok {scope : Scope} {tag : Tag} {children : Content} {r₁ r₂ : Reading σ}
    (hattributes : sch.readAttributes { record := sch.fresh } tag.text = .ok r₁)
    (hcontent : sch.readContent ((scope.enter? tag.text).getD scope) tag children r₁ = .ok r₂)
    (hrequired : sch.required.find? (· ∉ r₂.seen) = none) :
    sch.read scope tag children = .ok (sch.inOrder r₂.record) := by
  simp only [read, hattributes, bind, Except.bind, hcontent, hrequired]

theorem ne_at_of_isName {name : String} (h : IsName name) (f : String) : name ≠ "@" ++ f := by
  rintro rfl
  refine h.not_mem (d := '@') (by decide) ?_
  rw [String.toList_append]
  exact List.mem_append_left _ (by decide)

end Markup.Schema

theorem Element.Holds.of {σ : Type} {sch : Schema σ} {name : String} {names kids : List String}
    {as : List (String × String)} {es : List Element} {s t v : σ}
    (hf : sch.Fills names as sch.fresh s) (hg : sch.Gathers kids es s t) (hv : sch.inOrder t = v)
    (hrequired : ∀ f ∈ sch.required, f ∈ as.map fun a => "@" ++ a.1)
    (hname : IsName name) (hnames : ∀ n ∈ names ++ kids, IsName n) (hd : names.Nodup)
    (hknown : ∀ f ∈ sch.required, (sch.attributes.lookup f).isSome = true) :
    Element.Holds sch ⟨.of name as, contentOf es⟩ v := by
  have hn : ∀ n ∈ names, IsName n := fun n hn => hnames n (List.mem_append_left _ hn)
  have hk : ∀ n ∈ kids, IsName n := fun n hn => hnames n (List.mem_append_right _ hn)
  have hkeys : ∀ a ∈ as, IsName a.1 := fun a ha =>
    hn a.1 (hf.sublist.subset (List.mem_map_of_mem ha))
  have htag : (Tag.of name as).IsWritten := .of hname hkeys
  have hseen : ∀ n ∈ kids, n ∉ (sch.fieldsOf as).reverse := by
    intro n hn hm
    obtain ⟨a, -, he⟩ := List.mem_map.1 (List.mem_filter.1 (List.mem_reverse.1 hm)).1
    exact Schema.ne_at_of_isName (hk n hn) a.1 he.symm
  obtain ⟨r, hread, hrecord, -, hkept, -⟩ :=
    hg.read (.of name as) { record := s, seen := (sch.fieldsOf as).reverse } htag rfl
      (fun _ hl => nomatch hl) hseen
  have hfound : sch.required.find? (· ∉ r.seen) = none := by
    rw [List.find?_eq_none]
    intro f hf
    have hm := hkept f (List.mem_reverse.2 (List.mem_filter.2 ⟨hrequired f hf, hknown f hf⟩))
    simpa using hm
  refine ⟨htag, contentOf_isWritten hg.written, ?_⟩
  rw [← hv, ← hrecord]
  refine Schema.read_of_ok (hf.readAttributes_text hd hn name) ?_ hfound
  rw [Scope.enter?_of_isWritten htag, Option.getD_some]
  exact hread

theorem Markup.Schema.Gathers.wrapped {σ τ : Type} {sch : Schema σ} {sub : Schema τ}
    {names : List String} {es : List Element} {s t : σ} (h : sch.Gathers names es s t)
    (outer inner item : String) (vs : List τ) {element : τ → Element}
    (hholds : ∀ v, (element v).Holds sub v) (set : List τ → σ → σ)
    (hnew : outer ∉ names) (houter : IsName outer)
    (hinner : IsName inner)
    (hname : ∀ v, (element v).tag.plainName = inner)
    (hchild : sch.children.lookup outer =
      some (.one (Schema.keep (listSchema inner item sub) set)))
    (hnil : set [] t = t) :
    sch.Gathers (names ++ [outer]) (es ++ wrapped outer (vs.map element)) s (set vs t) := by
  refine h.append ?_ fun n hn => List.mem_singleton.1 hn ▸ hnew
  cases vs with
  | nil =>
    rw [hnil]
    exact .nil sch t [outer]
  | cons v vs =>
    have hempty : (listSchema inner item sub).Gathers [] [] [] [] := .nil _ [] []
    have hchildren : (listSchema inner item sub).children.lookup inner =
        some (.many item (Schema.keep sub List.cons)) := by simp [listSchema]
    have hgathers := hempty.many inner item (v :: vs) hholds (fun vs _ => vs) List.not_mem_nil
      hname hchildren (fun _ _ => rfl) rfl
    have hitems : Element.Holds (listSchema inner item sub)
        ⟨.of outer [], contentOf ((v :: vs).map element)⟩ (v :: vs) :=
      .of (.start _) hgathers (List.reverse_reverse _) (List.forall_mem_nil _) houter
        (fun _ hn => List.mem_singleton.1 hn ▸ hinner) .nil (List.forall_mem_nil _)
    have hone := Gathers.one hitems set (by
      rw [Tag.plainName, Tag.name_of, localName_of_isName houter, String.ofList_toList]
      exact hchild) t
    rwa [Tag.plainName, Tag.name_of, localName_of_isName houter, String.ofList_toList] at hone

end UpdateProtocol
