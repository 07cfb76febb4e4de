import Mathlib.Data.List.TakeDrop
import Mathlib.Data.List.TakeWhile
import UpdateProtocol.Markup.Content
import UpdateProtocol.Proofs.Markup.Value
import UpdateProtocol.Proofs.Text.Pieces

namespace UpdateProtocol.Markup

open UpdateProtocol.Text

def isNameChar (c : Char) : Bool := c.isAlphanum || c = '_'

def IsName (name : String) : Prop := name.toList ≠ [] ∧ ∀ c ∈ name.toList, isNameChar c = true

instance (name : String) : Decidable (IsName name) :=
  decidable_of_iff (!name.toList.isEmpty && name.toList.all isNameChar) (by simp [IsName])

theorem ne_of_isNameChar {c d : Char} (h : isNameChar c = true) (hd : isNameChar d = false) :
    c ≠ d := by
  rintro rfl
  rw [h] at hd
  exact Bool.noConfusion hd

theorem isSpace_of_isNameChar {c : Char} (h : isNameChar c = true) : isSpace c = false := by
  have hs := ne_of_isNameChar h (d := ' ') (by decide)
  have ht := ne_of_isNameChar h (d := '\t') (by decide)
  have hn := ne_of_isNameChar h (d := '\n') (by decide)
  have hr := ne_of_isNameChar h (d := '\x0d') (by decide)
  simp [isSpace, hs, ht, hn, hr]

theorem IsName.cons {name : String} (h : IsName name) :
    ∃ c rest, name.toList = c :: rest ∧ isNameChar c = true ∧ ∀ d ∈ rest, isNameChar d = true := by
  obtain ⟨hne, hall⟩ := h
  cases hn : name.toList with
  | nil => exact absurd hn hne
  | cons c rest =>
    rw [hn] at hall
    refine ⟨c, rest, rfl, hall c (List.mem_cons_self ..), ?_⟩
    intro d hd
    exact hall d (List.mem_cons_of_mem _ hd)

theorem IsName.not_mem {name : String} (h : IsName name) {d : Char} (hd : isNameChar d = false) :
    d ∉ name.toList := fun hm => ne_of_isNameChar (h.2 d hm) hd rfl

theorem qualifier?_of_isName {name : String} (h : IsName name) : qualifier? name.toList = none := by
  rw [qualifier?, splitFirst?_eq_none_iff.2 (h.not_mem (by decide)), Option.map_none]

theorem localName_of_isName {name : String} (h : IsName name) :
    localName name.toList = name.toList := by
  rw [localName, splitFirst?_eq_none_iff.2 (h.not_mem (by decide))]

def Attribute.written (a : String × String) : Attribute := ⟨a.1.toList, escape a.2.toList⟩

theorem foldl_of_kept {σ : Type} {step : σ → Char → σ} (state : List Char → σ) {s : List Char}
    (h : ∀ c ∈ s, ∀ read, step (state read) c = state (c :: read)) (read : List Char) :
    s.foldl step (state read) = state (s.reverse ++ read) := by
  induction s generalizing read with
  | nil => rfl
  | cons c s ih =>
    rw [List.foldl_cons, h c (List.mem_cons_self ..),
      ih fun d hd => h d (List.mem_cons_of_mem _ hd)]
    simp

namespace Attribute

theorem scan_key {s : List Char} (h : ∀ c ∈ s, isNameChar c = true) (read : List Char)
    (items : List Item) :
    s.foldl Scan.step ⟨.key read, items⟩ = ⟨.key (s.reverse ++ read), items⟩ := by
  refine foldl_of_kept (fun read => Scan.mk (.key read) items) ?_ read
  intro c hc read
  have hname := h c hc
  simp [Scan.step, ne_of_isNameChar hname (d := '=') (by decide), isSpace_of_isNameChar hname]

theorem scan_value {s : List Char} (h : '"' ∉ s) (key read : List Char) (items : List Item) :
    s.foldl Scan.step ⟨.value key '"' read, items⟩ =
      ⟨.value key '"' (s.reverse ++ read), items⟩ := by
  refine foldl_of_kept (fun read => Scan.mk (.value key '"' read) items) ?_ read
  intro c hc read
  have hquote : c ≠ '"' := fun he => h (he ▸ hc)
  simp [Scan.step, hquote]

def text (a : String × String) : List Char :=
  ' ' :: a.1.toList ++ "=\"".toList ++ escape a.2.toList ++ ['"']

theorem scan_text {a : String × String} (h : IsName a.1) (items : List Item) :
    (text a).foldl Scan.step ⟨.gap, items⟩ = ⟨.gap, .pair (written a) :: items⟩ := by
  obtain ⟨c, rest, hname, hc, hrest⟩ := h.cons
  have hfirst : Scan.step ⟨.gap, items⟩ c = ⟨.key [c], items⟩ := by
    simp [Scan.step, isSpace_of_isNameChar hc]
  have hopen : "=\"".toList.foldl Scan.step ⟨.key (rest.reverse ++ [c]), items⟩ =
      ⟨.value (c :: rest) '"' [], items⟩ := by
    change Scan.step (Scan.step ⟨.key (rest.reverse ++ [c]), items⟩ '=') '"' = _
    simp [Scan.step, isSpace]
  simp only [text, written, hname, List.cons_append, List.foldl_cons, List.foldl_append]
  change Scan.step _ '"' = _
  rw [show Scan.step ⟨.gap, items⟩ ' ' = ⟨.gap, items⟩ from rfl, hfirst, scan_key hrest, hopen,
    scan_value (quote_not_mem_escape _)]
  simp [Scan.step]

theorem scan_texts {as : List (String × String)} (h : ∀ a ∈ as, IsName a.1) (found : List Item) :
    (as.flatMap text).foldl Scan.step ⟨.gap, found⟩ =
      ⟨.gap, (as.map fun a => Item.pair (written a)).reverse ++ found⟩ := by
  induction as generalizing found with
  | nil => rfl
  | cons a as ih =>
    rw [List.flatMap_cons, List.foldl_append, scan_text (h a (List.mem_cons_self ..)),
      ih fun b hb => h b (List.mem_cons_of_mem _ hb)]
    simp

theorem items_texts {as : List (String × String)} (h : ∀ a ∈ as, IsName a.1) :
    items (as.flatMap text) = (as.map written).map .pair := by
  unfold items
  rw [scan_texts h]
  simp [Scan.finish]

theorem untilMalformed_pairs (as : List Attribute) : untilMalformed (as.map .pair) = as := by
  induction as with
  | nil => rfl
  | cons a as ih => rw [List.map_cons, untilMalformed, ih]

theorem strictly_pairs {as : List Attribute} {seen : List (List Char)}
    (hd : (as.map Attribute.key).Nodup) (hs : ∀ a ∈ as, a.key ∉ seen) :
    strictly seen (as.map .pair) = (as, true) := by
  induction as generalizing seen with
  | nil => rfl
  | cons a as ih =>
    obtain ⟨ha, hd⟩ := List.nodup_cons.1 hd
    have hmore : ∀ b ∈ as, b.key ∉ a.key :: seen := by
      intro b hb hm
      rcases List.mem_cons.1 hm with he | hm
      · exact ha (he ▸ List.mem_map_of_mem hb)
      · exact hs b (List.mem_cons_of_mem _ hb) hm
    rw [List.map_cons, strictly, if_neg (hs a (List.mem_cons_self ..)), ih hd hmore]

theorem pair_mem_of_mem_leniently {a : Attribute} {seen : List (List Char)} {is : List Item}
    (h : a ∈ leniently seen is) : .pair a ∈ is := by
  fun_induction leniently seen is with
  | case1 => exact absurd h List.not_mem_nil
  | case2 _ _ ih => exact List.mem_cons_of_mem _ (ih h)
  | case3 _ _ _ ih => exact List.mem_cons_of_mem _ (ih h)
  | case4 _ b _ _ ih => exact List.mem_cons_of_mem _ (ih h)
  | case5 _ b _ _ ih =>
    rcases List.mem_cons.1 h with rfl | h
    · exact List.mem_cons_self ..
    · exact List.mem_cons_of_mem _ (ih h)

end Attribute

theorem Tag.text_of (name : String) (as : List (String × String)) :
    (Tag.of name as).text = as.flatMap Attribute.text := rfl

inductive Tag.IsWritten : Tag → Prop
  | of {name : String} {as : List (String × String)} (hname : IsName name)
      (hkeys : ∀ a ∈ as, IsName a.1) : IsWritten (.of name as)

namespace Scope

theorem bind?_of_qualifier?_none {scope : Scope} {a : Attribute} (h : qualifier? a.key = none) :
    bind? scope a = some scope := by
  rw [bind?, h]

theorem foldlM_bind?_of_qualifier?_none {scope : Scope} {as : List Attribute}
    (h : ∀ a ∈ as, qualifier? a.key = none) : as.foldlM bind? scope = some scope := by
  induction as with
  | nil => rfl
  | cons a as ih =>
    rw [List.foldlM_cons, bind?_of_qualifier?_none (h a (List.mem_cons_self ..))]
    exact ih fun b hb => h b (List.mem_cons_of_mem _ hb)

theorem enter?_of_isWritten {t : Tag} (h : t.IsWritten) (scope : Scope) :
    scope.enter? t.text = some scope := by
  obtain ⟨-, hkeys⟩ := h
  rw [Tag.text_of, enter?, Attribute.items_texts hkeys, Attribute.untilMalformed_pairs]
  refine foldlM_bind?_of_qualifier?_none fun a ha => ?_
  obtain ⟨b, hb, rfl⟩ := List.mem_map.1 ha
  exact qualifier?_of_isName (hkeys b hb)

theorem isNil_of_qualifier?_none {scope : Scope} {a : Attribute} (h : qualifier? a.key = none) :
    scope.isNil a = false := by
  simp [isNil, h]

theorem marksNil_of_isWritten {t : Tag} (h : t.IsWritten) (scope : Scope) :
    scope.marksNil t.text = false := by
  obtain ⟨-, hkeys⟩ := h
  rw [Tag.text_of, marksNil, Attribute.items_texts hkeys, List.any_eq_false]
  intro a ha
  have hm := Attribute.pair_mem_of_mem_leniently ha
  simp only [List.map_map, List.mem_map, Function.comp_apply, Attribute.Item.pair.injEq] at hm
  obtain ⟨b, hb, rfl⟩ := hm
  have hq : qualifier? (Attribute.written b).key = none := qualifier?_of_isName (hkeys b hb)
  rw [isNil_of_qualifier?_none hq]
  exact Bool.false_ne_true

end Scope

end UpdateProtocol.Markup
