import Mathlib.Tactic.SplitIfs
import UpdateProtocol.Proofs.Markup.Source
import UpdateProtocol.Proofs.Markup.Tag

namespace UpdateProtocol.Markup

open UpdateProtocol.Text

namespace Source

theorem ne_of_isMark {c d : Char} (h : isMark c = false) (hd : isMark d = true) : c ≠ d := by
  rintro rfl
  rw [h] at hd
  exact Bool.noConfusion hd

theorem isSpace_of_isMark {c : Char} (h : isMark c = false) : isSpace c = false := by
  rw [isMark, Bool.or_eq_false_iff] at h
  exact h.1

theorem ne_of_isSpace {c d : Char} (h : isSpace c = true) (hd : isSpace d = false) : c ≠ d := by
  rintro rfl
  rw [h] at hd
  exact Bool.noConfusion hd

theorem IsWord.cons {s : List Char} (h : IsWord s) :
    ∃ c rest, s = c :: rest ∧ isMark c = false ∧ ∀ d ∈ rest, isMark d = false := by
  obtain ⟨hne, hall⟩ := h
  cases s with
  | nil => exact absurd rfl hne
  | cons c rest =>
    obtain ⟨hc, hrest⟩ := List.forall_mem_cons.1 hall
    exact ⟨c, rest, rfl, hc, hrest⟩

namespace Attribute

open Markup.Attribute (Item Scan)

variable {found : List Item}

theorem scan_blanks {mode : Markup.Attribute.Mode} {s : List Char} (h : IsGap s)
    (hmode : ∀ c, isSpace c = true → Scan.step ⟨mode, found⟩ c = ⟨mode, found⟩) :
    s.foldl Scan.step ⟨mode, found⟩ = ⟨mode, found⟩ := by
  induction s with
  | nil => rfl
  | cons c s ih =>
    obtain ⟨hc, hs⟩ := List.forall_mem_cons.1 h
    rw [List.foldl_cons, hmode c hc, ih hs]

theorem scan_gap {s : List Char} (h : IsGap s) :
    s.foldl Scan.step ⟨.gap, found⟩ = ⟨.gap, found⟩ :=
  scan_blanks h fun c hc => by simp only [Scan.step, hc, if_true]

theorem scan_word {s : List Char} (h : IsWord s) :
    s.foldl Scan.step ⟨.gap, found⟩ = ⟨.key s.reverse, found⟩ := by
  obtain ⟨c, rest, rfl, hc, hrest⟩ := h.cons
  have hfirst : Scan.step ⟨.gap, found⟩ c = ⟨.key [c], found⟩ := by
    simp [Scan.step, isSpace_of_isMark hc]
  have hmore : rest.foldl Scan.step ⟨.key [c], found⟩ = ⟨.key (rest.reverse ++ [c]), found⟩ := by
    refine foldl_of_kept (fun read => Scan.mk (.key read) found) ?_ [c]
    intro d hd read
    have hmark := hrest d hd
    simp [Scan.step, ne_of_isMark hmark (d := '=') (by decide), isSpace_of_isMark hmark]
  rw [List.foldl_cons, hfirst, hmore, List.reverse_cons]

theorem scan_equals {s : List Char} (h : IsGap s) (key : List Char) :
    (s ++ ['=']).foldl Scan.step ⟨.key key.reverse, found⟩ = ⟨.quote key, found⟩ := by
  cases s with
  | nil =>
    change Scan.step ⟨.key key.reverse, found⟩ '=' = _
    simp [Scan.step]
  | cons c s =>
    obtain ⟨hc, hs⟩ := List.forall_mem_cons.1 h
    have hfirst : Scan.step ⟨.key key.reverse, found⟩ c = ⟨.equals key, found⟩ := by
      simp [Scan.step, hc, ne_of_isSpace hc (d := '=') (by decide)]
    have hmore : s.foldl Scan.step ⟨.equals key, found⟩ = ⟨.equals key, found⟩ :=
      scan_blanks hs fun d hd => by
        simp [Scan.step, hd, ne_of_isSpace hd (d := '=') (by decide)]
    rw [List.cons_append, List.foldl_cons, hfirst, List.foldl_append, hmore]
    rfl

theorem scan_value {quote : Char} (hquote : quote = '"' ∨ quote = '\'') {raw : List Char}
    (hraw : quote ∉ raw) (key : List Char) :
    (quote :: raw ++ [quote]).foldl Scan.step ⟨.quote key, found⟩ =
      ⟨.gap, .pair ⟨key, raw⟩ :: found⟩ := by
  have hopen : Scan.step ⟨.quote key, found⟩ quote = ⟨.value key quote [], found⟩ := by
    rcases hquote with rfl | rfl <;> rfl
  have hmore : raw.foldl Scan.step ⟨.value key quote [], found⟩ =
      ⟨.value key quote (raw.reverse ++ []), found⟩ := by
    refine foldl_of_kept (fun read => Scan.mk (.value key quote read) found) ?_ []
    intro c hc read
    have hne : c ≠ quote := fun he => hraw (he ▸ hc)
    simp [Scan.step, hne]
  rw [List.cons_append, List.foldl_cons, hopen, List.foldl_append, hmore]
  simp [Scan.step]

theorem scan_text {a : Attribute} (h : a.IsFine) :
    a.text.foldl Scan.step ⟨.gap, found⟩ = ⟨.gap, .pair a.read :: found⟩ := by
  have hparts : a.text = a.gap ++ (a.key ++ ((a.beforeEquals ++ ['=']) ++ (a.afterEquals ++
      (a.quote :: a.raw ++ [a.quote])))) := by simp [text]
  have hblanks : a.afterEquals.foldl Scan.step ⟨.quote a.key, found⟩ = ⟨.quote a.key, found⟩ :=
    scan_blanks h.afterEquals fun c hc => by simp [Scan.step, hc]
  rw [hparts, List.foldl_append, scan_gap h.gap, List.foldl_append, scan_word h.key,
    List.foldl_append, scan_equals h.beforeEquals, List.foldl_append, hblanks,
    scan_value h.quote h.raw]
  rfl

theorem scan_texts {as : List Attribute} (h : ∀ a ∈ as, a.IsFine) (found : List Item) :
    (as.flatMap text).foldl Scan.step ⟨.gap, found⟩ =
      ⟨.gap, ((as.map read).map .pair).reverse ++ found⟩ := by
  induction as generalizing found with
  | nil => rfl
  | cons a as ih =>
    obtain ⟨ha, has⟩ := List.forall_mem_cons.1 h
    rw [List.flatMap_cons, List.foldl_append, scan_text ha, ih has]
    simp

end Attribute

namespace Tag

variable {t : Tag}

theorem items_text (h : t.IsFine) :
    Markup.Attribute.items t.text = (t.attributes.map Attribute.read).map .pair := by
  unfold Markup.Attribute.items
  rw [text, List.foldl_append, Attribute.scan_texts h.attributes, Attribute.scan_gap h.gap]
  simp [Markup.Attribute.Scan.finish]

theorem strictly_text (h : t.IsFine) :
    Markup.Attribute.strictly [] (Markup.Attribute.items t.text) =
      (t.attributes.map Attribute.read, true) := by
  have hkeys : ((t.attributes.map Attribute.read).map Markup.Attribute.key).Nodup := by
    rw [List.map_map]
    exact h.distinct
  rw [items_text h, Markup.Attribute.strictly_pairs hkeys fun _ _ => List.not_mem_nil]

theorem isSome_bind? (scope scope' : Scope) (a : Markup.Attribute) :
    (scope.bind? a).isSome = (scope'.bind? a).isSome := by
  unfold Scope.bind?
  cases qualifier? a.key with
  | none => rfl
  | some q =>
    dsimp only
    split_ifs <;> rfl

theorem isSome_foldlM_bind? {as : List Markup.Attribute}
    (h : ∀ a ∈ as, (Scope.bind? [] a).isSome = true) (scope : Scope) :
    (as.foldlM Scope.bind? scope).isSome = true := by
  induction as generalizing scope with
  | nil => rfl
  | cons a as ih =>
    obtain ⟨ha, has⟩ := List.forall_mem_cons.1 h
    rw [isSome_bind? [] scope] at ha
    obtain ⟨scope', hscope⟩ := Option.isSome_iff_exists.1 ha
    rw [List.foldlM_cons, hscope]
    exact ih has scope'

theorem isSome_enter? (h : t.IsFine) (scope : Scope) : (scope.enter? t.text).isSome = true := by
  rw [Scope.enter?, items_text h, Markup.Attribute.untilMalformed_pairs]
  refine isSome_foldlM_bind? (fun a ha => ?_) scope
  obtain ⟨b, hb, rfl⟩ := List.mem_map.1 ha
  exact h.binds b hb

theorem text_head (h : t.IsFine) : ∀ c ∈ t.text.head?, isSpace c = true := by
  intro c hc
  cases ha : t.attributes with
  | nil =>
    rw [text, ha] at hc
    exact h.gap c (List.mem_of_mem_head? hc)
  | cons a as =>
    have hfine := h.attributes a (ha ▸ List.mem_cons_self ..)
    cases hg : a.gap with
    | nil => exact absurd hg hfine.separate
    | cons d gap =>
      have hd : c = d := by simpa [text, ha, Attribute.text, hg, eq_comm] using hc
      rw [hd]
      exact hfine.gap d (hg ▸ List.mem_cons_self ..)

theorem takeWhile_name (h : t.IsFine) :
    (t.name ++ t.text).takeWhile (fun c => !isSpace c) = t.name ∧
      (t.name ++ t.text).dropWhile (fun c => !isSpace c) = t.text := by
  have hname : ∀ c ∈ t.name, (!isSpace c) = true := by
    intro c hc
    rw [isSpace_of_isMark (h.name.2 c hc)]
    rfl
  have hhead := text_head h
  rw [List.takeWhile_append_of_pos hname, List.dropWhile_append_of_pos hname]
  cases ht : t.text with
  | nil => exact ⟨List.append_nil _, rfl⟩
  | cons c rest =>
    have hc : isSpace c = true := hhead c (by rw [ht]; rfl)
    simp [hc]

theorem getLast_ne (h : t.IsFine) : ∀ c ∈ (t.name ++ t.text).getLast?, c ≠ '/' := by
  intro c hc
  rcases List.eq_nil_or_concat t.gap with hg | ⟨gap, d, hg⟩
  · rcases List.eq_nil_or_concat t.attributes with ha | ⟨as, a, ha⟩
    · have hc : c ∈ t.name := by
        rw [text, ha, hg] at hc
        exact List.mem_of_mem_getLast? (by simpa using hc)
      exact ne_of_isMark (h.name.2 c hc) (by decide)
    · have hfine := h.attributes a (by rw [ha]; simp)
      have hparts : t.name ++ t.text = t.name ++ as.flatMap Attribute.text ++ a.gap ++ a.key ++
          a.beforeEquals ++ '=' :: a.afterEquals ++ a.quote :: a.raw ++ [a.quote] := by
        simp [text, ha, hg, Attribute.text]
      rw [hparts, List.getLast?_concat] at hc
      cases hc
      rcases hfine.quote with he | he <;> rw [he] <;> decide
  · have hd : d = c := by simpa [text, hg] using hc
    rw [← hd]
    exact ne_of_isSpace (h.gap d (by rw [hg]; simp)) (by decide)

end Tag

end Source

end UpdateProtocol.Markup
