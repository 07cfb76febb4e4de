import Mathlib.Data.List.Forall2
import UpdateProtocol.Document.Response
import UpdateProtocol.Proofs.Markup.Kept

namespace UpdateProtocol

open UpdateProtocol.Markup

namespace Markup

namespace Content

def elements : Content → List Element
  | .closed | .broken => []
  | .text _ rest => rest.elements
  | .element tag children rest => ⟨tag, children⟩ :: rest.elements

def named (c : Content) (name : String) : List Element :=
  c.elements.filter fun e => e.tag.plainName = name

end Content

structure IsRow (name : String) (before row after : List Element) : Prop where
  named : ∀ e ∈ row, e.tag.plainName = name
  spelling : ∀ e ∈ row, ∀ f ∈ row, e.tag.name = f.tag.name
  notBefore : ∀ e ∈ before, e.tag.plainName ≠ name
  notAfter : ∀ e ∈ after, e.tag.plainName ≠ name

def Content.InOneRow (c : Content) (name : String) : Prop :=
  ∃ before row after, c.elements = before ++ row ++ after ∧ IsRow name before row after

theorem filter_row {α : Type} {p : α → Bool} {before row after : List α}
    (hbefore : ∀ a ∈ before, ¬ p a = true) (hrow : ∀ a ∈ row, p a = true)
    (hafter : ∀ a ∈ after, ¬ p a = true) : (before ++ row ++ after).filter p = row := by
  rw [List.filter_append, List.filter_append, List.filter_eq_nil_iff.2 hbefore,
    List.filter_eq_self.2 hrow, List.filter_eq_nil_iff.2 hafter, List.nil_append, List.append_nil]

namespace IsRow

variable {name : String} {before row after : List Element} {e : Element}

theorem empty (h : ∀ f ∈ after, f.tag.plainName ≠ name) : IsRow name [] [] after where
  named := List.forall_mem_nil _
  spelling := List.forall_mem_nil _
  notBefore := List.forall_mem_nil _
  notAfter := h

theorem filter_eq (h : IsRow name before row after) :
    (before ++ row ++ after).filter (fun e => e.tag.plainName = name) = row := by
  refine filter_row ?_ ?_ ?_
  · simpa using h.notBefore
  · simpa using h.named
  · simpa using h.notAfter

theorem cons_before (h : IsRow name before row after) (he : e.tag.plainName ≠ name) :
    IsRow name (e :: before) row after :=
  { h with notBefore := List.forall_mem_cons.2 ⟨he, h.notBefore⟩ }

theorem cons_row (h : IsRow name [] row after) (he : e.tag.plainName = name)
    (hspelling : ∀ f ∈ row, f.tag.name = e.tag.name) : IsRow name [] (e :: row) after where
  named := List.forall_mem_cons.2 ⟨he, h.named⟩
  spelling := by
    intro f hf g hg
    have hname : ∀ f ∈ e :: row, f.tag.name = e.tag.name :=
      List.forall_mem_cons.2 ⟨rfl, hspelling⟩
    rw [hname f hf, hname g hg]
  notBefore := h.notBefore
  notAfter := h.notAfter

theorem tail (h : IsRow name [] (e :: row) after) : IsRow name [] row after where
  named := (List.forall_mem_cons.1 h.named).2
  spelling f hf g hg := h.spelling f (List.mem_cons_of_mem _ hf) g (List.mem_cons_of_mem _ hg)
  notBefore := h.notBefore
  notAfter := h.notAfter

theorem not_mem_tail {es : List Element} (h : IsRow name [] [] (e :: es)) :
    e.tag.plainName ≠ name ∧ ∀ f ∈ es, f.tag.plainName ≠ name :=
  List.forall_mem_cons.1 h.notAfter

end IsRow

inductive Leads {ε γ : Type} (step : ε → γ → γ → Prop) : List ε → γ → γ → Prop
  | nil (g : γ) : Leads step [] g g
  | cons {e : ε} {es : List ε} {g g' g'' : γ} (first : step e g g')
      (rest : Leads step es g' g'') : Leads step (e :: es) g g''

namespace Schema

variable {σ : Type} {sch : Schema σ}

inductive Acts (sch : Schema σ) (scope : Scope) (parent : Tag) (e : Element) (s : σ) : σ → Prop
  | unknown (h : sch.child? e.tag.plainName = none) : Acts sch scope parent e s s
  | one {read : ElementReader σ} {t : σ}
      (h : sch.child? e.tag.plainName = some (.one read))
      (hread : read scope e.tag e.children s = .ok t) : Acts sch scope parent e s t
  | absent {read : ElementReader σ}
      (h : sch.child? e.tag.plainName = some (.optional read))
      (habsent : isAbsent scope parent e.tag e.children = true) : Acts sch scope parent e s s
  | optional {read : ElementReader σ} {t : σ}
      (h : sch.child? e.tag.plainName = some (.optional read))
      (habsent : isAbsent scope parent e.tag e.children = false)
      (hread : read scope e.tag e.children s = .ok t) : Acts sch scope parent e s t
  | many {item : String} {read : ElementReader σ} {t : σ}
      (h : sch.child? e.tag.plainName = some (.many item read))
      (hread : read scope e.tag e.children s = .ok t) : Acts sch scope parent e s t

def Tidy (sch : Schema σ) (r : Reading σ) : Prop :=
  ∀ l, r.list = some l → ∀ tag : Tag, tag.name = l.name →
    tag.plainName ∈ r.seen ∧ sch.child? tag.plainName = some (.many l.item l.read)

theorem Tidy.of_none {r : Reading σ} (h : r.list = none) : sch.Tidy r := by
  intro l hl
  rw [h] at hl
  cases hl

inductive Passes (sch : Schema σ) (e : Element) (r r' : Reading σ) : Prop
  | continued {l : OpenList σ} (hl : r.list = some l) (hname : e.tag.name = l.name)
      (hseen : r'.seen = r.seen) (hlist : r'.list = r.list)
  | passed (hknown : sch.child? e.tag.plainName = none) (hseen : r'.seen = r.seen)
      (hlist : r'.list = none)
  | begun (hknown : sch.child? e.tag.plainName ≠ none)
      (hnew : e.tag.plainName ∉ r.seen) (hseen : r'.seen = e.tag.plainName :: r.seen)
      (hlist : ((∀ item read, sch.child? e.tag.plainName ≠ some (.many item read)) ∧
          r'.list = none) ∨ ∃ item read,
        sch.child? e.tag.plainName = some (.many item read) ∧
          r'.list = some ⟨e.tag.name, item, read⟩)

theorem readField_passes {scope : Scope} {parent : Tag} {e : Element} {r r' : Reading σ}
    (h : sch.readField scope parent e.tag e.children r = .ok r') :
    sch.Acts scope parent e r.record r'.record ∧ sch.Passes e r r' ∧ sch.Tidy r' := by
  simp only [readField] at h
  split at h
  · rename_i hnone
    obtain ⟨_, -, h⟩ := ok_of_bind h
    cases h
    exact ⟨.unknown hnone, .passed hnone rfl rfl, .of_none rfl⟩
  · rename_i child hchild
    have hknown : sch.child? e.tag.plainName ≠ none := by simp [hchild]
    split at h
    · cases h
    · rename_i hnew
      cases child with
      | one read =>
        obtain ⟨s, hs, h⟩ := ok_of_bind h
        cases h
        exact ⟨.one hchild hs, .begun hknown hnew rfl (.inl ⟨by simp [hchild], rfl⟩), .of_none rfl⟩
      | optional read =>
        dsimp only at h
        split at h
        · rename_i habsent
          obtain ⟨_, -, h⟩ := ok_of_bind h
          cases h
          exact ⟨.absent hchild habsent, .begun hknown hnew rfl (.inl ⟨by simp [hchild], rfl⟩),
            .of_none rfl⟩
        · rename_i habsent
          obtain ⟨s, hs, h⟩ := ok_of_bind h
          cases h
          exact ⟨.optional hchild (Bool.eq_false_iff.2 habsent) hs,
            .begun hknown hnew rfl (.inl ⟨by simp [hchild], rfl⟩), .of_none rfl⟩
      | many item read =>
        obtain ⟨s, hs, h⟩ := ok_of_bind h
        cases h
        refine ⟨.many hchild hs, .begun hknown hnew rfl (.inr ⟨item, read, hchild, rfl⟩), ?_⟩
        intro l hl tag htag
        cases hl
        have hplain : tag.plainName = e.tag.plainName := by rw [Tag.plainName, htag, Tag.plainName]
        rw [hplain]
        exact ⟨List.mem_cons_self .., hchild⟩

theorem readChild_passes {scope : Scope} {parent : Tag} {e : Element} {r r' : Reading σ}
    (hr : sch.Tidy r) (h : sch.readChild scope parent e.tag e.children r = .ok r') :
    sch.Acts scope parent e r.record r'.record ∧ sch.Passes e r r' ∧ sch.Tidy r' := by
  simp only [readChild] at h
  split at h
  · rename_i l hl
    split at h
    · rename_i hname
      obtain ⟨s, hs, h⟩ := ok_of_bind h
      cases h
      have hmany := (hr l hl e.tag hname.symm).2
      exact ⟨.many hmany hs, .continued hl hname.symm rfl rfl, hr⟩
    · exact readField_passes h
  · exact readField_passes h

def Resumes (r : Reading σ) (name : String) (es : List Element) : Prop :=
  ∃ row after, es = row ++ after ∧ IsRow name [] row after ∧
    ∀ e ∈ row, ∃ l, r.list = some l ∧ e.tag.name = l.name

def Begins (sch : Schema σ) (name : String) (es : List Element) : Prop :=
  ∃ before row after, es = before ++ row ++ after ∧ IsRow name before row after ∧
    ((∀ item read, sch.child? name ≠ some (.many item read)) → row.length ≤ 1)

theorem Resumes.nil {r : Reading σ} {name : String} : Resumes r name [] :=
  ⟨[], [], rfl, .empty (List.forall_mem_nil _), List.forall_mem_nil _⟩

theorem Begins.nil {name : String} : sch.Begins name [] :=
  ⟨[], [], [], rfl, .empty (List.forall_mem_nil _), fun _ => Nat.zero_le _⟩

theorem Begins.cons {name : String} {e : Element} {es : List Element} (h : sch.Begins name es)
    (he : e.tag.plainName ≠ name) : sch.Begins name (e :: es) := by
  obtain ⟨before, row, after, rfl, hrow, hlength⟩ := h
  exact ⟨e :: before, row, after, rfl, hrow.cons_before he, hlength⟩

theorem Resumes.cons {r r' : Reading σ} {name : String} {e : Element} {es : List Element}
    (h : Resumes r' name es) (he : e.tag.plainName ≠ name)
    (hlist : ∀ l, r'.list = some l → e.tag.name = l.name) : Resumes r name (e :: es) := by
  obtain ⟨row, after, rfl, hrow, hopen⟩ := h
  have hempty : row = [] := by
    refine List.eq_nil_iff_forall_not_mem.2 fun f hf => ?_
    obtain ⟨l, hl, hname⟩ := hopen f hf
    have hplain : f.tag.plainName = e.tag.plainName := by
      rw [Tag.plainName, hname, ← hlist l hl, Tag.plainName]
    exact he (hplain ▸ hrow.named f hf)
  subst hempty
  exact ⟨[], e :: after, rfl, .empty (List.forall_mem_cons.2 ⟨he, hrow.notAfter⟩),
    List.forall_mem_nil _⟩

theorem Resumes.cons_row {r : Reading σ} {name : String} {e : Element} {es : List Element}
    (h : Resumes r name es) (he : e.tag.plainName = name)
    (hlist : ∀ l, r.list = some l → e.tag.name = l.name) :
    ∃ row after, e :: es = e :: row ++ after ∧ IsRow name [] (e :: row) after ∧
      (∀ f ∈ row, f.tag.name = e.tag.name) ∧ (r.list = none → row = []) := by
  obtain ⟨row, after, rfl, hrow, hopen⟩ := h
  have hspelling : ∀ f ∈ row, f.tag.name = e.tag.name := by
    intro f hf
    obtain ⟨l, hl, hname⟩ := hopen f hf
    rw [hname, hlist l hl]
  refine ⟨row, after, rfl, hrow.cons_row he hspelling, hspelling, fun hnone => ?_⟩
  refine List.eq_nil_iff_forall_not_mem.2 fun f hf => ?_
  obtain ⟨l, hl, -⟩ := hopen f hf
  rw [hnone] at hl
  cases hl

def Stands (sch : Schema σ) (r : Reading σ) (name : String) (es : List Element) : Prop :=
  (name ∈ r.seen → Resumes r name es) ∧ (name ∉ r.seen → sch.Begins name es)

theorem Stands.cons {r r' : Reading σ} {name : String} {e : Element} {es : List Element}
    (h : sch.Stands r' name es) (hr : sch.Tidy r) (hknown : sch.child? name ≠ none)
    (hpasses : sch.Passes e r r') : sch.Stands r name (e :: es) := by
  obtain ⟨hresumes, hbegins⟩ := h
  cases hpasses with
  | @continued l hl hname hseen hlist =>
    rw [hseen] at hresumes hbegins
    have hspelled : ∀ l', r'.list = some l' → e.tag.name = l'.name := by
      intro l' hl'
      rw [hlist, hl] at hl'
      cases hl'
      exact hname
    refine ⟨fun hm => ?_, fun hm => (hbegins hm).cons ?_⟩
    · by_cases he : e.tag.plainName = name
      · obtain ⟨row, after, hes, hrow, hspelling, -⟩ := (hresumes hm).cons_row he hspelled
        refine ⟨e :: row, after, hes, hrow, List.forall_mem_cons.2 ⟨⟨l, hl, hname⟩, ?_⟩⟩
        intro f hf
        exact ⟨l, hl, (hspelling f hf).trans hname⟩
      · exact (hresumes hm).cons he hspelled
    · rintro rfl
      exact hm (hr l hl e.tag hname).1
  | passed hunknown hseen hlist =>
    rw [hseen] at hresumes hbegins
    have he : e.tag.plainName ≠ name := fun he => hknown (he ▸ hunknown)
    refine ⟨fun hm => (hresumes hm).cons he fun l hl => ?_, fun hm => (hbegins hm).cons he⟩
    rw [hlist] at hl
    cases hl
  | begun _ hnew hseen hlist =>
    rw [hseen] at hresumes hbegins
    have hspelled : ∀ l, r'.list = some l → e.tag.name = l.name := by
      intro l hl
      obtain ⟨-, hnone⟩ | ⟨item, read, -, hopen⟩ := hlist
      · rw [hnone] at hl
        cases hl
      · rw [hopen] at hl
        cases hl
        rfl
    refine ⟨fun hm => ?_, fun hm => ?_⟩
    · exact (hresumes (List.mem_cons_of_mem _ hm)).cons (fun he => hnew (he ▸ hm)) hspelled
    · by_cases he : e.tag.plainName = name
      · obtain ⟨row, after, hes, hrow, -, halone⟩ :=
          (hresumes (he ▸ List.mem_cons_self ..)).cons_row he hspelled
        refine ⟨[], e :: row, after, hes, hrow, fun hmany => ?_⟩
        obtain ⟨-, hnone⟩ | ⟨item, read, hlookup, -⟩ := hlist
        · rw [halone hnone]
          exact Nat.le_refl 1
        · exact absurd hlookup (he ▸ hmany item read)
      · have hunseen : name ∉ e.tag.plainName :: r.seen := by
          rw [List.mem_cons, not_or]
          exact ⟨Ne.symm he, hm⟩
        exact (hbegins hunseen).cons he

theorem Begins.tail {name : String} {e : Element} {es : List Element}
    (h : sch.Begins name (e :: es)) : sch.Begins name es := by
  obtain ⟨before, row, after, hes, hrow, hlength⟩ := h
  cases before with
  | cons f before =>
    obtain ⟨rfl, rfl⟩ := List.cons.inj hes
    exact ⟨before, row, after, rfl,
      { hrow with notBefore := (List.forall_mem_cons.1 hrow.notBefore).2 }, hlength⟩
  | nil =>
    cases row with
    | cons f row =>
      obtain ⟨rfl, rfl⟩ := List.cons.inj hes
      exact ⟨[], row, after, rfl, hrow.tail, fun hmany => Nat.le_of_succ_le (hlength hmany)⟩
    | nil =>
      obtain rfl : e :: es = after := hes
      exact ⟨[], [], es, rfl, .empty hrow.not_mem_tail.2, hlength⟩

theorem Resumes.tail_of_ne {r r' : Reading σ} {name : String} {e : Element} {es : List Element}
    (h : Resumes r name (e :: es)) (he : e.tag.plainName ≠ name) : Resumes r' name es := by
  obtain ⟨row, after, hes, hrow, -⟩ := h
  cases row with
  | nil =>
    obtain rfl : e :: es = after := hes
    exact ⟨[], es, rfl, .empty hrow.not_mem_tail.2, List.forall_mem_nil _⟩
  | cons f row =>
    obtain ⟨rfl, rfl⟩ := List.cons.inj hes
    exact absurd (hrow.named e (List.mem_cons_self ..)) he

theorem Resumes.open_of_eq {r : Reading σ} {name : String} {e : Element} {es : List Element}
    (h : Resumes r name (e :: es)) (he : e.tag.plainName = name) :
    (∃ l, r.list = some l ∧ e.tag.name = l.name) ∧
      ∀ r' : Reading σ, r'.list = r.list → Resumes r' name es := by
  obtain ⟨row, after, hes, hrow, hopen⟩ := h
  cases row with
  | nil =>
    obtain rfl : e :: es = after := hes
    exact absurd he hrow.not_mem_tail.1
  | cons f row =>
    obtain ⟨rfl, rfl⟩ := List.cons.inj hes
    obtain ⟨hfirst, hmore⟩ := List.forall_mem_cons.1 hopen
    refine ⟨hfirst, fun r' hlist => ⟨row, after, rfl, hrow.tail, ?_⟩⟩
    rw [hlist]
    exact hmore

theorem Begins.resumes {r : Reading σ} {name : String} {e : Element} {es : List Element}
    (h : sch.Begins name (e :: es)) (he : e.tag.plainName = name)
    (hlist : ((∀ item read, sch.child? name ≠ some (.many item read)) ∧ r.list = none) ∨
      ∃ item read, sch.child? name = some (.many item read) ∧
        r.list = some ⟨e.tag.name, item, read⟩) : Resumes r name es := by
  obtain ⟨before, row, after, hes, hrow, hlength⟩ := h
  cases before with
  | cons f before =>
    obtain ⟨rfl, rfl⟩ := List.cons.inj hes
    exact absurd he (hrow.notBefore e (List.mem_cons_self ..))
  | nil =>
    cases row with
    | nil =>
      obtain rfl : e :: es = after := hes
      exact absurd he hrow.not_mem_tail.1
    | cons f row =>
      obtain ⟨rfl, rfl⟩ := List.cons.inj hes
      refine ⟨row, after, rfl, hrow.tail, fun f hf => ?_⟩
      obtain ⟨hmany, -⟩ | ⟨item, read, -, hopen⟩ := hlist
      · have hempty : row.length = 0 := by simpa using hlength hmany
        rw [List.length_eq_zero_iff.1 hempty] at hf
        exact absurd hf List.not_mem_nil
      · exact ⟨_, hopen, hrow.spelling f (List.mem_cons_of_mem _ hf) e (List.mem_cons_self ..)⟩

theorem Stands.tail {r r' : Reading σ} {name : String} {e : Element} {es : List Element}
    (h : sch.Stands r name (e :: es)) (hknown : sch.child? name ≠ none)
    (hpasses : sch.Passes e r r') : sch.Stands r' name es := by
  obtain ⟨hresumes, hbegins⟩ := h
  cases hpasses with
  | continued _ _ hseen hlist =>
    rw [Stands, hseen]
    refine ⟨fun hm => ?_, fun hm => (hbegins hm).tail⟩
    by_cases he : e.tag.plainName = name
    · exact ((hresumes hm).open_of_eq he).2 r' hlist
    · exact (hresumes hm).tail_of_ne he
  | passed hunknown hseen _ =>
    have he : e.tag.plainName ≠ name := fun he => hknown (he ▸ hunknown)
    rw [Stands, hseen]
    exact ⟨fun hm => (hresumes hm).tail_of_ne he, fun hm => (hbegins hm).tail⟩
  | begun _ hnew hseen hlist =>
    rw [Stands, hseen]
    by_cases he : e.tag.plainName = name
    · rw [he] at hnew hlist
      exact ⟨fun _ => (hbegins hnew).resumes he hlist, fun _ => (hbegins hnew).tail⟩
    · refine ⟨fun hm => (hresumes ?_).tail_of_ne he, fun hm => (hbegins ?_).tail⟩
      · exact (List.mem_cons.1 hm).resolve_left (Ne.symm he)
      · exact fun hm' => hm (List.mem_cons_of_mem _ hm')

theorem readContent_stands {scope : Scope} {parent : Tag} {c : Content} {r r' : Reading σ}
    (hr : sch.Tidy r) (h : sch.readContent scope parent c r = .ok r') {name : String}
    (hknown : sch.child? name ≠ none) : sch.Stands r name c.elements := by
  refine readContent_induction (motive := fun c r => sch.Tidy r → sch.Stands r name c.elements)
    ?closed ?text ?element h hr
  case closed => exact fun _ => ⟨fun _ => .nil, fun _ => .nil⟩
  case text => exact fun ih => ih
  case element =>
    intro tag children rest r s hs ih hr
    obtain ⟨-, hpasses, hs⟩ := readChild_passes (e := ⟨tag, children⟩) hr hs
    exact (ih hs).cons hr hknown hpasses

theorem readContent_leads {scope : Scope} {parent : Tag} {c : Content} {r r' : Reading σ}
    (hr : sch.Tidy r) (h : sch.readContent scope parent c r = .ok r') :
    Leads (sch.Acts scope parent) c.elements r.record r'.record := by
  refine readContent_induction (motive := fun c r => sch.Tidy r →
    Leads (sch.Acts scope parent) c.elements r.record r'.record) ?closed ?text ?element h hr
  case closed => exact fun _ => .nil _
  case text => exact fun ih => ih
  case element =>
    intro tag children rest r s hs ih hr
    obtain ⟨hacts, -, hs⟩ := readChild_passes (e := ⟨tag, children⟩) hr hs
    exact .cons hacts (ih hs)

theorem foldlM_readAttribute_seen {as : List Attribute} {r r' : Reading σ}
    (h : as.foldlM sch.readAttribute r = .ok r') :
    r'.list = r.list ∧ ∀ f ∈ r'.seen, f ∈ r.seen ∨ sch.attributes.lookup f ≠ none := by
  induction as generalizing r with
  | nil =>
    cases h
    exact ⟨rfl, fun _ hf => .inl hf⟩
  | cons a as ih =>
    rw [List.foldlM_cons] at h
    obtain ⟨s, hs, h⟩ := ok_of_bind h
    obtain ⟨hlist, hseen⟩ := ih h
    simp only [readAttribute] at hs
    split at hs
    · cases hs
      exact ⟨hlist, hseen⟩
    · rename_i read hread
      split at hs
      · cases hs
      · obtain ⟨_, -, hs⟩ := ok_of_bind hs
        cases hs
        refine ⟨hlist, fun f hf => ?_⟩
        obtain hf | hf := hseen f hf
        · obtain rfl | hf := List.mem_cons.1 hf
          · exact .inr (by simp [hread])
          · exact .inl hf
        · exact .inr hf

theorem readAttributes_seen {s : σ} {r : Reading σ} {text : List Char}
    (h : sch.readAttributes { record := s } text = .ok r) :
    r.list = none ∧ ∀ f ∈ r.seen, sch.attributes.lookup f ≠ none := by
  obtain ⟨r', hr', h⟩ := ok_of_bind h
  split at h
  · cases h
    obtain ⟨hlist, hseen⟩ := foldlM_readAttribute_seen hr'
    exact ⟨hlist, fun f hf => (hseen f hf).resolve_left List.not_mem_nil⟩
  · cases h

end Schema

end Markup

end UpdateProtocol
