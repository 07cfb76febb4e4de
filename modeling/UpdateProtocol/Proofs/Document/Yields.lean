import UpdateProtocol.Proofs.Document.Rendering
import UpdateProtocol.Proofs.Document.Settled
import UpdateProtocol.Proofs.Text.Pieces

namespace UpdateProtocol

open UpdateProtocol.Markup

namespace Markup

theorem Scalar.text_of_spells (raw : List Char) (v : String) (h : SpellsString raw v) :
    Scalar.text.ofValue raw = .ok v :=
  Spells.readText h

theorem Scalar.int32_of_spells (raw : List Char) (n : Int32) (h : SpellsInt32 raw n) :
    Scalar.int32.ofValue raw = .ok n := by
  rw [h, ← escape_toString_int, Scalar.int32_toString]

theorem Scalar.uint64_of_spells (raw : List Char) (n : UInt64) (h : SpellsUInt64 raw n) :
    Scalar.uint64.ofValue raw = .ok n := by
  have hescape : escape (toString n.toNat).toList = (toString n.toNat).toList := by
    rw [escape_toString_nat]
    exact Nat.toList_repr.symm
  rw [h, ← hescape, Scalar.uint64_toString]

theorem Scalar.bool_of_spells (raw : List Char) (b : Bool) (h : SpellsBool raw b) :
    Scalar.bool.ofValue raw = .ok b := by
  rw [h]
  cases b <;> rfl

theorem looseBool_padded {front back : List Char} {word : String}
    (hfront : ∀ c ∈ front, Text.isBlank c = true) (hback : ∀ c ∈ back, Text.isBlank c = true) :
    looseBool (String.ofList (front ++ word.toList ++ back)) = looseBool word := by
  rw [looseBool, String.toList_ofList, Text.trim_surrounded _ hfront hback, looseBool]

theorem looseBool_looseWords : ∀ b, ∀ word ∈ looseWords b,
    looseBool word = .ok b := by
  decide

theorem Scalar.looseBool_of_spells (raw : List Char) (b : Bool) (h : SpellsLooseBool raw b) :
    Scalar.looseBool.ofValue raw = .ok b := by
  obtain ⟨front, word, back, hblank, hword, hraw⟩ := h
  obtain ⟨hfront, hback⟩ := List.forall_mem_append.1 (List.all_eq_true.1 hblank)
  have hloose := looseBool_looseWords b word hword
  rw [← looseBool_padded hfront hback] at hloose
  have htext : readText raw = .ok (String.ofList (front ++ word.toList ++ back)) := by
    simp only [readText, hraw.unescape?]
  change readLooseBool raw = _
  rw [readLooseBool, htext]
  simp only [bind, Except.bind, hloose]

namespace Source.Tag

variable {α : Type} {t : Tag} {name : String} {spells : List Char → α → Prop}

theorem exists_raw_of_rel {v : α} (h : Option.Rel spells (t.value? name) (some v)) :
    ∃ raw, t.value? name = some raw ∧ spells raw v := by
  generalize t.value? name = raw? at h
  cases h with
  | some hspells => exact ⟨_, rfl, hspells⟩

theorem value?_of_rel_none (h : Option.Rel spells (t.value? name) none) :
    t.value? name = none := by
  generalize t.value? name = raw? at h
  cases h
  rfl

theorem has_of_rel {v : α} (h : Option.Rel spells (t.value? name) (some v)) :
    t.Has ("@" ++ name) := by
  obtain ⟨raw, hraw, -⟩ := exists_raw_of_rel h
  obtain ⟨a, hfind, -⟩ := Option.map_eq_some_iff.1 hraw
  have hkey : a.key = name.toList := by simpa using List.find?_some hfind
  refine ⟨a, List.mem_of_find?_eq_some hfind, ?_⟩
  rw [hkey, String.ofList_toList]

end Source.Tag

namespace Schema

variable {σ α : Type}

theorem swaps_field {β : Type} {m n : String} {x : Scalar α} {y : Scalar β}
    {put : α → σ → σ} {put' : β → σ → σ}
    (h : ∀ v w s, put' w (put v s) = put v (put' w s)) (a b : Attribute) :
    Swaps (fill (field m x put).2 a) (fill (field n y put').2 b) := by
  intro s t u ht hu
  obtain ⟨v, hv, rfl⟩ := ok_of_map ht
  obtain ⟨w, hw, rfl⟩ := ok_of_map hu
  refine ⟨put' w s, ?_, ?_⟩
  · simp only [fill, field, hw]
    rfl
  · simp only [fill, field, hv, h]
    rfl

structure Yields (t : Source.Tag) (fields : List (String × Field σ)) (s u : σ) :
    Prop where
  fine : t.IsFine
  plain : t.IsPlain
  settled : settle fieldOf fill fields (t.attributes.map Source.Attribute.read) s = .ok u

theorem filter_key {as : List Source.Attribute} (h : (as.map Source.Attribute.key).Nodup)
    (key : List Char) : as.filter (·.key = key) = (as.find? (·.key = key)).toList := by
  induction as with
  | nil => rfl
  | cons a as ih =>
    obtain ⟨ha, has⟩ := List.nodup_cons.1 h
    by_cases hkey : a.key = key
    · have hnone : as.filter (·.key = key) = [] := by
        rw [List.filter_eq_nil_iff]
        intro b hb hbkey
        exact ha (hkey ▸ of_decide_eq_true hbkey ▸ List.mem_map_of_mem hb)
      simp [hkey, hnone]
    · simp [hkey, ih has]

theorem perform_field {t : Source.Tag} (hfine : t.IsFine) (hplain : t.IsPlain) (name : String)
    (f : Field σ) (s : σ) :
    perform (((t.attributes.map Source.Attribute.read).filter (fieldOf · = "@" ++ name)).map
      (fill f)) s = match t.value? name with
        | none => .ok s
        | some raw => f.ofValue raw s := by
  have hfilter : (t.attributes.map Source.Attribute.read).filter (fieldOf · = "@" ++ name) =
      ((t.attributes.find? (·.key = name.toList)).toList).map Source.Attribute.read := by
    rw [List.filter_map, ← filter_key hfine.distinct]
    congr 1
    refine List.filter_congr fun a ha => ?_
    have hfield := Source.fieldOf_read (hplain.keys a ha)
    simp only [Function.comp_apply, hfield, ← String.toList_inj, String.toList_append,
      List.append_cancel_left_eq, String.toList_ofList]
  rw [hfilter, Source.Tag.value?]
  cases t.attributes.find? (·.key = name.toList) with
  | none => rfl
  | some a =>
    change (f.ofValue a.raw s >>= fun u => .ok u) = f.ofValue a.raw s
    cases f.ofValue a.raw s <;> rfl

namespace Yields

variable {t : Source.Tag} {fields : List (String × Field σ)} {s u : σ} {name : String}
  {spells : List Char → α → Prop} {x : Scalar α}

theorem start (hfine : t.IsFine) (hplain : t.IsPlain) (s : σ) : Yields t [] s s where
  fine := hfine
  plain := hplain
  settled := settle_nil_left

theorem omitted (h : Yields t fields s u) (hname : t.value? name = none)
    (put : α → σ → σ) : Yields t (fields ++ [field name x put]) s u where
  fine := h.fine
  plain := h.plain
  settled := by
    refine settle_concat h.settled ?_
    rw [perform_field h.fine h.plain, hname]

theorem written (h : Yields t fields s u) {raw : List Char} {v : α}
    (hname : t.value? name = some raw) (hread : x.ofValue raw = .ok v) (put : α → σ → σ) :
    Yields t (fields ++ [field name x put]) s (put v u) where
  fine := h.fine
  plain := h.plain
  settled := by
    refine settle_concat h.settled ?_
    simp only [perform_field h.fine h.plain, hname, hread]
    rfl

theorem value (h : Yields t fields s u) {v : α} (hv : Option.Rel spells (t.value? name) (some v))
    (hread : ∀ raw v, spells raw v → x.ofValue raw = .ok v) (put : α → σ → σ) :
    Yields t (fields ++ [field name x put]) s (put v u) := by
  obtain ⟨raw, hname, hspells⟩ := Source.Tag.exists_raw_of_rel hv
  exact h.written hname (hread raw v hspells) put

theorem optional (h : Yields t fields s u) {v? : Option α}
    (hv : Option.Rel spells (t.value? name) v?)
    (hread : ∀ raw v, spells raw v → x.ofValue raw = .ok v) (set : Option α → σ → σ)
    (hnone : set none u = u) :
    Yields t (fields ++ [field name x.optional fun v => set (some v)]) s (set v? u) := by
  cases v? with
  | none =>
    rw [hnone]
    exact h.omitted (Source.Tag.value?_of_rel_none hv) _
  | some v =>
    have hoptional : ∀ raw v, spells raw v → x.optional.ofValue raw = .ok v := hread
    exact h.value hv hoptional _

theorem given (h : Yields t fields s u) {default v : α}
    (hv : Given spells default (t.value? name) v)
    (hread : ∀ raw v, spells raw v → x.ofValue raw = .ok v) (put : α → σ → σ)
    (hdefault : put default u = u) :
    Yields t (fields ++ [field name x put]) s (put v u) := by
  generalize hname : t.value? name = raw? at hv
  cases hv with
  | written hspells => exact h.written hname (hread _ v hspells) put
  | omitted =>
    rw [hdefault]
    exact h.omitted hname put

end Yields

end Schema

end Markup

end UpdateProtocol
