import UpdateProtocol.Document.Response
import UpdateProtocol.Proofs.Markup.Written

namespace UpdateProtocol

open UpdateProtocol.Markup

namespace Markup.Schema

variable {σ τ α : Type} {sch : Schema σ}

theorem fieldOfKey_of_isName {name : String} (h : IsName name) :
    fieldOfKey name.toList = "@" ++ name := by
  have hfield : String.ofList ('@' :: name.toList) = "@" ++ name := by
    rw [← String.toList_inj, String.toList_ofList, String.toList_append]
    rfl
  rw [fieldOfKey, localName_of_isName h, hfield]
  split <;> rfl

def take (sch : Schema σ) (s : σ) (a : String × String) : Except Malformation σ :=
  match sch.attributes.lookup ("@" ++ a.1) with
  | none => .ok s
  | some f => f.ofValue (escape a.2.toList) s

def fieldsOf (sch : Schema σ) (as : List (String × String)) : List String :=
  (as.map fun a => "@" ++ a.1).filter fun f => (sch.attributes.lookup f).isSome

theorem readAttribute_written {a : String × String} {r : Reading σ} {t : σ} (h : IsName a.1)
    (hseen : "@" ++ a.1 ∉ r.seen) (ht : sch.take r.record a = .ok t) :
    sch.readAttribute r (Attribute.written a) =
      .ok { r with record := t, seen := sch.fieldsOf [a] ++ r.seen } := by
  have hkey : fieldOfKey (Attribute.written a).key = "@" ++ a.1 := fieldOfKey_of_isName h
  rw [take] at ht
  rw [readAttribute, hkey]
  cases hl : sch.attributes.lookup ("@" ++ a.1) with
  | none =>
    rw [hl] at ht
    cases ht
    simp [fieldsOf, hl]
  | some f =>
    rw [hl] at ht
    change f.ofValue (Attribute.written a).value r.record = _ at ht
    simp only [if_neg hseen, ht, fieldsOf, List.map_cons, List.map_nil, List.filter_cons, hl,
      Option.isSome_some, if_true, List.filter_nil, List.cons_append, List.nil_append]
    rfl

theorem foldlM_readAttribute_written {as : List (String × String)} {r : Reading σ} {t : σ}
    (h : ∀ a ∈ as, IsName a.1) (hd : (as.map Prod.fst).Nodup)
    (hseen : ∀ a ∈ as, "@" ++ a.1 ∉ r.seen) (ht : as.foldlM sch.take r.record = .ok t) :
    (as.map Attribute.written).foldlM sch.readAttribute r =
      .ok { r with record := t, seen := (sch.fieldsOf as).reverse ++ r.seen } := by
  induction as generalizing r with
  | nil =>
    cases ht
    rfl
  | cons a as ih =>
    obtain ⟨ha, hd⟩ := List.nodup_cons.1 hd
    rw [List.foldlM_cons] at ht
    cases hs : sch.take r.record a with
    | error e =>
      rw [hs] at ht
      cases ht
    | ok s =>
      rw [hs] at ht
      have hstep := readAttribute_written (h a (List.mem_cons_self ..))
        (hseen a (List.mem_cons_self ..)) hs
      have hmore : ∀ b ∈ as, "@" ++ b.1 ∉ sch.fieldsOf [a] ++ r.seen := by
        intro b hb hm
        rcases List.mem_append.1 hm with hm | hm
        · have he : "@" ++ b.1 = "@" ++ a.1 := by
            have := (List.mem_filter.1 hm).1
            simpa using this
          have hba : b.1 = a.1 := by simpa [← String.toList_inj] using he
          exact ha (hba ▸ List.mem_map_of_mem hb)
        · exact hseen b (List.mem_cons_of_mem _ hb) hm
      rw [List.map_cons, List.foldlM_cons, hstep]
      change (as.map Attribute.written).foldlM sch.readAttribute _ = _
      rw [ih (r := { r with record := s, seen := sch.fieldsOf [a] ++ r.seen })
        (fun b hb => h b (List.mem_cons_of_mem _ hb)) hd hmore ht]
      simp only [fieldsOf, List.map_cons, List.map_nil, List.filter_cons]
      split <;> simp

structure Fills (sch : Schema σ) (names : List String) (as : List (String × String)) (s t : σ) :
    Prop where
  sublist : (as.map Prod.fst).Sublist names
  take : as.foldlM sch.take s = .ok t

namespace Fills

variable {names : List String} {as : List (String × String)} {s t : σ}

theorem start (sch : Schema σ) : sch.Fills [] [] sch.fresh sch.fresh := ⟨.slnil, rfl⟩

theorem none (h : sch.Fills names as s t) (name : String) : sch.Fills (names ++ [name]) as s t :=
  ⟨h.sublist.trans (List.sublist_append_left ..), h.take⟩

theorem value (h : sch.Fills names as s t) (name text : String)
    {x : Scalar α} {v : α} (hread : x.ofValue (escape text.toList) = .ok v)
    (put : α → σ → σ)
    (hfield : sch.attributes.lookup ("@" ++ name) = some (field name x put).2) :
    sch.Fills (names ++ [name]) (as ++ [(name, text)]) s (put v t) := by
  refine ⟨?_, ?_⟩
  · rw [List.map_append]
    exact h.sublist.append (.refl _)
  · have htake : sch.take t (name, text) = .ok (put v t) := by
      simp only [Schema.take, hfield, field, hread]
      rfl
    rw [List.foldlM_append, h.take]
    change [(name, text)].foldlM sch.take t = _
    rw [List.foldlM_cons, htake]
    rfl

theorem text (h : sch.Fills names as s t) (name v : String) (put : String → σ → σ)
    (hfield : sch.attributes.lookup ("@" ++ name) = some (field name .text put).2) :
    sch.Fills (names ++ [name]) (as ++ [(name, v)]) s (put v t) :=
  h.value name v (Scalar.text_escape v) put hfield

theorem ofOption (h : sch.Fills names as s t) (name : String) (v? : Option α) (write : α → String)
    {x : Scalar α} (hread : ∀ v, x.ofValue (escape (write v).toList) = .ok v)
    (set : Option α → σ → σ)
    (hfield : sch.attributes.lookup ("@" ++ name) =
      some (field name x.optional fun v => set (some v)).2)
    (hnone : set .none t = t) :
    sch.Fills (names ++ [name]) (as ++ optionalAttribute name (v?.map write)) s (set v? t) := by
  cases v? with
  | none =>
    rw [hnone]
    simpa [optionalAttribute] using h.none name
  | some v =>
    have hoptional : x.optional.ofValue (escape (write v).toList) = .ok v := hread v
    exact h.value name (write v) hoptional (fun v => set (some v)) hfield

theorem optional (h : sch.Fills names as s t) (name : String) (v? : Option String)
    (set : Option String → σ → σ)
    (hfield : sch.attributes.lookup ("@" ++ name) =
      some (field name (.optional .text) fun v => set (some v)).2)
    (hnone : set .none t = t) :
    sch.Fills (names ++ [name]) (as ++ optionalAttribute name v?) s (set v? t) := by
  have ho := h.ofOption name v? id Scalar.text_escape set hfield hnone
  rwa [Option.map_id] at ho

theorem int (h : sch.Fills names as s t) (name : String) (v? : Option Int32)
    (set : Option Int32 → σ → σ)
    (hfield : sch.attributes.lookup ("@" ++ name) =
      some (field name (.optional .int32) fun v => set (some v)).2)
    (hnone : set .none t = t) :
    sch.Fills (names ++ [name]) (as ++ intAttribute name v?) s (set v? t) :=
  h.ofOption name v? (fun n => toString n.toInt) Scalar.int32_toString set hfield hnone

theorem exceptIf (h : sch.Fills names as s t) (name text : String) (p : Prop) [Decidable p]
    {x : Scalar α} {v : α} (hread : x.ofValue (escape text.toList) = .ok v)
    (put : α → σ → σ) (hsame : p → put v t = t)
    (hfield : sch.attributes.lookup ("@" ++ name) = some (field name x put).2) :
    sch.Fills (names ++ [name]) (as ++ if p then [] else [(name, text)]) s (put v t) := by
  split
  · rename_i hp
    rw [hsame hp]
    simpa using h.none name
  · exact h.value name text hread put hfield

theorem flag (h : sch.Fills names as s t) (name text : String) (v : Bool)
    {x : Scalar Bool} (hread : x.ofValue (escape text.toList) = .ok true)
    (put : Bool → σ → σ)
    (hfield : sch.attributes.lookup ("@" ++ name) = some (field name x put).2)
    (hfalse : put false t = t) :
    sch.Fills (names ++ [name]) (as ++ flagAttribute name text v) s (put v t) := by
  cases v with
  | false =>
    rw [hfalse]
    simpa [flagAttribute] using h.none name
  | true => exact h.value name text hread put hfield

theorem bool (h : sch.Fills names as s t) (name : String) (v : Bool) (put : Bool → σ → σ)
    (hfield : sch.attributes.lookup ("@" ++ name) = some (field name .bool put).2) :
    sch.Fills (names ++ [name]) (as ++ boolAttribute name v) s (put v t) :=
  h.value name _ (Scalar.bool_word v) put hfield

theorem readAttributes_text (h : sch.Fills names as s t) (hd : names.Nodup)
    (hn : ∀ n ∈ names, IsName n) (name : String) :
    sch.readAttributes { record := s } (Tag.of name as).text =
      .ok { record := t, seen := (sch.fieldsOf as).reverse } := by
  have hkeys : ∀ a ∈ as, IsName a.1 := fun a ha =>
    hn a.1 (h.sublist.subset (List.mem_map_of_mem ha))
  have hnodup : (as.map Prod.fst).Nodup := hd.sublist h.sublist
  have hkeysNodup : ((as.map Attribute.written).map Attribute.key).Nodup := by
    have he : (as.map Attribute.written).map Attribute.key =
        (as.map Prod.fst).map String.toList := by simp [Attribute.written]
    rw [he]
    exact List.pairwise_map.2 (hnodup.imp fun hne he => hne (String.toList_inj.1 he))
  have hread := foldlM_readAttribute_written (r := { record := s }) hkeys hnodup
    (fun _ _ => List.not_mem_nil) h.take
  rw [readAttributes, Tag.text_of, Attribute.items_texts hkeys,
    Attribute.strictly_pairs hkeysNodup fun _ _ => List.not_mem_nil]
  simp only [hread, List.append_nil]
  rfl

end Fills

end Markup.Schema

end UpdateProtocol
