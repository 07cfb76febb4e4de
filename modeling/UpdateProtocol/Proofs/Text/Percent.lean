import Mathlib.Data.List.Flatten
import Mathlib.Data.List.Infix
import Mathlib.Tactic.IntervalCases
import UpdateProtocol.Text.Percent
import UpdateProtocol.Proofs.Text.Utf8

namespace UpdateProtocol.Text

open String (utf8EncodeChar)

def IsHexByte (b : UInt8) : Prop := (hexByte? b).isSome = true

def Escapes (bs : List UInt8) : Prop :=
  ∃ high low rest, bs = 0x25 :: high :: low :: rest ∧ IsHexByte high ∧ IsHexByte low

section Decode

variable {b high low h l : UInt8} {bs rest : List UInt8}

theorem decode_escape (hhigh : hexByte? high = some h) (hlow : hexByte? low = some l) :
    percentDecodeBytes (0x25 :: high :: low :: rest) = (h * 16 + l) :: percentDecodeBytes rest := by
  rw [percentDecodeBytes, escape?, if_pos rfl, hhigh, hlow]

theorem decode_kept (hb : ¬Escapes (b :: bs)) :
    percentDecodeBytes (b :: bs) = b :: percentDecodeBytes bs := by
  rcases bs with _ | ⟨high, _ | ⟨low, rest⟩⟩
  · rfl
  · rfl
  · have hnone : escape? b high low = none := by
      rw [escape?]
      split
      next hpercent =>
        split
        next hhigh hlow =>
          exact absurd ⟨high, low, rest, by rw [hpercent], Option.isSome_of_eq_some hhigh,
            Option.isSome_of_eq_some hlow⟩ hb
        next => rfl
      next => rfl
    rw [percentDecodeBytes, hnone]

theorem decode_induction {motive : List UInt8 → Prop} (nil : motive [])
    (escape : ∀ high low h l rest, hexByte? high = some h → hexByte? low = some l → motive rest →
      motive (0x25 :: high :: low :: rest))
    (kept : ∀ b rest, ¬Escapes (b :: rest) → motive rest → motive (b :: rest)) (bs : List UInt8) :
    motive bs := by
  induction hn : bs.length using Nat.strong_induction_on generalizing bs with
  | _ n ih =>
    subst hn
    by_cases hbs : Escapes bs
    · obtain ⟨high, low, rest, rfl, hhigh, hlow⟩ := hbs
      obtain ⟨h, hh⟩ := Option.isSome_iff_exists.1 hhigh
      obtain ⟨l, hl⟩ := Option.isSome_iff_exists.1 hlow
      have hshorter : rest.length < (0x25 :: high :: low :: rest).length := by
        simp only [List.length_cons]
        omega
      exact escape high low h l rest hh hl (ih rest.length hshorter rest rfl)
    · cases bs with
      | nil => exact nil
      | cons b rest => exact kept b rest hbs (ih rest.length (Nat.lt_succ_self _) rest rfl)

theorem length_decode_le (bs : List UInt8) : (percentDecodeBytes bs).length ≤ bs.length := by
  induction bs using decode_induction with
  | nil => exact Nat.le_refl _
  | escape high low h l rest hh hl ih =>
    rw [decode_escape hh hl]
    simp only [List.length_cons]
    omega
  | kept b rest hb ih =>
    rw [decode_kept hb]
    exact Nat.succ_le_succ ih

theorem decode_cons_eq_iff :
    percentDecodeBytes (b :: bs) = b :: bs ↔ ¬Escapes (b :: bs) ∧ percentDecodeBytes bs = bs := by
  constructor
  · intro heq
    have hb : ¬Escapes (b :: bs) := by
      rintro ⟨high, low, rest, hbs, hhigh, hlow⟩
      rw [hbs] at heq
      obtain ⟨h, hh⟩ := Option.isSome_iff_exists.1 hhigh
      obtain ⟨l, hl⟩ := Option.isSome_iff_exists.1 hlow
      rw [decode_escape hh hl] at heq
      have hlength := congrArg List.length heq
      have hle := length_decode_le rest
      simp only [List.length_cons] at hlength
      omega
    rw [decode_kept hb] at heq
    exact ⟨hb, (List.cons.inj heq).2⟩
  · rintro ⟨hb, heq⟩
    rw [decode_kept hb, heq]

theorem decode_append_eq_iff {front : List UInt8} (hfront : ∀ b ∈ front, b ≠ 0x25) :
    percentDecodeBytes (front ++ bs) = front ++ bs ↔ percentDecodeBytes bs = bs := by
  induction front with
  | nil => exact Iff.rfl
  | cons b front ih =>
    obtain ⟨hb, hfront⟩ := List.forall_mem_cons.1 hfront
    have hkept : ¬Escapes (b :: (front ++ bs)) := by
      rintro ⟨high, low, rest, hbs, -⟩
      exact hb (List.cons.inj hbs).1
    rw [List.cons_append, decode_cons_eq_iff, ih hfront]
    exact and_iff_right hkept

end Decode

section Encode

def encodedByte (b : UInt8) : List UInt8 := (percentEncodeByte b).flatMap utf8EncodeChar

def encodedBytes (keep : UInt8 → Bool) (bs : List UInt8) : List UInt8 :=
  bs.flatMap fun b => if keep b then [b] else encodedByte b

theorem encodedByte_eq (b : UInt8) : ∃ high low h l, encodedByte b = [0x25, high, low] ∧
    hexByte? high = some h ∧ hexByte? low = some l ∧ h * 16 + l = b := by
  have hdigit : ∀ n < 16, ∃ d, utf8EncodeChar (upperHex n) = [d] ∧
      hexByte? d = some (UInt8.ofNat n) := by
    intro n hn
    interval_cases n <;> exact ⟨_, rfl, rfl⟩
  have hb := b.toNat_lt
  obtain ⟨high, hhigh, hh⟩ := hdigit (b.toNat / 16) (by omega)
  obtain ⟨low, hlow, hl⟩ := hdigit (b.toNat % 16) (by omega)
  refine ⟨high, low, _, _, ?_, hh, hl, ?_⟩
  · rw [encodedByte, percentEncodeByte, List.flatMap_cons, List.flatMap_cons, List.flatMap_cons,
      hhigh, hlow]
    rfl
  · rw [← UInt8.toNat_inj]
    simp
    omega

variable {keep : UInt8 → Bool} {b d : UInt8} {bs rest : List UInt8}

theorem not_isHexByte_percent : ¬IsHexByte 0x25 :=
  (by decide : (hexByte? 0x25).isSome ≠ true)

theorem eq_cons_of_encodedBytes (hd : IsHexByte d) (h : encodedBytes keep bs = d :: rest) :
    ∃ rest', bs = d :: rest' ∧ rest = encodedBytes keep rest' := by
  cases bs with
  | nil => cases h
  | cons b bs =>
    rw [encodedBytes, List.flatMap_cons] at h
    split at h
    · obtain ⟨rfl, rfl⟩ := List.cons.inj h
      exact ⟨bs, rfl, rfl⟩
    · obtain ⟨high, low, -, -, hb, -⟩ := encodedByte_eq b
      rw [hb] at h
      rw [← (List.cons.inj h).1] at hd
      exact absurd hd not_isHexByte_percent

theorem decode_encodedBytes (hpercent : keep 0x25 = true) (hhex : ∀ b, IsHexByte b → keep b = true)
    (bs : List UInt8) :
    percentDecodeBytes (encodedBytes keep bs) = percentDecodeBytes bs := by
  have hkeep {b : UInt8} {bs : List UInt8} (hb : keep b = true) :
      encodedBytes keep (b :: bs) = b :: encodedBytes keep bs := by
    rw [encodedBytes, List.flatMap_cons, if_pos hb, List.singleton_append, encodedBytes]
  induction bs using decode_induction with
  | nil => rfl
  | escape high low h l rest hh hl ih =>
    rw [hkeep hpercent, hkeep (hhex high (Option.isSome_of_eq_some hh)),
      hkeep (hhex low (Option.isSome_of_eq_some hl)), decode_escape hh hl, decode_escape hh hl, ih]
  | kept b rest hb ih =>
    rw [decode_kept hb, ← ih]
    by_cases hkept : keep b = true
    · rw [hkeep hkept]
      refine decode_kept ?_
      -- The digits of an escape would have to be digits of the bytes before.
      rintro ⟨high, low, more, hmore, hhigh, hlow⟩
      obtain ⟨rfl, hdigits⟩ := List.cons.inj hmore
      obtain ⟨rest', rfl, hdigit⟩ := eq_cons_of_encodedBytes hhigh hdigits
      obtain ⟨rest'', rfl, -⟩ := eq_cons_of_encodedBytes hlow hdigit.symm
      exact hb ⟨high, low, rest'', rfl, hhigh, hlow⟩
    · obtain ⟨high, low, h, l, hbytes, hh, hl, rfl⟩ := encodedByte_eq b
      rw [encodedBytes, List.flatMap_cons, if_neg hkept, hbytes]
      exact decode_escape hh hl

theorem mem_percentEncode {escaped : Char → Bool} {s : List Char} {c : Char}
    (h : c ∈ percentEncode escaped s) :
    (c ∈ s ∧ c.toNat < 0x80 ∧ escaped c = false) ∨ c ∈ "%0123456789ABCDEF".toList := by
  have hdigit : ∀ n < 16, upperHex n ∈ "%0123456789ABCDEF".toList := by decide
  obtain ⟨d, hd, hc⟩ := List.mem_flatMap.1 h
  split at hc
  next hkept =>
    rw [List.mem_singleton] at hc
    subst hc
    exact .inl ⟨hd, by simpa using hkept⟩
  next =>
    obtain ⟨b, -, hb⟩ := List.mem_flatMap.1 hc
    have hlt := b.toNat_lt
    simp only [percentEncodeByte, List.mem_cons, List.not_mem_nil, or_false] at hb
    rcases hb with rfl | rfl | rfl
    · exact .inr List.mem_cons_self
    · exact .inr (hdigit _ (by omega))
    · exact .inr (hdigit _ (by omega))

def IsEncoded (escaped : Char → Bool) (s : List Char) : Prop :=
  ∀ c ∈ s, c.toNat < 0x80 ∧ escaped c = false

theorem IsEncoded.forall_mem {escaped p : Char → Bool} {s : List Char} (h : IsEncoded escaped s)
    (hp : ∀ n < 0x80, escaped (Char.ofNat n) = false → p (Char.ofNat n) = true) :
    ∀ c ∈ s, p c = true := fun c hc => by
  obtain ⟨hlow, hkept⟩ := h c hc
  simpa using hp c.toNat hlow (by simpa using hkept)

theorem percentEncode_of_isEncoded {escaped : Char → Bool} {s : List Char}
    (h : IsEncoded escaped s) : percentEncode escaped s = s := by
  induction s with
  | nil => rfl
  | cons c s ih =>
    obtain ⟨⟨hlow, hkept⟩, hs⟩ := List.forall_mem_cons.1 h
    have hstay : (decide (c.toNat < 0x80) && !escaped c) = true := by simp [hlow, hkept]
    rw [percentEncode, List.flatMap_cons, if_pos hstay, ← percentEncode, ih hs]
    rfl

theorem flatMap_percentEncode (escaped : Char → Bool) (s : List Char) :
    (percentEncode escaped s).flatMap utf8EncodeChar =
      encodedBytes (fun b => decide (b < 0x80) && !escaped (Char.ofNat b.toNat))
        (s.flatMap utf8EncodeChar) := by
  rw [percentEncode, encodedBytes, List.flatMap_assoc, List.flatMap_assoc]
  refine List.flatMap_congr fun c _ => ?_
  have hbytes : (c.toString.toUTF8.data.toList.flatMap percentEncodeByte).flatMap utf8EncodeChar =
      (utf8EncodeChar c).flatMap encodedByte := by
    rw [toUTF8_toList, List.flatMap_assoc]
    change ((String.singleton c).toList.flatMap utf8EncodeChar).flatMap encodedByte = _
    rw [String.toList_singleton, List.flatMap_singleton]
  by_cases hc : c.toNat < 0x80
  · rw [utf8EncodeChar_of_lt hc, List.flatMap_singleton, ofNat_toNat_ofNat hc]
    have hlt : UInt8.ofNat c.toNat < 0x80 := by
      rw [UInt8.lt_iff_toNat_lt, toNat_ofNat_of_lt hc]
      exact hc
    simp only [hc, hlt, decide_true, Bool.true_and]
    split
    · rw [List.flatMap_singleton, utf8EncodeChar_of_lt hc]
    · rw [hbytes, utf8EncodeChar_of_lt hc, List.flatMap_singleton]
  · rw [if_neg (by simp [hc]), hbytes]
    refine List.flatMap_congr fun b hb => ?_
    have hhigh : ¬b < 0x80 :=
      UInt8.not_lt.2 (le_of_mem_utf8EncodeChar (Nat.le_of_not_lt hc) hb)
    rw [if_neg (by simp [hhigh])]

end Encode

theorem fromUTF8?_eq_some_iff {bytes : ByteArray} {t : String} :
    String.fromUTF8? bytes = some t ↔ bytes = t.toUTF8 := by
  rw [String.fromUTF8?, String.toUTF8_eq_toByteArray]
  constructor
  · intro h
    split at h
    · cases h
      rfl
    · cases h
  · rintro rfl
    rw [dif_pos t.isValidUTF8]
    rfl

theorem percentDecode?_eq_some_iff {s t : String} : percentDecode? s = some t ↔
    percentDecodeBytes (s.toList.flatMap utf8EncodeChar) = t.toList.flatMap utf8EncodeChar := by
  rw [percentDecode?, fromUTF8?_eq_some_iff, ByteArray.ext_iff, ← Array.toList_inj, toUTF8_toList,
    toUTF8_toList]

theorem decode_percentEncode {escaped : Char → Bool} (hpercent : escaped '%' = false)
    (hhex : ∀ b, IsHexByte b → b < 0x80 ∧ escaped (Char.ofNat b.toNat) = false) (s : List Char) :
    percentDecodeBytes ((percentEncode escaped s).flatMap utf8EncodeChar) =
      percentDecodeBytes (s.flatMap utf8EncodeChar) := by
  rw [flatMap_percentEncode]
  refine decode_encodedBytes (by simpa using hpercent) (fun b hb => ?_) _
  rw [decide_eq_true (hhex b hb).1, (hhex b hb).2]
  rfl

def IsHexDigit (c : Char) : Prop := c ∈ "0123456789abcdefABCDEF".toList

def Unescaped (s : List Char) : Prop :=
  ∀ high low, IsHexDigit high → IsHexDigit low → ¬['%', high, low] <:+: s

theorem isHexByte_iff {b : UInt8} :
    IsHexByte b ↔ b < 0x80 ∧ IsHexDigit (Char.ofNat b.toNat) := by
  have hall : ∀ n < 256, ((hexByte? (UInt8.ofNat n)).isSome = true ↔
      UInt8.ofNat n < 0x80 ∧ Char.ofNat (UInt8.ofNat n).toNat ∈ "0123456789abcdefABCDEF".toList) := by
    decide +kernel
  have hb := hall b.toNat b.toNat_lt
  rwa [UInt8.ofNat_toNat] at hb

theorem IsHexDigit.lt {c : Char} (h : IsHexDigit c) : c.toNat < 0x80 := by
  have hall : "0123456789abcdefABCDEF".toList.all (fun c => decide (c.toNat < 0x80)) = true := by
    decide
  exact of_decide_eq_true (List.all_eq_true.1 hall c h)

theorem IsHexDigit.isHexByte {c : Char} (h : IsHexDigit c) : IsHexByte (UInt8.ofNat c.toNat) := by
  rw [isHexByte_iff, ofNat_toNat_ofNat h.lt, UInt8.lt_iff_toNat_lt, toNat_ofNat_of_lt h.lt]
  exact ⟨h.lt, h⟩

theorem eq_cons_of_flatMap {s : List Char} {d : UInt8} {rest : List UInt8} (hd : IsHexByte d)
    (h : s.flatMap utf8EncodeChar = d :: rest) :
    ∃ c s', s = c :: s' ∧ IsHexDigit c ∧ rest = s'.flatMap utf8EncodeChar := by
  obtain ⟨hlt, hdigit⟩ := isHexByte_iff.1 hd
  cases s with
  | nil => cases h
  | cons c s =>
    rw [List.flatMap_cons] at h
    by_cases hc : c.toNat < 0x80
    · rw [utf8EncodeChar_of_lt hc] at h
      obtain ⟨rfl, rfl⟩ := List.cons.inj h
      rw [ofNat_toNat_ofNat hc] at hdigit
      exact ⟨c, s, rfl, hdigit, rfl⟩
    · cases hbytes : utf8EncodeChar c with
      | nil => exact absurd hbytes String.utf8EncodeChar_ne_nil
      | cons b more =>
        have hb := le_of_mem_utf8EncodeChar (Nat.le_of_not_lt hc)
          (hbytes ▸ List.mem_cons_self : b ∈ utf8EncodeChar c)
        rw [hbytes, List.cons_append] at h
        rw [(List.cons.inj h).1] at hb
        exact absurd hlt (UInt8.not_lt.2 hb)

theorem escapes_percent_iff {s : List Char} : Escapes (0x25 :: s.flatMap utf8EncodeChar) ↔
    ∃ high low, IsHexDigit high ∧ IsHexDigit low ∧ [high, low] <+: s := by
  constructor
  · rintro ⟨high, low, rest, hbytes, hhigh, hlow⟩
    obtain ⟨c, s', rfl, hc, hrest⟩ := eq_cons_of_flatMap hhigh (List.cons.inj hbytes).2
    obtain ⟨d, s'', rfl, hd, -⟩ := eq_cons_of_flatMap hlow hrest.symm
    exact ⟨c, d, hc, hd, s'', rfl⟩
  · rintro ⟨high, low, hhigh, hlow, s', rfl⟩
    refine ⟨_, _, s'.flatMap utf8EncodeChar, ?_, hhigh.isHexByte, hlow.isHexByte⟩
    rw [List.cons_append, List.singleton_append, List.flatMap_cons, List.flatMap_cons,
      utf8EncodeChar_of_lt hhigh.lt, utf8EncodeChar_of_lt hlow.lt]
    rfl

theorem ne_percent_of_mem {c : Char} (hc : c ≠ '%') : ∀ b ∈ utf8EncodeChar c, b ≠ 0x25 := by
  intro b hb
  by_cases hlt : c.toNat < 0x80
  · rw [utf8EncodeChar_of_lt hlt, List.mem_singleton] at hb
    rintro rfl
    exact hc (by rw [← ofNat_toNat_ofNat hlt, ← hb]; rfl)
  · rintro rfl
    exact absurd (le_of_mem_utf8EncodeChar (Nat.le_of_not_lt hlt) hb) (by decide)

theorem decode_eq_iff (s : List Char) :
    percentDecodeBytes (s.flatMap utf8EncodeChar) = s.flatMap utf8EncodeChar ↔ Unescaped s := by
  induction s with
  | nil => exact iff_of_true rfl fun high low _ _ h => by simpa using List.infix_nil.1 h
  | cons c s ih =>
    rw [List.flatMap_cons]
    by_cases hc : c = '%'
    · subst hc
      have hpercent : utf8EncodeChar '%' = [0x25] := rfl
      rw [hpercent, List.singleton_append, decode_cons_eq_iff, ih, escapes_percent_iff]
      constructor
      · rintro ⟨hfront, hs⟩ high low hhigh hlow hinfix
        rcases List.infix_cons_iff.1 hinfix with hprefix | hinfix
        · exact hfront ⟨high, low, hhigh, hlow, (List.cons_prefix_cons.1 hprefix).2⟩
        · exact hs high low hhigh hlow hinfix
      · intro h
        refine ⟨?_, fun high low hhigh hlow hinfix =>
          h high low hhigh hlow (List.infix_cons hinfix)⟩
        rintro ⟨high, low, hhigh, hlow, hprefix⟩
        exact h high low hhigh hlow (List.cons_prefix_cons.2 ⟨rfl, hprefix⟩).isInfix
    · rw [decode_append_eq_iff (ne_percent_of_mem hc), ih]
      refine forall₂_congr fun high low => forall₂_congr fun _ _ => not_congr ?_
      rw [List.infix_cons_iff, List.cons_prefix_cons]
      exact ⟨.inr, fun h => h.resolve_left fun hfront => hc hfront.1.symm⟩

theorem flatMap_utf8EncodeChar_inj {s t : List Char} :
    s.flatMap utf8EncodeChar = t.flatMap utf8EncodeChar ↔ s = t := by
  refine ⟨fun h => ?_, congrArg _⟩
  rw [← String.ofList_inj, ← String.toByteArray_inj, String.toByteArray_ofList,
    String.toByteArray_ofList, List.utf8Encode, List.utf8Encode, h]

theorem decode_eq_iff_of_sublist {s t : List Char} (hst : s.Sublist t) :
    percentDecodeBytes (s.flatMap utf8EncodeChar) = t.flatMap utf8EncodeChar ↔
      s = t ∧ Unescaped t := by
  constructor
  · intro h
    have hlength := length_decode_le (s.flatMap utf8EncodeChar)
    rw [h] at hlength
    have hbytes := (hst.flatMap utf8EncodeChar).eq_of_length_le hlength
    rw [hbytes, decode_eq_iff] at h
    exact ⟨flatMap_utf8EncodeChar_inj.1 hbytes, h⟩
  · rintro ⟨rfl, h⟩
    exact (decode_eq_iff s).2 h

end UpdateProtocol.Text
