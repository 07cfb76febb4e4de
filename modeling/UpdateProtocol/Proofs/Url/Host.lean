import Mathlib
import UpdateProtocol.Proofs.Markup.Kept
import UpdateProtocol.Proofs.Url.Address

namespace UpdateProtocol

open UpdateProtocol.Text

namespace Host

section Hexadecimal

theorem digitValue?_digitChar {d : Nat} (h : d < 16) : digitValue? 16 d.digitChar = some d := by
  have hall : ∀ d < 16, digitValue? 16 d.digitChar = some d := by decide
  exact hall d h

theorem numberOf_concat (base : Nat) (s : List Char) (c : Char) :
    numberOf base (s ++ [c]) = numberOf base s * base + (digitValue? base c).getD 0 := by
  rw [numberOf, List.foldl_append]
  rfl

theorem numberOf_hexDigits (n : Nat) : numberOf 16 (Nat.toDigits 16 n) = n := by
  induction n using Markup.digits_induction (by decide : 1 < 16) with
  | single n h =>
    rw [Nat.toDigits_of_lt_base h, ← List.nil_append [n.digitChar], numberOf_concat,
      digitValue?_digitChar h]
    exact Nat.zero_add n
  | more n h ih =>
    rw [Nat.toDigits_of_base_le (by decide) h, numberOf_concat, ih,
      digitValue?_digitChar (Nat.mod_lt n (by decide)), Option.getD_some]
    omega

theorem mem_hexDigits {n : Nat} {c : Char} (h : c ∈ Nat.toDigits 16 n) :
    c ∈ "0123456789abcdef".toList := by
  have hall : ∀ d < 16, d.digitChar ∈ "0123456789abcdef".toList := by decide
  induction n using Markup.digits_induction (by decide : 1 < 16) with
  | single n hn =>
    rw [Nat.toDigits_of_lt_base hn, List.mem_singleton] at h
    exact h ▸ hall n hn
  | more n hn ih =>
    rw [Nat.toDigits_of_base_le (by decide) hn] at h
    rcases List.mem_append.1 h with h | h
    · exact ih h
    · rw [List.mem_singleton] at h
      exact h ▸ hall _ (Nat.mod_lt n (by decide))

theorem piece?_hexDigits {n : Nat} (h : n < 65536) : piece? (Nat.toDigits 16 n) = some n := by
  have hlength : (Nat.toDigits 16 n).length ≤ 4 :=
    (Nat.length_toDigits_le_iff (by decide) (by decide)).2 h
  have hdigits : (Nat.toDigits 16 n).all (isDigit 16) = true := by
    have hall : "0123456789abcdef".toList.all (isDigit 16) = true := by decide
    exact List.all_eq_true.2 fun c hc => List.all_eq_true.1 hall c (mem_hexDigits hc)
  rw [piece?, if_pos ⟨Nat.toDigits_ne_nil, hlength, hdigits⟩, numberOf_hexDigits]

end Hexadecimal

section Pieces

variable {l : List Nat}

def joined (l : List Nat) : List Char := List.intercalate [':'] (l.map (Nat.toDigits 16))

theorem joined_cons (n : Nat) (l : List Nat) :
    joined (n :: l) = Nat.toDigits 16 n ++ (l.map (Nat.toDigits 16)).flatMap (':' :: ·) := by
  induction l generalizing n with
  | nil => simp [joined]
  | cons m l ih =>
    rw [joined, List.map_cons, List.map_cons, List.intercalate_cons_cons, ← List.map_cons, ← joined,
      ih m, List.map_cons, List.flatMap_cons]
    simp

theorem not_mem_hexDigits {c : Char} (hc : c ∉ "0123456789abcdef".toList) (n : Nat) :
    c ∉ Nat.toDigits 16 n := fun h => hc (mem_hexDigits h)

theorem groups_joined (l : List Nat) : groups (joined l) = l.map (Nat.toDigits 16) := by
  cases l with
  | nil => rfl
  | cons n l =>
    have hcolon (n : Nat) : ':' ∉ Nat.toDigits 16 n := not_mem_hexDigits (by decide) n
    have hmore : ∀ group ∈ l.map (Nat.toDigits 16), ':' ∉ group := by
      simp [hcolon]
    have hne : joined (n :: l) ≠ [] := by
      rw [joined_cons]
      exact List.append_ne_nil_of_left_ne_nil Nat.toDigits_ne_nil _
    rw [groups, if_neg hne, joined_cons, parts_join (hcolon n) hmore, List.map_cons]

theorem pieces?_hexDigits (last : Bool) (h : ∀ n ∈ l, n < 65536) :
    pieces? last (l.map (Nat.toDigits 16)) = some l := by
  induction l with
  | nil => rfl
  | cons n l ih =>
    obtain ⟨hn, hl⟩ := List.forall_mem_cons.1 h
    cases l with
    | nil =>
      have hdot : '.' ∉ Nat.toDigits 16 n := not_mem_hexDigits (by decide) n
      rw [List.map_singleton, pieces?, if_neg (by simp [hdot]), piece?_hexDigits hn]
      rfl
    | cons m l =>
      rw [List.map_cons, List.map_cons, pieces?, ← List.map_cons, ih hl, piece?_hexDigits hn]
      · rfl
      · simp

theorem splitGap?_cons {c : Char} {s : List Char} (h : ∀ rest, c = ':' → s = ':' :: rest → False) :
    splitGap? (c :: s) = (splitGap? s).map fun (before, after) => (c :: before, after) := by
  rw [splitGap?]
  exact h

theorem splitGap?_append {s : List Char} (h : ':' ∉ s) (t : List Char) :
    splitGap? (s ++ t) = (splitGap? t).map fun (before, after) => (s ++ before, after) := by
  induction s with
  | nil => simp
  | cons c s ih =>
    obtain ⟨hc, hs⟩ := List.ne_and_not_mem_of_not_mem_cons h
    rw [List.cons_append, splitGap?_cons fun _ heq _ => hc heq.symm, ih hs, Option.map_map]
    rfl

theorem splitGap?_joined (l : List Nat) (t : List Char) :
    splitGap? (joined l ++ t) =
      (splitGap? t).map fun (before, after) => (joined l ++ before, after) := by
  have hcolon (n : Nat) : ':' ∉ Nat.toDigits 16 n := not_mem_hexDigits (by decide) n
  have hmore (l : List Nat) : splitGap? ((l.map (Nat.toDigits 16)).flatMap (':' :: ·) ++ t) =
      (splitGap? t).map fun (before, after) =>
        ((l.map (Nat.toDigits 16)).flatMap (':' :: ·) ++ before, after) := by
    induction l with
    | nil => simp
    | cons n l ih =>
      rw [List.map_cons, List.flatMap_cons, List.append_assoc, List.cons_append,
        splitGap?_cons, splitGap?_append (hcolon n), ih, Option.map_map, Option.map_map]
      · simp [Function.comp_def]
      · intro rest _ heq
        cases hn : Nat.toDigits 16 n with
        | nil => exact Nat.toDigits_ne_nil hn
        | cons c digits =>
          rw [hn, List.cons_append] at heq
          exact hcolon n (hn ▸ (List.cons.inj heq).1 ▸ List.mem_cons_self)
  cases l with
  | nil => simp [joined]
  | cons n l =>
    rw [joined_cons, List.append_assoc, splitGap?_append (hcolon n), hmore, Option.map_map]
    simp [Function.comp_def]

end Pieces

section Ipv6

variable {pieces : List Nat}

def zerosFrom (pieces : List Nat) (i : Nat) : Nat := ((pieces.drop i).takeWhile (· = 0)).length

theorem longestZeros_eq (pieces : List Nat) : (longestZeros pieces).2 ≠ 0 →
    (longestZeros pieces).2 = zerosFrom pieces (longestZeros pieces).1 := by
  have hfold (places : List Nat) (best : Nat × Nat)
      (hbest : best.2 = 0 ∨ best.2 = zerosFrom pieces best.1) :
      let best := places.foldl (fun best i =>
        let run := ((pieces.drop i).takeWhile (· = 0)).length
        if best.2 < run then (i, run) else best) best
      best.2 = 0 ∨ best.2 = zerosFrom pieces best.1 := by
    induction places generalizing best with
    | nil => exact hbest
    | cons i places ih =>
      refine ih _ ?_
      dsimp only
      split
      · exact .inr rfl
      · exact hbest
  exact (hfold _ (0, 0) (.inl rfl)).resolve_left

theorem split_zeros (pieces : List Nat) (i : Nat) :
    pieces = pieces.take i ++ List.replicate (zerosFrom pieces i) 0 ++
      pieces.drop (i + zerosFrom pieces i) := by
  have hzeros : (pieces.drop i).takeWhile (· = 0) = List.replicate (zerosFrom pieces i) 0 :=
    List.eq_replicate_iff.2 ⟨rfl, fun n hn => by simpa using List.mem_takeWhile_imp hn⟩
  have hrest : pieces.drop (i + zerosFrom pieces i) = (pieces.drop i).dropWhile (· = 0) := by
    rw [← List.drop_drop]
    conv_lhs => rw [← List.takeWhile_append_dropWhile (p := (· = 0)) (l := pieces.drop i)]
    exact List.drop_left' rfl
  rw [hrest, ← hzeros, List.append_assoc, List.takeWhile_append_dropWhile, List.take_append_drop]

theorem ipv6Text_eq (pieces : List Nat) : ipv6Text pieces = joined pieces ∨
    ∃ before zeros after, 2 ≤ zeros ∧ pieces = before ++ List.replicate zeros 0 ++ after ∧
      ipv6Text pieces = joined before ++ ':' :: ':' :: joined after := by
  have hzeros := longestZeros_eq pieces
  rw [ipv6Text]
  generalize longestZeros pieces = longest at hzeros ⊢
  obtain ⟨start, run⟩ := longest
  dsimp only at hzeros ⊢
  split
  next hrun =>
    refine .inr ⟨pieces.take start, run, pieces.drop (start + run), hrun, ?_, ?_⟩
    · obtain rfl := hzeros (by omega)
      exact split_zeros pieces start
    · exact List.append_assoc _ _ _
  next => exact .inl rfl

theorem readIpv6_ipv6Text (hlength : pieces.length = 8) (hsmall : ∀ n ∈ pieces, n < 65536) :
    readIpv6 (ipv6Text pieces) = .ok pieces := by
  obtain heq | ⟨before, zeros, after, hzeros, hpieces, heq⟩ := ipv6Text_eq pieces
  · have hgap : splitGap? (joined pieces) = none := by
      rw [← List.append_nil (joined pieces), splitGap?_joined]
      rfl
    rw [readIpv6, heq, hgap]
    dsimp only
    rw [groups_joined, pieces?_hexDigits true hsmall]
    exact if_pos hlength
  · have hgap : splitGap? (joined before ++ ':' :: ':' :: joined after) =
        some (joined before, joined after) := by
      rw [splitGap?_joined, splitGap?, Option.map_some]
      dsimp only
      rw [List.append_nil]
    have hcount : before.length + zeros + after.length = 8 := by
      rw [hpieces, List.length_append, List.length_append, List.length_replicate] at hlength
      exact hlength
    rw [hpieces, List.forall_mem_append, List.forall_mem_append] at hsmall
    have hfill : 8 - before.length - after.length = zeros := by omega
    rw [readIpv6, heq, hgap]
    simp only [groups_joined, pieces?_hexDigits _ hsmall.1.1, pieces?_hexDigits _ hsmall.2,
      Option.bind_eq_bind, Option.bind_some, hfill, ← hpieces]
    rw [if_pos (by omega)]
    exact if_pos hlength

theorem mem_joined {l : List Nat} {c : Char} (h : c ∈ joined l) :
    c ∈ ":0123456789abcdef".toList := by
  have hdigit {n : Nat} (hc : c ∈ Nat.toDigits 16 n) : c ∈ ":0123456789abcdef".toList :=
    List.mem_cons_of_mem ':' (mem_hexDigits hc)
  cases l with
  | nil => cases h
  | cons n l =>
    rw [joined_cons, List.mem_append, List.mem_flatMap] at h
    rcases h with h | ⟨group, hgroup, h⟩
    · exact hdigit h
    · obtain ⟨m, -, rfl⟩ := List.mem_map.1 hgroup
      rcases List.mem_cons.1 h with rfl | h
      · exact List.mem_cons_self
      · exact hdigit h

theorem mem_ipv6Text {c : Char} (h : c ∈ ipv6Text pieces) : c ∈ ":0123456789abcdef".toList := by
  obtain heq | ⟨before, zeros, after, -, -, heq⟩ := ipv6Text_eq pieces
  · exact mem_joined (heq ▸ h)
  · rw [heq, List.mem_append, List.mem_cons, List.mem_cons] at h
    rcases h with h | rfl | rfl | h
    · exact mem_joined h
    · exact List.mem_cons_self
    · exact List.mem_cons_self
    · exact mem_joined h

end Ipv6

section Bounds

end Bounds

section Ascii

theorem lower_lower (s : List Char) :
    (s.map Char.toLower).map Char.toLower = s.map Char.toLower := by
  rw [List.map_map]
  exact List.map_congr_left fun c _ => Char.toLower_toLower_eq_toLower c

theorem ascii_lower {s : List Char} (h : s.all (·.toNat < 0x80) = true) :
    (s.map Char.toLower).all (·.toNat < 0x80) = true := by
  have hlower : ∀ n < 0x80, (Char.ofNat n).toLower.toNat < 0x80 := by decide +kernel
  simp only [List.all_eq_true, List.forall_mem_map, decide_eq_true_eq] at h ⊢
  intro c hc
  have hc := hlower c.toNat (h c hc)
  rwa [Char.ofNat_toNat] at hc

instance lawfulIdna_ascii : LawfulIdna where
  encode?_of_encode? {s t} h := by
    change (if s.all (·.toNat < 0x80) then some (s.map Char.toLower) else none) = some t at h
    split at h
    next hascii =>
      cases h
      have hkept : Idna.encode? (s.map Char.toLower) =
          some ((s.map Char.toLower).map Char.toLower) := if_pos (ascii_lower hascii)
      rw [encode?, hkept, ite_self, lower_lower]
    next => cases h

end Ascii

inductive IsNormal [Idna] : Host → Prop
  | name {s : List Char} (ne_nil : s ≠ []) (encoded : encode? s = some s)
      (allowed : ∀ c ∈ s, isForbidden c = false) (notNumber : endsInNumber s = false) :
      IsNormal (.name s)
  | ipv4 {address : Nat} (fits : address < 2 ^ 32) : IsNormal (.ipv4 address)
  | ipv6 {pieces : List Nat} (length : pieces.length = 8) (fits : ∀ n ∈ pieces, n < 65536) :
      IsNormal (.ipv6 pieces)

variable {host : Host}

def isMark (c : Char) : Bool := c ∈ ['/', '\\', '?', '#', '@'] || c.toNat ≤ 0x20

theorem isMark_of_mem {word : String} (hword : word.toList.all (fun c => !isMark c) = true)
    {c : Char} (hc : c ∈ word.toList) : isMark c = false := by
  simpa using List.all_eq_true.1 hword c hc

theorem isMark_of_not_isForbidden {c : Char} (h : isForbidden c = false) : isMark c = false := by
  have hall : ['/', '\\', '?', '#', '@'].all isForbidden = true := by decide
  rw [isMark, Bool.or_eq_false_iff, decide_eq_false_iff_not, decide_eq_false_iff_not]
  refine ⟨fun hmem => ?_, fun hlow => ?_⟩
  · exact Bool.false_ne_true (h.symm.trans (List.all_eq_true.1 hall c hmem))
  · rw [isForbidden, decide_eq_true hlow] at h
    cases h

theorem ipv6Text_plain {pieces : List Nat} {c : Char} (h : c ∈ text (.ipv6 pieces)) :
    isMark c = false := by
  rw [text, List.mem_append, List.mem_cons, List.mem_singleton] at h
  rcases h with (rfl | h) | rfl
  · rfl
  · exact isMark_of_mem (by decide) (mem_ipv6Text h)
  · rfl

variable [Idna]

theorem IsNormal.isMark_text (h : host.IsNormal) {c : Char} (hc : c ∈ host.text) :
    isMark c = false := by
  cases h with
  | name _ _ allowed _ => exact isMark_of_not_isForbidden (allowed c hc)
  | ipv4 => exact isMark_of_mem (by decide) (mem_ipv4Text hc)
  | ipv6 => exact ipv6Text_plain hc

theorem IsNormal.text_ne_nil (h : host.IsNormal) : host.text ≠ [] := by
  cases h with
  | name ne_nil _ _ _ => exact ne_nil
  | ipv4 => exact ipv4Text_ne_nil
  | ipv6 => exact List.cons_ne_nil _ _

theorem IsNormal.ne_empty (h : host.IsNormal) : host ≠ .name [] := by
  rintro rfl
  exact h.text_ne_nil rfl

theorem IsNormal.read_text (h : host.IsNormal) : read host.text = .ok host := by
  cases h with
  | name ne_nil encoded allowed notNumber =>
    rw [text, read_of_encode? ne_nil encoded allowed, notNumber, if_neg Bool.false_ne_true]
  | ipv4 fits => exact read_ipv4Text fits
  | @ipv6 pieces length fits =>
    have hlast : (ipv6Text pieces ++ [']']).getLast? = some ']' := List.getLast?_concat ..
    rw [text, List.cons_append, read, if_pos hlast, List.dropLast_concat,
      readIpv6_ipv6Text length fits]
    rfl

end Host

namespace Authority

theorem splitPort_inside {s : List Char} (h : ']' ∉ s) (rest : List Char) :
    splitPort true (s ++ rest) = (s ++ (splitPort true rest).1, (splitPort true rest).2) := by
  induction s with
  | nil => rfl
  | cons c s ih =>
    obtain ⟨hclose, hs⟩ := List.ne_and_not_mem_of_not_mem_cons h
    rw [List.cons_append, splitPort, if_neg (by simp), if_neg hclose.symm, ite_self, ih hs]
    rfl

theorem splitPort_text [Idna] {host : Host} (h : host.IsNormal) (rest : List Char) :
    splitPort false (host.text ++ rest) =
      (host.text ++ (splitPort false rest).1, (splitPort false rest).2) := by
  cases h with
  | name _ _ allowed _ =>
    refine splitPort_outside (fun c hc => ⟨?_, ?_⟩) rest <;> rintro rfl <;>
      exact absurd (allowed _ hc) (by decide)
  | ipv4 =>
    refine splitPort_outside (fun c hc => ⟨?_, ?_⟩) rest <;> rintro rfl <;>
      exact absurd (Host.mem_ipv4Text hc) (by decide)
  | @ipv6 pieces =>
    have hclose : ']' ∉ Host.ipv6Text pieces := fun hmem =>
      absurd (Host.mem_ipv6Text hmem) (by decide)
    rw [Host.text, List.cons_append, List.cons_append, List.append_assoc, splitPort,
      if_neg (by decide), if_pos rfl, splitPort_inside hclose, List.singleton_append, splitPort,
      if_neg (by decide), if_neg (by decide), if_pos rfl]
    simp

end Authority

end UpdateProtocol
