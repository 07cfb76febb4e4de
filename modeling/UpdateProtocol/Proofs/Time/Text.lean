import Mathlib.Data.List.TakeWhile
import Mathlib.Data.Nat.Digits.Defs
import UpdateProtocol.Proofs.Markup.Value
import UpdateProtocol.Proofs.Time.Jitter

namespace UpdateProtocol.Duration

open UpdateProtocol.Markup (number?_digits isDigit_of_mem_digits)
open UpdateProtocol.Text (number? digitValue?)

variable {n m w : Nat} {l : List Char}

def padded (w n : Nat) : List Char :=
  List.replicate (w - (Nat.toDigits 10 n).length) '0' ++ Nat.toDigits 10 n

theorem length_padded (hw : 0 < w) (h : n < 10 ^ w) : (padded w n).length = w := by
  have hlength := Nat.toDigits_length 10 n w hw h
  rw [padded, List.length_append, List.length_replicate]
  omega

theorem number?_zero_cons (hl : l ≠ []) : number? 10 ('0' :: l) = number? 10 l := by
  obtain ⟨c, l, rfl⟩ := List.exists_cons_of_ne_nil hl
  rfl

theorem number?_padded : number? 10 (padded w n) = some n := by
  rw [padded]
  induction w - (Nat.toDigits 10 n).length with
  | zero => exact number?_digits n
  | succ k ih =>
    have hne : List.replicate k '0' ++ Nat.toDigits 10 n ≠ [] :=
      List.append_ne_nil_of_right_ne_nil _ Nat.toDigits_ne_nil
    rw [List.replicate_succ, List.cons_append, number?_zero_cons hne, ih]

def kept (l : List Char) : List Char := (l.reverse.dropWhile (· = '0')).reverse

theorem kept_append_zeros (l : List Char) :
    kept l ++ List.replicate (l.length - (kept l).length) '0' = l := by
  have hzeros : l.reverse.takeWhile (· = '0') =
      List.replicate (l.reverse.takeWhile (· = '0')).length '0' :=
    List.eq_replicate_of_mem fun c hc => by simpa using List.mem_takeWhile_imp hc
  have hsplit := congrArg List.reverse
    (List.takeWhile_append_dropWhile (p := (· = '0')) (l := l.reverse))
  rw [List.reverse_append, List.reverse_reverse, hzeros, List.reverse_replicate, ← kept] at hsplit
  have hlength := congrArg List.length hsplit
  rw [List.length_append, List.length_replicate] at hlength
  rw [← hlength, Nat.add_sub_cancel_left]
  exact hsplit

theorem eq_of_kept_padded (hw : 0 < w) (hn : n < 10 ^ w) (hm : m < 10 ^ w)
    (h : kept (padded w n) = kept (padded w m)) : n = m := by
  have hpadded : padded w n = padded w m := by
    rw [← kept_append_zeros (padded w n), ← kept_append_zeros (padded w m), h,
      length_padded hw hn, length_padded hw hm]
  exact Option.some.inj (by rw [← number?_padded, hpadded, number?_padded])

theorem toList_fractionText (w n : Nat) : (fractionText w n).toList =
    if kept (padded w n) = [] then [] else '.' :: kept (padded w n) := by
  rw [fractionText]
  split
  next hnil =>
    rw [if_pos (show kept (padded w n) = [] from hnil)]
    rfl
  next hne =>
    rw [if_neg (show kept (padded w n) ≠ [] from hne), String.toList_append]
    exact congrArg ('.' :: ·) String.toList_ofList

theorem fractionText_injective (hw : 0 < w) (hn : n < 10 ^ w) (hm : m < 10 ^ w)
    (h : fractionText w n = fractionText w m) : n = m := by
  refine eq_of_kept_padded hw hn hm ?_
  rw [← String.toList_inj, toList_fractionText, toList_fractionText] at h
  split at h <;> split at h <;> simp_all

theorem mem_padded {c : Char} (h : c ∈ padded w n) : c.isDigit = true := by
  obtain h | h := List.mem_append.1 h
  · obtain rfl := List.eq_of_mem_replicate h
    rfl
  · exact isDigit_of_mem_digits h

theorem fractionText_cases (w n : Nat) : (fractionText w n).toList = [] ∨
    ∃ digits, (fractionText w n).toList = '.' :: digits ∧ ∀ c ∈ digits, c.isDigit = true := by
  rw [toList_fractionText]
  split
  · exact .inl rfl
  · refine .inr ⟨_, rfl, fun c hc => ?_⟩
    have hmem := (List.dropWhile_sublist _).subset (List.mem_reverse.1 hc)
    exact mem_padded (List.mem_reverse.1 hmem)

theorem append_inj_of_head {p : Char → Bool} {a b x y : List Char} (ha : ∀ c ∈ a, p c = true)
    (hb : ∀ c ∈ b, p c = true) (hx : ∀ c ∈ x.head?, p c = false) (hy : ∀ c ∈ y.head?, p c = false)
    (h : a ++ x = b ++ y) : a = b ∧ x = y := by
  have hstop {z : List Char} (hz : ∀ c ∈ z.head?, p c = false) : z.takeWhile p = [] := by
    cases z with
    | nil => rfl
    | cons c z => exact List.takeWhile_cons_of_neg (by simp [hz c rfl])
  have htake := congrArg (List.takeWhile p) h
  rw [List.takeWhile_append_of_pos ha, List.takeWhile_append_of_pos hb, hstop hx, hstop hy,
    List.append_nil, List.append_nil] at htake
  subst htake
  exact ⟨rfl, List.append_cancel_left h⟩

def numeral (w n : Nat) : List Char :=
  Nat.toDigits 10 (n / 10 ^ w) ++ (fractionText w (n % 10 ^ w)).toList

theorem numeral_injective (h : numeral w n = numeral w m) : n = m := by
  have hhead (k : Nat) : ∀ c ∈ (fractionText w k).toList.head?, c.isDigit = false := by
    obtain hempty | ⟨digits, hdigits, -⟩ := fractionText_cases w k
    · simp [hempty]
    · simp [hdigits, Char.isDigit]
  obtain ⟨hwhole, hfraction⟩ := append_inj_of_head (fun _ => isDigit_of_mem_digits)
    (fun _ => isDigit_of_mem_digits) (hhead _) (hhead _) h
  have hquotient : n / 10 ^ w = m / 10 ^ w :=
    Option.some.inj (by rw [← number?_digits, hwhole, number?_digits])
  have hremainder : n % 10 ^ w = m % 10 ^ w := by
    cases w with
    | zero => rw [Nat.pow_zero, Nat.mod_one, Nat.mod_one]
    | succ w =>
      have hpos : 0 < 10 ^ (w + 1) := Nat.pow_pos (by decide)
      exact fractionText_injective (Nat.succ_pos w) (Nat.mod_lt n hpos) (Nat.mod_lt m hpos)
        (String.toList_inj.1 hfraction)
  rw [← Nat.div_add_mod n (10 ^ w), hquotient, hremainder, Nat.div_add_mod]

def unit (w : Nat) : List Char :=
  match w with
  | 9 => ['s']
  | 6 => ['m', 's']
  | 3 => ['µ', 's']
  | _ => ['n', 's']

theorem mem_numeral {c : Char} (h : c ∈ numeral w n) : (c.isDigit || c = '.') = true := by
  rw [Bool.or_eq_true, decide_eq_true_iff]
  obtain h | h := List.mem_append.1 h
  · exact .inl (isDigit_of_mem_digits h)
  · obtain hempty | ⟨digits, hfraction, hdigits⟩ := fractionText_cases w (n % 10 ^ w)
    · simp [hempty] at h
    · rw [hfraction] at h
      obtain rfl | h := List.mem_cons.1 h
      · exact .inr rfl
      · exact .inl (hdigits c h)

theorem text_eq (a : Duration) :
    ∃ w ∈ [0, 3, 6, 9], a.text.toList = numeral w a.nanos ++ unit w := by
  have hwhole : (fractionText 0 0).toList = [] := rfl
  simp only [text]
  split
  · exact ⟨9, by decide, by simp [numeral, unit]⟩
  · split
    · exact ⟨6, by decide, by simp [numeral, unit]⟩
    · split
      · exact ⟨3, by decide, by simp [numeral, unit]⟩
      · exact ⟨0, by decide, by simp [numeral, unit, hwhole, Nat.mod_one]⟩

theorem text_injective : Function.Injective text := by
  intro a b h
  obtain ⟨w, hw, ha⟩ := text_eq a
  obtain ⟨v, hv, hb⟩ := text_eq b
  have hheads : ∀ u ∈ [0, 3, 6, 9],
      (unit u).head?.all (fun c => !(c.isDigit || c = '.')) = true := by decide
  have hunit (u : Nat) (hu : u ∈ [0, 3, 6, 9]) (c : Char) (hc : c ∈ (unit u).head?) :
      (c.isDigit || c = '.') = false := by
    have hhead := hheads u hu
    rw [Option.mem_def.1 hc] at hhead
    simpa using hhead
  obtain ⟨hnumbers, hunits⟩ := append_inj_of_head (fun _ => mem_numeral) (fun _ => mem_numeral)
    (hunit w hw) (hunit v hv) (by rw [← ha, ← hb, h])
  have hplaces : ∀ u ∈ [0, 3, 6, 9], ∀ v ∈ [0, 3, 6, 9], unit u = unit v → u = v := by decide
  obtain rfl := hplaces w hw v hv hunits
  exact ext_nanos (numeral_injective hnumbers)

end UpdateProtocol.Duration
