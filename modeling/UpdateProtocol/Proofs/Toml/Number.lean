import UpdateProtocol.Proofs.Markup.Value
import UpdateProtocol.Toml.Number

namespace UpdateProtocol.Toml

open UpdateProtocol.Text

variable {s rest : List Char} {n : Nat}

theorem ne_of_isDigit {c d : Char} (hc : c.isDigit = true) (hd : d.isDigit = false) : c ≠ d := by
  rintro rfl
  exact Bool.false_ne_true (hd.symm.trans hc)

theorem digitValue?_of_number? {base : Nat} (h : number? base s = some n) :
    ∀ c ∈ s, (digitValue? base c).isSome = true := by
  let add (n? : Option Nat) (c : Char) : Option Nat :=
    n?.bind fun n => (digitValue? base c).map (n * base + ·)
  have hnone (s : List Char) : s.foldl add none = none := by
    induction s with
    | nil => rfl
    | cons c s ih => exact ih
  have hall (s : List Char) (start : Option Nat) (h : s.foldl add start = some n) :
      ∀ c ∈ s, (digitValue? base c).isSome = true := by
    induction s generalizing start with
    | nil => exact List.forall_mem_nil _
    | cons c s ih =>
      refine List.forall_mem_cons.2 ⟨?_, ih _ h⟩
      rw [← Option.ne_none_iff_isSome]
      intro hc
      have hstart : add start c = none := by
        cases start with
        | none => rfl
        | some n => simp [add, hc]
      rw [List.foldl_cons, hstart, hnone] at h
      cases h
  cases s with
  | nil => exact List.forall_mem_nil _
  | cons c s => exact hall (c :: s) (some 0) h

section Line

variable (hs : ∀ c ∈ s, c.isDigit = true)

include hs

theorem mark?_line {c : Char} (hc : c.isDigit = false) (hend : c ≠ '\n') :
    mark? c (s ++ '\n' :: rest) = none := by
  cases s with
  | nil => exact if_neg hend.symm
  | cons d s => exact if_neg (ne_of_isDigit (hs d List.mem_cons_self) hc)

theorem mark?_of_field? {width least greatest : Nat} {after : List Char} {c : Char}
    (h : field? width least greatest (s ++ '\n' :: rest) = some (n, after))
    (hc : c.isDigit = false) (hend : c ≠ '\n') : mark? c after = none := by
  rw [field?] at h
  split at h
  next => cases h
  next hlength =>
    obtain ⟨m, hm, hrest⟩ := Option.bind_eq_some_iff.1 h
    split at hrest
    next =>
      cases hrest
      -- a field that went past the digits would have taken in the end of the line
      have hfits : width ≤ s.length := Nat.le_of_not_lt fun hmore => by
        have hmem : '\n' ∈ (s ++ '\n' :: rest).take width := by
          obtain ⟨more, rfl⟩ := Nat.exists_eq_add_of_lt hmore
          rw [Nat.add_assoc, List.take_length_add_append, List.take_succ_cons]
          exact List.mem_append_right _ List.mem_cons_self
        cases digitValue?_of_number? hm '\n' hmem
      rw [List.drop_append_of_le_length hfits]
      exact mark?_line (fun d hd => hs d (List.mem_of_mem_drop hd)) hc hend
    next => cases hrest

theorem dateTime?_line : dateTime? (s ++ '\n' :: rest) = none := by
  have hdate : date? (s ++ '\n' :: rest) = none := by
    rw [date?]
    cases hfield : field? 4 0 9999 (s ++ '\n' :: rest) with
    | none => rfl
    | some cut =>
      have hmark := mark?_of_field? hs hfield (c := '-') rfl (by decide)
      simp [hmark]
  have htime : time? (s ++ '\n' :: rest) = none := by
    rw [time?]
    cases hfield : field? 2 0 23 (s ++ '\n' :: rest) with
    | none => rfl
    | some cut =>
      have hmark := mark?_of_field? hs hfield (c := ':') rfl (by decide)
      simp [hmark]
  rw [dateTime?, hdate, htime]
  rfl

theorem sign?_line : sign? (s ++ '\n' :: rest) = (false, s ++ '\n' :: rest) := by
  cases s with
  | nil => rfl
  | cons c s =>
    have hc := hs c List.mem_cons_self
    have hminus := ne_of_isDigit hc (d := '-') rfl
    have hplus := ne_of_isDigit hc (d := '+') rfl
    unfold sign?
    split
    next heq => exact absurd (List.cons.inj heq).1 hminus
    next heq => exact absurd (List.cons.inj heq).1 hplus
    next => rfl

theorem digits?_line (hne : s ≠ []) : digits? 10 (s ++ '\n' :: rest) = some (s, '\n' :: rest) := by
  have hvalue {c : Char} (hc : c.isDigit = true) : (digitValue? 10 c).isSome = true := by
    rw [Markup.digitValue?_of_isDigit hc]
    rfl
  have hend : (digitValue? 10 '\n').isSome = false := rfl
  induction s with
  | nil => exact absurd rfl hne
  | cons c s ih =>
    obtain ⟨hc, hmore⟩ := List.forall_mem_cons.1 hs
    cases s with
    | nil =>
      rw [List.singleton_append, digits?, if_pos (hvalue hc), if_neg (by decide), hend]
      · rfl
      · simp
    | cons d s =>
      have hd := hmore d List.mem_cons_self
      have hunder := ne_of_isDigit hd (d := '_') rfl
      rw [List.cons_append, List.cons_append, digits?, if_pos (hvalue hc), if_neg hunder,
        if_pos (hvalue hd), ← List.cons_append, ih hmore (List.cons_ne_nil d s)]
      · rfl
      · exact fun _ _ heq _ => hunder heq

theorem ne_prefix_line {d : Char} (hd : d.isDigit = false) (hend : d ≠ '\n') (t : List Char) :
    s ++ '\n' :: rest ≠ '0' :: d :: t := by
  intro heq
  rcases s with _ | ⟨c, _ | ⟨e, s⟩⟩
  · exact absurd (List.cons.inj heq).1 (by decide)
  · exact hend (List.cons.inj (List.cons.inj heq).2).1.symm
  · exact ne_of_isDigit (hs e (by simp)) hd (List.cons.inj (List.cons.inj heq).2).1

theorem special?_line : special? (s ++ '\n' :: rest) = none := by
  rw [special?, sign?_line hs]
  cases s with
  | nil => rfl
  | cons c s =>
    have hc := hs c List.mem_cons_self
    split
    next heq => exact absurd (List.cons.inj heq).1 (ne_of_isDigit hc rfl)
    next heq => exact absurd (List.cons.inj heq).1 (ne_of_isDigit hc rfl)
    next => rfl

end Line

section Digits

theorem digits_head_ne (hn : 0 < n) : ∀ c ∈ (Nat.toDigits 10 n).head?, c ≠ '0' := by
  induction n using Markup.digits_induction (by decide : 1 < 10) with
  | single n hlt =>
    have hall : ∀ n < 10, 0 < n → n.digitChar ≠ '0' := by decide
    rw [Nat.toDigits_of_lt_base hlt]
    simpa using hall n hlt hn
  | more n hle ih =>
    have hfirst := ih (Nat.div_pos hle (by decide))
    rw [Nat.toDigits_of_base_le (by decide) hle]
    cases hmore : Nat.toDigits 10 (n / 10) with
    | nil => exact absurd hmore Nat.toDigits_ne_nil
    | cons c more =>
      rw [hmore] at hfirst
      exact hfirst

variable (rest n)

theorem decimal?_digits : decimal? (Nat.toDigits 10 n ++ '\n' :: rest) =
    some (Nat.toDigits 10 n, '\n' :: rest) := by
  rcases Nat.eq_zero_or_pos n with rfl | hn
  · rfl
  · have hhead := digits_head_ne hn
    have hread : digits? 10 (Nat.toDigits 10 n ++ '\n' :: rest) =
        some (Nat.toDigits 10 n, '\n' :: rest) :=
      digits?_line (fun c hc => Markup.isDigit_of_mem_digits hc) Nat.toDigits_ne_nil
    obtain ⟨c, more, hc⟩ := List.exists_cons_of_ne_nil (Nat.toDigits_ne_nil (n := n) (b := 10))
    rw [hc] at hhead hread ⊢
    unfold decimal?
    split
    next heq => exact absurd (List.cons.inj heq).1 (hhead c rfl)
    next => exact hread

theorem integer?_line (hfits : (n : Int) ≤ Int64.maxValue.toInt) :
    integer? (Nat.toDigits 10 n ++ '\n' :: rest) = some (.integer n, '\n' :: rest) := by
  have hdigits : ∀ c ∈ Nat.toDigits 10 n, c.isDigit = true := fun c hc =>
    Markup.isDigit_of_mem_digits hc
  have hrange : Int64.minValue.toInt ≤ n ∧ (n : Int) ≤ Int64.maxValue.toInt :=
    ⟨Int.le_trans (by decide) (Int.natCast_nonneg n), hfits⟩
  unfold integer?
  split
  next heq => exact absurd heq (ne_prefix_line hdigits rfl (by decide) _)
  next heq => exact absurd heq (ne_prefix_line hdigits rfl (by decide) _)
  next heq => exact absurd heq (ne_prefix_line hdigits rfl (by decide) _)
  next =>
    rw [sign?_line hdigits]
    dsimp only
    rw [decimal?_digits, Option.bind_eq_bind, Option.bind_some]
    dsimp only
    rw [Markup.number?_digits]
    exact if_pos hrange

theorem float?_line : float? (Nat.toDigits 10 n ++ '\n' :: rest) = none := by
  rw [float?, sign?_line fun c hc => Markup.isDigit_of_mem_digits hc]
  dsimp only
  rw [decimal?_digits]
  rfl

theorem number_line (hfits : (n : Int) ≤ Int64.maxValue.toInt) :
    number (Nat.toDigits 10 n ++ '\n' :: rest) = some (.integer n, '\n' :: rest) := by
  have hdigits : ∀ c ∈ Nat.toDigits 10 n, c.isDigit = true := fun c hc =>
    Markup.isDigit_of_mem_digits hc
  rw [number, dateTime?_line hdigits, special?_line hdigits, float?_line]
  exact integer?_line rest n hfits

end Digits

end UpdateProtocol.Toml
