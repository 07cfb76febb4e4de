import Mathlib.Tactic.IntervalCases
import UpdateProtocol.Proofs.Markup.Value

namespace UpdateProtocol.Markup

open UpdateProtocol.Text

structure IsDigit (base : Nat) (c : Char) (d : Nat) : Prop where
  lt : d < base
  char : c = d.digitChar ∨ c = d.digitChar.toUpper

inductive Numeral (base : Nat) : List Char → Nat → Prop
  | digit {c : Char} {d : Nat} (h : IsDigit base c d) : Numeral base [c] d
  | more {s : List Char} {n : Nat} {c : Char} {d : Nat} (h : Numeral base s n)
      (hd : IsDigit base c d) : Numeral base (s ++ [c]) (n * base + d)

inductive Reference : List Char → Char → Prop
  | named {name : List Char} {c : Char} (h : (name, c) ∈ entityNames) : Reference name c
  | decimal {s : List Char} {c : Char} (h : Numeral 10 s c.toNat) (hc : c ≠ '\x00') :
      Reference ('#' :: s) c
  | hexadecimal {s : List Char} {c : Char} (h : Numeral 16 s c.toNat) (hc : c ≠ '\x00') :
      Reference ('#' :: 'x' :: s) c

inductive Spells : List Char → List Char → Prop
  | nil : Spells [] []
  | literal {c : Char} {raw s : List Char} (hc : c ≠ '&') (h : Spells raw s) :
      Spells (c :: raw) (c :: s)
  | reference {name raw s : List Char} {c : Char} (hc : Reference name c) (h : Spells raw s) :
      Spells ('&' :: name ++ ';' :: raw) (c :: s)

section Digits

variable {base : Nat} {c : Char} {d : Nat}

theorem IsDigit.digitValue? (h : IsDigit base c d) (hbase : base ≤ 16) :
    digitValue? base c = some d := by
  obtain ⟨hlt, hchar⟩ := h
  have hd : d < 16 := Nat.lt_of_lt_of_le hlt hbase
  interval_cases d <;> rcases hchar with rfl | rfl <;> exact if_pos hlt

theorem IsDigit.isAlphanum (h : IsDigit base c d) (hbase : base ≤ 16) : c.isAlphanum = true := by
  obtain ⟨hlt, hchar⟩ := h
  have hd : d < 16 := Nat.lt_of_lt_of_le hlt hbase
  interval_cases d <;> rcases hchar with rfl | rfl <;> decide

theorem IsDigit.ne_x (h : IsDigit 10 c d) : c ≠ 'x' := by
  obtain ⟨hlt, hchar⟩ := h
  interval_cases d <;> rcases hchar with rfl | rfl <;> decide

end Digits

namespace Numeral

variable {base n : Nat} {s : List Char}

theorem foldl_eq (h : Numeral base s n) (hbase : base ≤ 16) :
    s.foldl (fun n? c => n?.bind fun n => (digitValue? base c).map (n * base + ·)) (some 0) =
      some n := by
  induction h with
  | digit hd =>
    rw [List.foldl_cons, Option.bind_some, hd.digitValue? hbase, List.foldl_nil, Option.map_some,
      Nat.zero_mul, Nat.zero_add]
  | more _ hd ih =>
    rw [List.foldl_append, ih, List.foldl_cons, Option.bind_some, hd.digitValue? hbase,
      List.foldl_nil, Option.map_some]

theorem cons (h : Numeral base s n) : ∃ c d rest, s = c :: rest ∧ IsDigit base c d := by
  induction h with
  | @digit c d hd => exact ⟨c, d, [], rfl, hd⟩
  | @more s n c d _ _ ih =>
    obtain ⟨first, value, rest, rfl, hfirst⟩ := ih
    exact ⟨first, value, rest ++ [c], rfl, hfirst⟩

theorem number? (h : Numeral base s n) (hbase : base ≤ 16) : number? base s = some n := by
  obtain ⟨c, d, rest, rfl, -⟩ := h.cons
  exact h.foldl_eq hbase

theorem isAlphanum (h : Numeral base s n) (hbase : base ≤ 16) : ∀ c ∈ s, c.isAlphanum = true := by
  induction h with
  | digit hd =>
    intro c hc
    rw [List.mem_singleton.1 hc]
    exact hd.isAlphanum hbase
  | more _ hd ih =>
    intro c hc
    rcases List.mem_append.1 hc with hc | hc
    · exact ih c hc
    · rw [List.mem_singleton.1 hc]
      exact hd.isAlphanum hbase

end Numeral

theorem scalar?_toNat {c : Char} (hc : c ≠ '\x00') : scalar? c.toNat = some c := by
  have hne : c.toNat ≠ 0 := fun h => hc (Char.toNat_inj.1 h)
  rw [scalar?, if_pos ⟨hne, c.valid⟩, Char.ofNat_toNat]

namespace Reference

variable {name : List Char} {c : Char}

theorem entity? (h : Reference name c) : entity? name = some c := by
  cases h with
  | named h =>
    simp only [entityNames, List.mem_cons, Prod.mk.injEq, List.not_mem_nil, or_false] at h
    rcases h with ⟨rfl, rfl⟩ | ⟨rfl, rfl⟩ | ⟨rfl, rfl⟩ | ⟨rfl, rfl⟩ | ⟨rfl, rfl⟩ <;> rfl
  | @decimal s _ h hc =>
    obtain ⟨first, value, rest, rfl, hfirst⟩ := h.cons
    have hread : Markup.entity? ('#' :: first :: rest) =
        (Text.number? 10 (first :: rest)).bind scalar? := by
      unfold Markup.entity?
      split
      · rename_i he
        cases he
        exact absurd rfl hfirst.ne_x
      · rename_i he
        cases he
        rfl
      · rename_i _ hne
        exact absurd rfl (hne (first :: rest))
    rw [hread, h.number? (by decide), Option.bind_some, scalar?_toNat hc]
  | @hexadecimal s _ h hc =>
    change (Text.number? 16 s).bind scalar? = _
    rw [h.number? (by decide), Option.bind_some, scalar?_toNat hc]

theorem plain (h : Reference name c) : ∀ d ∈ name, d ≠ ';' ∧ d ≠ '&' := by
  have hdigits {base n : Nat} {s : List Char} (h : Numeral base s n) (hbase : base ≤ 16) :
      ∀ d ∈ s, d ≠ ';' ∧ d ≠ '&' := by
    intro d hd
    have halnum := h.isAlphanum hbase d hd
    constructor
    · rintro rfl
      revert halnum
      decide
    · rintro rfl
      revert halnum
      decide
  have hnames : entityNames.all (fun e => e.1.all fun d => d ≠ ';' && d ≠ '&') = true := by decide
  cases h with
  | named h =>
    intro d hd
    have hplain := List.all_eq_true.1 (List.all_eq_true.1 hnames _ h) d hd
    simpa using hplain
  | decimal h _ => exact List.forall_mem_cons.2 ⟨by decide, hdigits h (by decide)⟩
  | hexadecimal h _ =>
    exact List.forall_mem_cons.2 ⟨by decide, List.forall_mem_cons.2
      ⟨by decide, hdigits h (by decide)⟩⟩

end Reference

theorem unescapeFrom_name {name : List Char} (h : ∀ d ∈ name, d ≠ ';' ∧ d ≠ '&')
    (done read rest : List Char) :
    unescapeFrom done (some read) (name ++ rest) =
      unescapeFrom done (some (name.reverse ++ read)) rest := by
  induction name generalizing read with
  | nil => rfl
  | cons d name ih =>
    obtain ⟨hd, hname⟩ := List.forall_mem_cons.1 h
    rw [List.cons_append, unescapeFrom, if_neg hd.1, if_neg hd.2, ih hname]
    simp

namespace Spells

variable {raw s : List Char}

theorem self (h : '&' ∉ s) : Spells s s := by
  induction s with
  | nil => exact .nil
  | cons c s ih =>
    rw [List.mem_cons, not_or] at h
    exact .literal (Ne.symm h.1) (ih h.2)

theorem unescapeFrom (h : Spells raw s) (done : List Char) :
    unescapeFrom done none raw = some (done.reverse ++ s) := by
  induction h generalizing done with
  | nil => rw [Markup.unescapeFrom, List.append_nil]
  | literal hc _ ih =>
    rw [Markup.unescapeFrom, if_neg hc, ih]
    simp
  | @reference name raw s c hc _ ih =>
    rw [List.cons_append, Markup.unescapeFrom, if_pos rfl, unescapeFrom_name hc.plain,
      Markup.unescapeFrom, if_pos rfl, List.append_nil, List.reverse_reverse, hc.entity?]
    simp [ih]

theorem unescape? (h : Spells raw s) : unescape? raw = some s := h.unescapeFrom []

theorem readText {v : String} (h : Spells raw v.toList) : readText raw = .ok v := by
  simp only [Markup.readText, h.unescape?, String.ofList_toList]

end Spells

theorem isSome_unescapeFrom (done done' : List Char) (name? : Option (List Char)) (s : List Char) :
    (unescapeFrom done name? s).isSome = (unescapeFrom done' name? s).isSome := by
  induction s generalizing done done' name? with
  | nil => cases name? <;> rfl
  | cons c s ih =>
    cases name? with
    | none =>
      rw [unescapeFrom, unescapeFrom]
      split
      · exact ih ..
      · exact ih ..
    | some name =>
      rw [unescapeFrom, unescapeFrom]
      split
      · split
        · exact ih ..
        · rfl
      · split
        · rfl
        · exact ih ..

theorem isSome_unescapeFrom_of_append {s t : List Char} (ht : ∀ c ∈ t, c ≠ ';' ∧ c ≠ '&')
    {done : List Char} {name? : Option (List Char)}
    (h : (unescapeFrom done name? (s ++ t)).isSome = true) :
    (unescapeFrom done name? s).isSome = true := by
  induction s generalizing done name? with
  | nil =>
    cases name? with
    | none => rfl
    | some name =>
      rw [List.nil_append, ← List.append_nil t, unescapeFrom_name ht] at h
      exact h
  | cons c s ih =>
    rw [List.cons_append] at h
    cases name? with
    | none =>
      rw [unescapeFrom] at h ⊢
      split at h
      · rename_i hc
        rw [if_pos hc]
        exact ih h
      · rename_i hc
        rw [if_neg hc]
        exact ih h
    | some name =>
      rw [unescapeFrom] at h ⊢
      split at h
      · rename_i hc
        rw [if_pos hc]
        split at h
        · exact ih h
        · cases h
      · rename_i hc
        rw [if_neg hc]
        split at h
        · cases h
        · rename_i hamp
          rw [if_neg hamp]
          exact ih h

theorem isSpace_ne {c : Char} (h : isSpace c = true) : c ≠ ';' ∧ c ≠ '&' := by
  constructor
  · rintro rfl
    revert h
    decide
  · rintro rfl
    revert h
    decide

theorem isSome_unescape?_dropWhile {s : List Char} (h : (unescape? s).isSome = true) :
    (unescape? (s.dropWhile isSpace)).isSome = true := by
  induction s with
  | nil => exact h
  | cons c s ih =>
    cases hc : isSpace c with
    | false => simpa [hc] using h
    | true =>
      rw [List.dropWhile_cons_of_pos hc]
      refine ih ?_
      rw [unescape?, unescapeFrom, if_neg (isSpace_ne hc).2] at h
      rwa [unescape?, isSome_unescapeFrom [] [c]]

theorem isSome_unescape?_trimEnd {s : List Char} (h : (unescape? s).isSome = true) :
    (unescape? (trimEnd isSpace s)).isSome = true := by
  have hparts : trimEnd isSpace s ++ (s.reverse.takeWhile isSpace).reverse = s := by
    rw [trimEnd, ← List.reverse_append, List.takeWhile_append_dropWhile, List.reverse_reverse]
  have hblank : ∀ c ∈ (s.reverse.takeWhile isSpace).reverse, c ≠ ';' ∧ c ≠ '&' := by
    intro c hc
    exact isSpace_ne (List.all_eq_true.1 List.all_takeWhile c (List.mem_reverse.1 hc))
  rw [← hparts] at h
  exact isSome_unescapeFrom_of_append hblank h

end UpdateProtocol.Markup
