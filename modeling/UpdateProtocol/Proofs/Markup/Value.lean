import UpdateProtocol.Markup.Scalar

namespace UpdateProtocol.Markup

open UpdateProtocol.Text

theorem unescapeFrom_escapeChar (c : Char) (done rest : List Char) :
    unescapeFrom done none (escapeChar c ++ rest) = unescapeFrom (c :: done) none rest := by
  unfold escapeChar
  split
  · rfl
  · rfl
  · rfl
  · rfl
  · simp_all [unescapeFrom]

theorem unescapeFrom_escape (s done : List Char) :
    unescapeFrom done none (escape s) = some (done.reverse ++ s) := by
  induction s generalizing done with
  | nil => simp [escape, unescapeFrom]
  | cons c s ih =>
    change unescapeFrom done none (escapeChar c ++ escape s) = _
    rw [unescapeFrom_escapeChar, ih]
    simp

theorem unescape?_escape (s : List Char) : unescape? (escape s) = some s :=
  unescapeFrom_escape s []

theorem quote_not_mem_escapeChar (c : Char) : '"' ∉ escapeChar c := by
  unfold escapeChar
  split
  · decide
  · decide
  · decide
  · decide
  · simp_all [eq_comm]

theorem quote_not_mem_escape (s : List Char) : '"' ∉ escape s := by
  simp only [escape, List.mem_flatMap, not_exists, not_and]
  intro c _
  exact quote_not_mem_escapeChar c

theorem escapeChar_of_plain {c : Char} (h : c ∉ ['<', '>', '&', '"']) : escapeChar c = [c] := by
  unfold escapeChar
  split <;> simp_all

theorem escape_of_plain {s : List Char} (h : ∀ c ∈ s, c ∉ ['<', '>', '&', '"']) :
    escape s = s := by
  induction s with
  | nil => rfl
  | cons c s ih =>
    have hc : escapeChar c = [c] := escapeChar_of_plain (h c (List.mem_cons_self ..))
    have hs : escape s = s := ih fun d hd => h d (List.mem_cons_of_mem _ hd)
    change escapeChar c ++ escape s = c :: s
    rw [hc, hs]
    rfl

theorem Scalar.text_escape (s : String) : Scalar.text.ofValue (escape s.toList) = .ok s := by
  simp [Scalar.text, readText, unescape?_escape]

theorem isDigit_iff_le {c : Char} : c.isDigit = true ↔ '0' ≤ c ∧ c ≤ '9' := by
  rw [Char.isDigit_iff_toNat]
  rfl

theorem digitValue?_of_isDigit {c : Char} (h : c.isDigit = true) :
    digitValue? 10 c = some (c.toNat - 48) := by
  have hle := isDigit_iff_le.1 h
  have hn := Char.isDigit_iff_toNat.1 h
  have h0 : '0'.toNat = 48 := rfl
  have h9 : '9'.toNat = 57 := rfl
  have hlt : c.toNat - 48 < 10 := by omega
  simp [digitValue?, hle, hlt]

theorem foldl_digits {s : List Char} (h : ∀ c ∈ s, c.isDigit = true) (n : Nat) :
    s.foldl (fun n? c => n?.bind fun n => (digitValue? 10 c).map (n * 10 + ·)) (some n) =
      some (Nat.ofDigitChars 10 s n) := by
  induction s generalizing n with
  | nil => rfl
  | cons c s ih =>
    have hc := digitValue?_of_isDigit (h c (List.mem_cons_self ..))
    rw [List.foldl_cons, Option.bind_some, hc, Option.map_some,
      ih fun d hd => h d (List.mem_cons_of_mem _ hd), Nat.ofDigitChars_cons, Nat.mul_comm]
    rfl

theorem digits_induction {base : Nat} (hbase : 1 < base) {motive : Nat → Prop}
    (single : ∀ n < base, motive n) (more : ∀ n, base ≤ n → motive (n / base) → motive n) (n : Nat) :
    motive n := by
  induction n using Nat.strongRecOn with
  | ind n ih =>
    by_cases h : n < base
    · exact single n h
    · have hle : base ≤ n := Nat.le_of_not_lt h
      exact more n hle (ih (n / base) (Nat.div_lt_self (by omega) hbase))

theorem isDigit_of_mem_digits {n : Nat} {c : Char} (h : c ∈ Nat.toDigits 10 n) :
    c.isDigit = true :=
  Nat.isDigit_of_mem_toDigits (by decide) (by decide) h

theorem number?_digits (n : Nat) : number? 10 (Nat.toDigits 10 n) = some n := by
  have hfold := foldl_digits (fun c hc => isDigit_of_mem_digits (n := n) hc) 0
  rw [Nat.ofDigitChars_ten_toDigits] at hfold
  unfold number?
  split
  · rename_i h
    exact absurd h Nat.toDigits_ne_nil
  · exact hfold

theorem digits_head {n : Nat} : ∃ c rest, Nat.toDigits 10 n = c :: rest ∧ c.isDigit = true := by
  cases h : Nat.toDigits 10 n with
  | nil => exact absurd h Nat.toDigits_ne_nil
  | cons c rest =>
    exact ⟨c, rest, rfl, isDigit_of_mem_digits (n := n) (by rw [h]; exact List.mem_cons_self ..)⟩

theorem integer?_digits (n : Nat) : integer? (Nat.toDigits 10 n) = some (n : Int) := by
  obtain ⟨c, rest, hn, hc⟩ := digits_head (n := n)
  have hnum := number?_digits n
  rw [hn] at hnum ⊢
  unfold integer?
  split
  · simp_all
  · simp_all
  · rw [hnum]
    rfl

theorem natural?_digits (n : Nat) : natural? (Nat.toDigits 10 n) = some n := by
  obtain ⟨c, rest, hn, hc⟩ := digits_head (n := n)
  have hnum := number?_digits n
  rw [hn] at hnum ⊢
  unfold natural?
  split
  · simp_all
  · exact hnum

theorem integer?_toString (n : Int) : integer? (toString n).toList = some n := by
  cases n with
  | ofNat n =>
    change integer? n.repr.toList = _
    rw [Nat.toList_repr, integer?_digits]
    rfl
  | negSucc n =>
    change integer? ("-" ++ (n + 1).repr).toList = _
    rw [String.toList_append, Nat.toList_repr]
    change (number? 10 (Nat.toDigits 10 (n + 1))).map (fun n => -(n : Int)) = _
    rw [number?_digits]
    rfl

theorem plain_of_isDigit {c : Char} (h : c.isDigit = true) : c ∉ ['<', '>', '&', '"'] := by
  intro hc
  simp only [List.mem_cons, List.not_mem_nil, or_false] at hc
  rcases hc with rfl | rfl | rfl | rfl <;> revert h <;> decide

theorem escape_toString_nat (n : Nat) : escape (toString n).toList = Nat.toDigits 10 n := by
  change escape n.repr.toList = _
  rw [Nat.toList_repr]
  exact escape_of_plain fun c hc => plain_of_isDigit (isDigit_of_mem_digits hc)

theorem escape_toString_int (n : Int) : escape (toString n).toList = (toString n).toList := by
  cases n with
  | ofNat n =>
    change escape n.repr.toList = n.repr.toList
    rw [Nat.toList_repr]
    exact escape_of_plain fun c hc => plain_of_isDigit (isDigit_of_mem_digits hc)
  | negSucc n =>
    change escape ("-" ++ (n + 1).repr).toList = ("-" ++ (n + 1).repr).toList
    rw [String.toList_append, Nat.toList_repr]
    have hminus : ∀ c ∈ "-".toList, c ∉ ['<', '>', '&', '"'] := by
      intro c hc
      obtain rfl : c = '-' := List.mem_singleton.1 hc
      decide
    refine escape_of_plain fun c hc => ?_
    rcases List.mem_append.1 hc with hc | hc
    · exact hminus c hc
    · exact plain_of_isDigit (isDigit_of_mem_digits hc)

theorem Scalar.int32_toString (n : Int32) :
    Scalar.int32.ofValue (escape (toString n.toInt).toList) = .ok n := by
  have hbounds : Int32.minValue.toInt ≤ n.toInt ∧ n.toInt ≤ Int32.maxValue.toInt :=
    ⟨n.minValue_le_toInt, n.toInt_le⟩
  rw [escape_toString_int]
  unfold Scalar.int32 readInt32
  dsimp only
  rw [integer?_toString]
  simp only [hbounds, and_self, if_true, Int32.ofInt_toInt]

theorem Scalar.uint64_toString (n : UInt64) :
    Scalar.uint64.ofValue (escape (toString n.toNat).toList) = .ok n := by
  have hbound : n.toNat < UInt64.size := n.toNat_lt
  rw [escape_toString_nat]
  unfold Scalar.uint64 readUInt64
  dsimp only
  rw [natural?_digits]
  simp only [hbound, if_true, UInt64.ofNat_toNat]

theorem Scalar.bool_word (b : Bool) :
    Scalar.bool.ofValue (escape (if b then "true" else "false").toList) = .ok b := by
  cases b <;> rfl

theorem Scalar.looseBool_one : Scalar.looseBool.ofValue (escape "1".toList) = .ok true := by
  rfl

end UpdateProtocol.Markup
