import Mathlib.Data.List.TakeWhile
import Mathlib.Tactic.FinCases
import UpdateProtocol.Text.Percent
import UpdateProtocol.Toml.Written

namespace UpdateProtocol.Toml

open UpdateProtocol.Text

variable {quote : Char} {many : Bool} {body s rest : List Char} {c : Char}

structure IsKept (quote : Char) (many : Bool) (c : Char) : Prop where
  other : c ≠ quote
  noEscape : quote = '"' → c ≠ '\\'
  shown : isControl c = true → many = true ∧ c = '\n'

inductive Spells (quote : Char) (many : Bool) : List Char → List Char → Prop
  | nil : Spells quote many [] []
  | kept {c : Char} {body s : List Char} (kept : IsKept quote many c)
      (more : Spells quote many body s) : Spells quote many (c :: body) (c :: s)
  | mark {body s : List Char} (multi : many = true) (few : quotes quote (quote :: body) < 3)
      (more : Spells quote many body s) : Spells quote many (quote :: body) (quote :: s)
  | short {e c : Char} {body s : List Char} (double : quote = '"') (known : shortEscape? e = some c)
      (more : Spells quote many body s) : Spells quote many ('\\' :: e :: body) (c :: s)
  | number {c : Char} {body s : List Char} (double : quote = '"') (control : isControl c = true)
      (more : Spells quote many body s) : Spells quote many (numberEscape c ++ body) (c :: s)

section Steps

theorem textRest_plain (quote : Char) (many : Bool) (done : List Char) (c : Char)
    (rest : List Char) : textRest quote many .plain done (c :: rest) =
      if c = quote then
        if many then
          if 3 ≤ min 5 (quotes quote (c :: rest)) then
            some (String.ofList
              (List.replicate (min 5 (quotes quote (c :: rest)) - 3) quote ++ done).reverse,
              (c :: rest).drop (min 5 (quotes quote (c :: rest))))
          else textRest quote many .plain (c :: done) rest
        else some (String.ofList done.reverse, rest)
      else if c = '\\' ∧ quote = '"' then textRest quote many .escape done rest
      else if isControl c ∧ ¬(many ∧ c = '\n') then none
      else textRest quote many .plain (c :: done) rest := by
  rw [textRest] <;> simp

theorem textRest_kept (h : IsKept quote many c) (done rest : List Char) :
    textRest quote many .plain done (c :: rest) = textRest quote many .plain (c :: done) rest := by
  rw [textRest_plain, if_neg h.other, if_neg fun hescape => h.noEscape hescape.2 hescape.1,
    if_neg fun hcontrol => hcontrol.2 (h.shown hcontrol.1)]

theorem textRest_mark (h : quotes quote (quote :: rest) < 3) (done : List Char) :
    textRest quote true .plain done (quote :: rest) =
      textRest quote true .plain (quote :: done) rest := by
  have hfew : ¬3 ≤ min 5 (quotes quote (quote :: rest)) := by omega
  rw [textRest_plain, if_pos rfl, if_pos rfl, if_neg hfew]

theorem textRest_escape (many : Bool) (done rest : List Char) :
    textRest '"' many .plain done ('\\' :: rest) = textRest '"' many .escape done rest := by
  rw [textRest_plain, if_neg (by decide), if_pos ⟨rfl, rfl⟩]

theorem textRest_short {e : Char} (h : shortEscape? e = some c) (many : Bool)
    (done rest : List Char) : textRest '"' many .plain done ('\\' :: e :: rest) =
      textRest '"' many .plain (c :: done) rest := by
  have hother : e ∉ ['u', 'U', ' ', '\t', '\n'] := by
    intro hmem
    fin_cases hmem <;> cases h
  simp only [List.mem_cons, List.not_mem_nil, or_false, not_or] at hother
  obtain ⟨hu, hU, hspace, htab, hline⟩ := hother
  rw [textRest_escape, textRest, if_neg hu, if_neg hU, if_neg (by simp [isGap, hspace, htab]),
    if_neg (by simp [hline]), h]

theorem textRest_digit {e : Char} {left code d : Nat} (h : digitValue? 16 e = some d)
    (hleft : 1 < left) (done rest : List Char) :
    textRest quote many (.number left code) done (e :: rest) =
      textRest quote many (.number (left - 1) (code * 16 + d)) done rest := by
  rw [textRest, h]
  exact if_pos hleft

theorem textRest_lastDigit {e : Char} {code d : Nat} (h : digitValue? 16 e = some d)
    (hvalid : (code * 16 + d).isValidChar) (done rest : List Char) :
    textRest quote many (.number 1 code) done (e :: rest) =
      textRest quote many .plain (Char.ofNat (code * 16 + d) :: done) rest := by
  rw [textRest, h]
  exact (if_neg (by decide)).trans (if_pos hvalid)

theorem numberEscape_eq (c : Char) : numberEscape c =
    ['\\', 'u', upperHex (c.toNat / 4096 % 16), upperHex (c.toNat / 256 % 16),
      upperHex (c.toNat / 16 % 16), upperHex (c.toNat % 16)] := by
  have hone : c.toNat / Nat.pow 16 0 % 16 = c.toNat % 16 := congrArg (· % 16) (Nat.div_one _)
  rw [numberEscape]
  dsimp only
  rw [hone]
  rfl

theorem toNat_lt_of_isControl (h : isControl c = true) : c.toNat < 128 := by
  simp only [isControl, Bool.or_eq_true, Bool.and_eq_true, decide_eq_true_iff] at h
  omega

theorem textRest_number (hc : isControl c = true) (many : Bool) (done rest : List Char) :
    textRest '"' many .plain done (numberEscape c ++ rest) =
      textRest '"' many .plain (c :: done) rest := by
  have hlt := toNat_lt_of_isControl hc
  have hdigit (n : Nat) : digitValue? 16 (upperHex (n % 16)) = some (n % 16) := by
    have hall : ∀ d < 16, digitValue? 16 (upperHex d) = some d := by decide
    exact hall _ (Nat.mod_lt n (by decide))
  have hcode : (((0 * 16 + c.toNat / 4096 % 16) * 16 + c.toNat / 256 % 16) * 16 +
      c.toNat / 16 % 16) * 16 + c.toNat % 16 = c.toNat := by omega
  rw [numberEscape_eq]
  simp only [List.cons_append, List.nil_append]
  rw [textRest_escape, textRest, if_pos rfl, textRest_digit (hdigit _) (by decide),
    textRest_digit (hdigit _) (by decide), textRest_digit (hdigit _) (by decide),
    textRest_lastDigit (hdigit _), hcode, Char.ofNat_toNat]
  rw [hcode]
  exact c.valid

end Steps

section Marks

theorem textRest_close (done rest : List Char) :
    textRest quote false .plain done (quote :: rest) = some (String.ofList done.reverse, rest) := by
  rw [textRest_plain, if_pos rfl, if_neg (by decide)]

theorem quotes_replicate (n : Nat) {rest : List Char} (hrest : ∀ c ∈ rest.head?, c ≠ quote) :
    quotes quote (List.replicate n quote ++ rest) = n := by
  rw [quotes, List.takeWhile_append_of_pos (by simp)]
  cases rest with
  | nil => simp
  | cons c rest => simp [hrest c rfl]

theorem quotes_cons (quote : Char) (s : List Char) :
    quotes quote (quote :: s) = quotes quote s + 1 := by
  rw [quotes, List.takeWhile_cons_of_pos (by simp)]
  rfl

theorem textRest_closeLines {n : Nat} (hn : n < 3) (hrest : ∀ c ∈ rest.head?, c ≠ quote)
    (done : List Char) :
    textRest quote true .plain done (List.replicate n quote ++ quote :: quote :: quote :: rest) =
      some (String.ofList (done.reverse ++ List.replicate n quote), rest) := by
  have hall : List.replicate n quote ++ quote :: quote :: quote :: rest =
      List.replicate (n + 3) quote ++ rest := by
    rw [List.replicate_add, List.append_assoc]
    rfl
  have hrun : min 5 (quotes quote (List.replicate (n + 3) quote ++ rest)) = n + 3 := by
    rw [quotes_replicate _ hrest]
    omega
  have hcons : List.replicate (n + 3) quote ++ rest =
      quote :: (List.replicate (n + 2) quote ++ rest) := rfl
  rw [hall, hcons, textRest_plain, ← hcons, hrun, if_pos rfl, if_pos rfl, if_pos (by omega),
    Nat.add_sub_cancel, List.reverse_append, List.reverse_replicate,
    List.drop_left' (List.length_replicate ..)]

theorem Spells.eq_body (h : Spells quote many body s) (hall : ∀ c ∈ body, c = quote) :
    s = body := by
  induction h with
  | nil => rfl
  | kept kept more ih => exact absurd (hall _ List.mem_cons_self) kept.other
  | mark _ _ more ih => rw [ih fun c hc => hall c (List.mem_cons_of_mem _ hc)]
  | short double =>
    subst double
    exact absurd (hall '\\' List.mem_cons_self) (by decide)
  | number double =>
    subst double
    exact absurd (hall '\\' (List.mem_append_left _ List.mem_cons_self)) (by decide)

theorem quotes_append (h : ∃ c ∈ body, c ≠ quote) (rest : List Char) :
    quotes quote (quote :: (body ++ rest)) = quotes quote (quote :: body) := by
  obtain ⟨c, hc, hne⟩ := h
  rw [← List.cons_append, quotes, quotes, List.takeWhile_append, if_neg]
  intro hlength
  have hall := List.takeWhile_eq_self_iff.1 ((List.takeWhile_prefix _).eq_of_length hlength)
  exact hne (by simpa using hall c (List.mem_cons_of_mem _ hc))

end Marks

theorem Spells.read_line (h : Spells quote false body s) (done rest : List Char) :
    textRest quote false .plain done (body ++ quote :: rest) =
      some (String.ofList (done.reverse ++ s), rest) := by
  induction h generalizing done with
  | nil => rw [List.append_nil, List.nil_append, textRest_close]
  | kept kept more ih => rw [List.cons_append, textRest_kept kept, ih]; simp
  | mark multi => cases multi
  | short double known more ih =>
    subst double
    rw [List.cons_append, List.cons_append, textRest_short known, ih]
    simp
  | number double control more ih =>
    subst double
    rw [List.append_assoc, textRest_number control, ih]
    simp

theorem Spells.read_lines (h : Spells quote true body s) (hrest : ∀ c ∈ rest.head?, c ≠ quote)
    (done : List Char) :
    textRest quote true .plain done (body ++ quote :: quote :: quote :: rest) =
      some (String.ofList (done.reverse ++ s), rest) := by
  induction h generalizing done with
  | nil => exact textRest_closeLines (by decide : 0 < 3) hrest done
  | kept kept more ih => rw [List.cons_append, textRest_kept kept, ih]; simp
  | @mark body s multi few more ih =>
    -- marks at the very end run into the closing ones, so they are read together
    by_cases hmore : ∃ c ∈ body, c ≠ quote
    · rw [← quotes_append hmore (quote :: quote :: quote :: rest)] at few
      rw [List.cons_append, textRest_mark few, ih]
      simp
    · have hall : ∀ c ∈ body, c = quote := by simpa using hmore
      obtain ⟨n, rfl⟩ : ∃ n, body = List.replicate n quote :=
        ⟨_, List.eq_replicate_iff.2 ⟨rfl, hall⟩⟩
      have hcount : quotes quote (List.replicate (n + 1) quote ++ []) = n + 1 :=
        quotes_replicate (n + 1) (by simp)
      rw [List.append_nil, List.replicate_succ] at hcount
      rw [hcount] at few
      rw [more.eq_body hall, ← List.replicate_succ, textRest_closeLines few hrest]
  | short double known more ih =>
    subst double
    rw [List.cons_append, List.cons_append, textRest_short known, ih]
    simp
  | number double control more ih =>
    subst double
    rw [List.append_assoc, textRest_number control, ih]
    simp

section Writing

theorem spells_of_kept (h : ∀ c ∈ s, IsKept quote many c) : Spells quote many s s := by
  induction s with
  | nil => exact .nil
  | cons c s ih =>
    obtain ⟨hc, hs⟩ := List.forall_mem_cons.1 h
    exact .kept hc (ih hs)

theorem quotes_lt_of_hasRun {n : Nat} (h : hasRun quote n (c :: s) = false) :
    quotes quote (c :: s) < n ∧ hasRun quote n s = false := by
  rw [hasRun, Bool.or_eq_false_iff] at h
  refine ⟨Nat.lt_of_not_le fun hle => ?_, h.2⟩
  have hall : (c :: s).takeWhile (· = quote) = List.replicate (quotes quote (c :: s)) quote :=
    List.eq_replicate_iff.2 ⟨rfl, fun d hd => by simpa using List.mem_takeWhile_imp hd⟩
  have hprefix : List.replicate n quote <+: c :: s :=
    (List.prefix_iff_eq_take.2 (by simp [hle]) : List.replicate n quote <+:
      List.replicate (quotes quote (c :: s)) quote).trans (hall ▸ List.takeWhile_prefix _)
  exact Bool.false_ne_true (h.1.symm.trans (List.isPrefixOf_iff_prefix.2 hprefix))

theorem spells_of_hasRun (h : ∀ c ∈ s, c ≠ quote → IsKept quote true c)
    (hrun : hasRun quote 3 s = false) : Spells quote true s s := by
  induction s with
  | nil => exact .nil
  | cons c s ih =>
    obtain ⟨hc, hs⟩ := List.forall_mem_cons.1 h
    obtain ⟨hfew, hmore⟩ := quotes_lt_of_hasRun hrun
    by_cases hquote : c = quote
    · subst hquote
      exact .mark rfl hfew (ih hs hmore)
    · exact .kept (hc hquote) (ih hs hmore)

theorem spells_escapeChar (hc : c ≠ '"') (more : Spells '"' many body s) :
    Spells '"' many (escapeChar many c ++ body) (c :: s) := by
  unfold escapeChar
  split
  · exact .short rfl rfl more
  · exact .short rfl rfl more
  · split
    · exact .kept ⟨hc, by decide, fun _ => ⟨‹_›, rfl⟩⟩ more
    · exact .short rfl rfl more
  · exact .short rfl rfl more
  · exact .short rfl rfl more
  · exact .short rfl rfl more
  next hback =>
    split
    next hcontrol => exact .number rfl hcontrol more
    next hshown => exact .kept ⟨hc, fun _ => hback, fun hcontrol => absurd hcontrol hshown⟩ more

theorem Spells.head_ne (h : Spells quote many body s)
    (hs : many = true → ∀ c ∈ s.head?, c ≠ quote) : ∀ c ∈ body.head?, c ≠ quote := by
  cases h with
  | nil => simp
  | kept kept => simpa using kept.other
  | mark multi => exact absurd rfl (hs multi quote rfl)
  | short double =>
    subst double
    simp
  | number double =>
    subst double
    simp [numberEscape_eq]

theorem quotes_eq_zero (h : ∀ c ∈ s.head?, c ≠ quote) : quotes quote s = 0 := by
  simpa using quotes_replicate 0 h

theorem escaped_cons (many : Bool) (run : Nat) (hc : c ≠ '"') (s : List Char) :
    escaped many run (c :: s) = escapeChar many c ++ escaped many 0 s := by
  rw [escaped]
  exact fun h => hc h

theorem escaped_quote (many : Bool) (run : Nat) (s : List Char) : escaped many run ('"' :: s) =
    if many = true ∧ run < 2 then '"' :: escaped many (run + 1) s
    else '\\' :: '"' :: escaped many 0 s := by
  rw [escaped]
  simp

theorem head_escapeChar (many : Bool) (hc : c ≠ '"') (rest : List Char) :
    ∀ d ∈ (escapeChar many c ++ rest).head?, d ≠ '"' := by
  obtain ⟨d, more, hmore, hd⟩ : ∃ d more, escapeChar many c = d :: more ∧ d ≠ '"' := by
    unfold escapeChar
    split
    · exact ⟨_, _, rfl, by decide⟩
    · exact ⟨_, _, rfl, by decide⟩
    · split <;> exact ⟨_, _, rfl, by decide⟩
    · exact ⟨_, _, rfl, by decide⟩
    · exact ⟨_, _, rfl, by decide⟩
    · exact ⟨_, _, rfl, by decide⟩
    · split
      · exact ⟨_, _, numberEscape_eq c, by decide⟩
      · exact ⟨_, _, rfl, hc⟩
  rw [hmore]
  simpa using hd

theorem quotes_escaped (many : Bool) {run : Nat} (hrun : run ≤ 2) (s : List Char) :
    quotes '"' (escaped many run s) + run ≤ 2 := by
  have hnone {body : List Char} {run : Nat} (hrun : run ≤ 2) (h : ∀ c ∈ body.head?, c ≠ '"') :
      quotes '"' body + run ≤ 2 := by
    rwa [quotes_eq_zero h, Nat.zero_add]
  induction s generalizing run with
  | nil => exact hnone hrun (by simp [escaped])
  | cons c s ih =>
    by_cases hc : c = '"'
    · subst hc
      rw [escaped_quote]
      split
      next hkept =>
        have hmore := ih (show run + 1 ≤ 2 by omega)
        rw [quotes_cons]
        omega
      next => exact hnone hrun (by simp)
    · rw [escaped_cons many run hc]
      exact hnone hrun (head_escapeChar many hc _)

theorem spells_escaped (many : Bool) (run : Nat) (s : List Char) :
    Spells '"' many (escaped many run s) s := by
  induction s generalizing run with
  | nil => exact .nil
  | cons c s ih =>
    by_cases hc : c = '"'
    · subst hc
      rw [escaped_quote]
      split
      next hkept =>
        have hfew := quotes_escaped many (show run + 1 ≤ 2 by omega) s
        refine .mark hkept.1 ?_ (ih _)
        rw [quotes_cons]
        omega
      next => exact .short rfl rfl (ih 0)
    · rw [escaped_cons many run hc]
      exact spells_escapeChar hc (ih 0)

end Writing

section Whole

theorem Spells.not_mem_return (h : Spells quote many body s) (hquote : quote ≠ '\x0d') :
    '\x0d' ∉ body := by
  induction h with
  | nil => exact List.not_mem_nil
  | kept kept _ ih =>
    rw [List.mem_cons, not_or]
    refine ⟨?_, ih⟩
    rintro rfl
    exact absurd (kept.shown rfl).2 (by decide)
  | mark _ _ _ ih =>
    rw [List.mem_cons, not_or]
    exact ⟨hquote.symm, ih⟩
  | short _ known _ ih =>
    rw [List.mem_cons, List.mem_cons, not_or, not_or]
    refine ⟨by decide, ?_, ih⟩
    rintro rfl
    cases known
  | @number c _ _ _ _ _ ih =>
    have hdigit (n : Nat) : '\x0d' ≠ upperHex (n % 16) := by
      have hall : ∀ d < 16, '\x0d' ≠ upperHex d := by decide
      exact hall _ (Nat.mod_lt n (by decide))
    rw [List.mem_append, not_or, numberEscape_eq]
    refine ⟨?_, ih⟩
    simp [hdigit]

theorem text?_line (hquote : quote = '"' ∨ quote = '\'') (h : Spells quote false body s)
    (hrest : ∀ c ∈ rest.head?, c ≠ quote) :
    text? (between [quote] body ++ rest) = some (String.ofList s, rest) := by
  have hshape : between [quote] body ++ rest = quote :: (body ++ quote :: rest) := by
    simp [between]
  have hopen (tail : List Char) : body ++ quote :: rest ≠ quote :: quote :: tail := by
    cases body with
    | nil =>
      rintro heq
      exact hrest quote (by rw [(List.cons.inj heq).2]; rfl) rfl
    | cons c body =>
      rintro heq
      exact h.head_ne (by simp) c rfl (List.cons.inj heq).1
  have hread := h.read_line [] rest
  rw [hshape, text?.eq_def]
  split
  next heq =>
    obtain ⟨rfl, htail⟩ := List.cons.inj heq
    exact absurd htail (hopen _)
  next heq =>
    obtain ⟨rfl, htail⟩ := List.cons.inj heq
    exact absurd htail (hopen _)
  next =>
    rcases hquote with rfl | rfl <;> exact hread

theorem text?_lines (hquote : quote = '"' ∨ quote = '\'') (h : Spells quote true body s)
    (hrest : ∀ c ∈ rest.head?, c ≠ quote) :
    text? (betweenLines quote body ++ rest) = some (String.ofList s, rest) := by
  have hshape : betweenLines quote body ++ rest = quote :: quote :: quote ::
      ((if '\n' ∈ body then '\n' :: body else body) ++ quote :: quote :: quote :: rest) := by
    simp [betweenLines, between]
  have hline : quote ≠ '\n' := by rcases hquote with rfl | rfl <;> decide
  have hfirst : firstLine ((if '\n' ∈ body then '\n' :: body else body) ++
      quote :: quote :: quote :: rest) = body ++ quote :: quote :: quote :: rest := by
    split
    · rfl
    next hnone =>
      unfold firstLine
      split
      next tail heq =>
        cases body with
        | nil => exact absurd (List.cons.inj heq).1 hline
        | cons c body =>
          rw [(List.cons.inj heq).1] at hnone
          exact absurd List.mem_cons_self hnone
      next => rfl
  have hread := h.read_lines hrest []
  rw [← hfirst] at hread
  rw [hshape]
  rcases hquote with rfl | rfl <;> exact hread

theorem isKept_of_isControl (hcontrol : s.any isControl = false) (hmark : quote ∉ s)
    (hback : quote = '"' → '\\' ∉ s) : ∀ c ∈ s, IsKept quote many c := by
  refine fun c hc => ⟨?_, fun hquote => ?_, fun hyes => ?_⟩
  · rintro rfl
    exact hmark hc
  · rintro rfl
    exact hback hquote hc
  · exact absurd hyes (List.any_eq_false.1 hcontrol c hc)

theorem isKept_of_isHidden (hhidden : s.any isHidden = false) (hback : quote = '"' → '\\' ∉ s) :
    ∀ c ∈ s, c ≠ quote → IsKept quote true c := by
  refine fun c hc hother => ⟨hother, fun hquote => ?_, fun hyes => ⟨rfl, ?_⟩⟩
  · rintro rfl
    exact hback hquote hc
  · simpa [isHidden, hyes] using List.any_eq_false.1 hhidden c hc

theorem writeText_eq (text : String) : ∃ quote body, (quote = '"' ∨ quote = '\'') ∧
    (writeText text = between [quote] body ∧ Spells quote false body text.toList ∨
      writeText text = betweenLines quote body ∧ Spells quote true body text.toList) := by
  rw [writeText]
  generalize text.toList = s
  simp only [Bool.and_eq_true, Bool.not_eq_true', decide_eq_true_eq]
  split
  next h =>
    obtain ⟨⟨hcontrol, hmark⟩, hback⟩ := h
    exact ⟨'"', s, .inl rfl, .inl ⟨rfl,
      spells_of_kept (isKept_of_isControl hcontrol hmark fun _ => hback)⟩⟩
  split
  next h =>
    obtain ⟨hcontrol, hmark⟩ := h
    exact ⟨'\'', s, .inr rfl, .inl ⟨rfl,
      spells_of_kept (isKept_of_isControl hcontrol hmark (by simp))⟩⟩
  split
  next h =>
    obtain ⟨⟨hhidden, hback⟩, hrun⟩ := h
    exact ⟨'"', s, .inl rfl, .inr ⟨rfl,
      spells_of_hasRun (isKept_of_isHidden hhidden fun _ => hback) hrun⟩⟩
  split
  next h =>
    obtain ⟨hhidden, hrun⟩ := h
    exact ⟨'\'', s, .inr rfl, .inr ⟨rfl,
      spells_of_hasRun (isKept_of_isHidden hhidden (by simp)) hrun⟩⟩
  split
  · exact ⟨'"', _, .inl rfl, .inr ⟨rfl, spells_escaped true 0 s⟩⟩
  · exact ⟨'"', _, .inl rfl, .inl ⟨rfl, spells_escaped false 0 s⟩⟩

theorem text?_writeText (text : String) (hrest : ∀ c ∈ rest.head?, c = '\n') :
    text? (writeText text ++ rest) = some (text, rest) := by
  obtain ⟨quote, body, hquote, h⟩ := writeText_eq text
  have hend : ∀ c ∈ rest.head?, c ≠ quote := by
    rintro c hc rfl
    rw [hrest c hc] at hquote
    revert hquote
    decide
  rcases h with ⟨heq, hspells⟩ | ⟨heq, hspells⟩
  · rw [heq, text?_line hquote hspells hend, String.ofList_toList]
  · rw [heq, text?_lines hquote hspells hend, String.ofList_toList]

example : text? (writeText "\"\"\"\"'''\n\\\x00" ++ ['\n']) =
    some ("\"\"\"\"'''\n\\\x00", ['\n']) := by
  decide +kernel

theorem head_writeText (text : String) : ∃ quote tail, (quote = '"' ∨ quote = '\'') ∧
    writeText text = quote :: tail := by
  obtain ⟨quote, body, hquote, ⟨heq, -⟩ | ⟨heq, -⟩⟩ := writeText_eq text
  · exact ⟨quote, _, hquote, heq⟩
  · exact ⟨quote, _, hquote, heq⟩

theorem not_mem_writeText (text : String) : '\x0d' ∉ writeText text := by
  obtain ⟨quote, body, hquote, h⟩ := writeText_eq text
  have hother : '\x0d' ≠ quote := by rcases hquote with rfl | rfl <;> decide
  rcases h with ⟨heq, hspells⟩ | ⟨heq, hspells⟩
  · have hbody := hspells.not_mem_return hother.symm
    simp [heq, between, hbody, hother]
  · have hbody := hspells.not_mem_return hother.symm
    rw [heq, betweenLines]
    split <;> simp [between, hbody, hother]

end Whole

end UpdateProtocol.Toml
