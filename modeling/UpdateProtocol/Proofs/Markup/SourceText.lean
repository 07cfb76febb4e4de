import UpdateProtocol.Proofs.Markup.Cut
import UpdateProtocol.Proofs.Markup.SourceTag

namespace UpdateProtocol.Markup

open UpdateProtocol.Text

namespace Scanner

variable {run : List Piece} {opened : List (List Char)} {found : List Token}

theorem foldl_until {σ : Type} {step : σ → Char → σ} (state : List Char → σ)
    {closer s : List Char}
    (hstep : ∀ read c, ¬ closer <:+ (c :: read).reverse → step (state read) c = state (c :: read))
    (read : List Char) (h : ¬ closer <:+: read.reverse ++ s) :
    s.foldl step (state read) = state (s.reverse ++ read) := by
  induction s generalizing read with
  | nil => rfl
  | cons c s ih =>
    have hsplit : read.reverse ++ c :: s = (c :: read).reverse ++ s := by simp
    rw [hsplit] at h
    have hopen : ¬ closer <:+ (c :: read).reverse := fun hc =>
      h (hc.isInfix.trans (List.prefix_append ..).isInfix)
    rw [List.foldl_cons, hstep read c hopen, ih _ h, List.reverse_cons, List.append_assoc]
    rfl

theorem two_le_takeWhile {p : Char → Bool} {s : List Char} (h : 2 ≤ (s.takeWhile p).length) :
    ∃ c d rest, s = c :: d :: rest ∧ p c = true ∧ p d = true := by
  cases s with
  | nil => simp at h
  | cons c s =>
    cases hc : p c with
    | false => simp [hc] at h
    | true =>
      cases s with
      | nil => simp [hc] at h
      | cons d rest =>
        cases hd : p d with
        | false => simp [hc, hd] at h
        | true => exact ⟨c, d, rest, rfl, hc, hd⟩

theorem scan_comment {s : List Char} (h : ¬ ['-', '-', '>'] <:+: s ++ ['-', '-']) :
    (s ++ ['-', '-', '>']).foldl step ⟨.comment 0, run, opened, found⟩ =
      ⟨.text [], run, opened, found⟩ := by
  let state (read : List Char) : Scanner :=
    ⟨.comment (read.takeWhile (· = '-')).length, run, opened, found⟩
  have hstep (read : List Char) (c : Char) (hopen : ¬ ['-', '-', '>'] <:+ (c :: read).reverse) :
      step (state read) c = state (c :: read) := by
    by_cases hc : c = '-'
    · subst hc
      rfl
    · have hend : ¬ (c = '>' ∧ 2 ≤ (read.takeWhile (· = '-')).length) := by
        rintro ⟨rfl, hdashes⟩
        obtain ⟨d, e, rest, rfl, hd, he⟩ := two_le_takeWhile hdashes
        refine hopen ⟨rest.reverse, ?_⟩
        simp [of_decide_eq_true hd, of_decide_eq_true he]
      simp [state, step, hc, hend]
  have hkept := foldl_until (s := s ++ ['-', '-']) state hstep [] h
  have hsplit : s ++ ['-', '-', '>'] = (s ++ ['-', '-']) ++ ['>'] := by simp
  rw [hsplit, List.foldl_append]
  change ['>'].foldl step ((s ++ ['-', '-']).foldl step (state [])) = _
  rw [hkept]
  simp [state, step]

theorem scan_instruction {s : List Char} (h : ¬ ['?', '>'] <:+: s ++ ['?']) :
    (s ++ ['?', '>']).foldl step ⟨.instruction false, run, opened, found⟩ =
      ⟨.text [], run, opened, found⟩ := by
  let state (read : List Char) : Scanner :=
    ⟨.instruction (read.head? = some '?'), run, opened, found⟩
  have hstep (read : List Char) (c : Char) (hopen : ¬ ['?', '>'] <:+ (c :: read).reverse) :
      step (state read) c = state (c :: read) := by
    have hend : ¬ (c = '>' ∧ read.head? = some '?') := by
      rintro ⟨rfl, hmark⟩
      obtain ⟨rest, rfl⟩ := List.head?_eq_some_iff.1 hmark
      exact hopen ⟨rest.reverse, by simp⟩
    simp [state, step, hend]
  have hkept := foldl_until (s := s ++ ['?']) state hstep [] h
  have hsplit : s ++ ['?', '>'] = (s ++ ['?']) ++ ['>'] := by simp
  rw [hsplit, List.foldl_append]
  change ['>'].foldl step ((s ++ ['?']).foldl step (state [])) = _
  rw [hkept]
  simp [state, step]

theorem scan_raw {s : List Char} (h : ¬ [']', ']', '>'] <:+: s ++ [']', ']']) :
    (s ++ [']', ']', '>']).foldl step ⟨.raw [], run, opened, found⟩ =
      ⟨.text [], .raw s :: run, opened, found⟩ := by
  let state (read : List Char) : Scanner := ⟨.raw read, run, opened, found⟩
  have hstep (read : List Char) (c : Char) (hopen : ¬ [']', ']', '>'] <:+ (c :: read).reverse) :
      step (state read) c = state (c :: read) := by
    simp only [state, step]
    split
    · exact absurd ⟨_, by simp; rfl⟩ hopen
    · rfl
  have hkept := foldl_until (s := s ++ [']', ']']) state hstep [] h
  have hsplit : s ++ [']', ']', '>'] = (s ++ [']', ']']) ++ ['>'] := by simp
  rw [hsplit, List.foldl_append]
  change ['>'].foldl step ((s ++ [']', ']']).foldl step (state [])) = _
  rw [hkept]
  simp [state, step, piece]

end Scanner

namespace Source

open Scanner

variable {run : List Piece} {opened : List (List Char)} {found : List Token}

theorem piecesOf_of_ne_nil {s : List Char} (h : s ≠ []) : piecesOf s = [.chars s] := by
  cases s with
  | nil => exact absurd rfl h
  | cons c s => rfl

theorem scan_open (read : List Char) :
    step ⟨.text read, run, opened, found⟩ '<' =
      ⟨.angle, piecesOf read.reverse ++ run, opened, found⟩ := by
  cases read with
  | nil => rfl
  | cons c read =>
    have hne : (c :: read).reverse ≠ [] := by simp
    rw [piecesOf_of_ne_nil hne]
    rfl

theorem scan_chars {s : List Char} (h : '<' ∉ s) :
    s.foldl step ⟨.text [], run, opened, found⟩ = ⟨.text s.reverse, run, opened, found⟩ := by
  have hstep : ∀ c ∈ s, ∀ read, step ⟨.text read, run, opened, found⟩ c =
      ⟨.text (c :: read), run, opened, found⟩ := by
    intro c hc read
    have hne : c ≠ '<' := fun he => h (he ▸ hc)
    simp [step, hne]
  rw [foldl_of_kept (fun read => mk (.text read) run opened found) hstep [], List.append_nil]

theorem scan_aside {a : Aside} (h : a.IsFine) (read : List Char) :
    a.text.foldl step ⟨.text read, run, opened, found⟩ =
      ⟨.text [], a.pieces.reverse ++ (piecesOf read.reverse ++ run), opened, found⟩ := by
  cases a with
  | comment s =>
    have hopen (run : List Piece) : ['!', '-', '-'].foldl step ⟨.angle, run, opened, found⟩ =
        ⟨.comment 0, run, opened, found⟩ := rfl
    rw [Aside.text, List.append_assoc, List.foldl_append, List.foldl_cons, scan_open, hopen,
      scan_comment h]
    rfl
  | instruction s =>
    have hopen (run : List Piece) : ['?'].foldl step ⟨.angle, run, opened, found⟩ =
        ⟨.instruction false, run, opened, found⟩ := rfl
    rw [Aside.text, List.append_assoc, List.foldl_append, List.foldl_cons, scan_open, hopen,
      scan_instruction h]
    rfl
  | raw s =>
    have hopen (run : List Piece) : "![CDATA[".toList.foldl step ⟨.angle, run, opened, found⟩ =
        ⟨.raw [], run, opened, found⟩ := rfl
    rw [Aside.text, List.append_assoc, List.foldl_append, List.foldl_cons, scan_open, hopen,
      scan_raw h]
    rfl

theorem piecesOf_reverse (s : List Char) : (piecesOf s).reverse = piecesOf s := by
  cases s <;> rfl

theorem scan_asides {as : List (List Char × Aside)} (h : ∀ a ∈ as, IsText a.1 ∧ a.2.IsFine)
    (run : List Piece) :
    (as.flatMap fun a => a.1 ++ a.2.text).foldl step ⟨.text [], run, opened, found⟩ =
      ⟨.text [], (as.flatMap fun a => piecesOf a.1 ++ a.2.pieces).reverse ++ run, opened,
        found⟩ := by
  induction as generalizing run with
  | nil => rfl
  | cons a as ih =>
    obtain ⟨⟨htext, hfine⟩, has⟩ := List.forall_mem_cons.1 h
    rw [List.flatMap_cons, List.foldl_append, List.foldl_append, scan_chars htext.1,
      scan_aside hfine, ih has, List.reverse_reverse]
    simp [piecesOf_reverse]

namespace Gap

variable {g : Gap}

theorem scan_text (h : g.IsFine) :
    g.text.foldl step ⟨.text [], [], opened, found⟩ =
      ⟨.text g.last.reverse, g.held.reverse, opened, found⟩ := by
  rw [text, List.foldl_append, scan_asides h.asides, scan_chars h.last.1, held, List.append_nil]

theorem scan_text_open (h : g.IsFine) :
    (g.text ++ ['<']).foldl step ⟨.text [], [], opened, found⟩ =
      ⟨.angle, g.run.reverse, opened, found⟩ := by
  rw [List.foldl_append, scan_text h]
  change step ⟨.text g.last.reverse, g.held.reverse, opened, found⟩ '<' = _
  rw [scan_open, List.reverse_reverse, run, List.reverse_append, piecesOf_reverse]

theorem flush_run (g : Gap) (mode : Mode) :
    flush ⟨mode, g.run.reverse, opened, found⟩ = ⟨mode, [], opened, g.tokens.reverse ++ found⟩ := by
  unfold flush tokens
  split <;> rename_i heq <;> simp only at heq <;> simp [heq]

end Gap

namespace Tag

variable {t : Tag}

theorem scan_plain {s : List Char} (h : ∀ c ∈ s, c ≠ '>' ∧ c ≠ '"' ∧ c ≠ '\'')
    (read : List Char) :
    s.foldl step ⟨.start read none, run, opened, found⟩ =
      ⟨.start (s.reverse ++ read) none, run, opened, found⟩ := by
  refine foldl_of_kept (fun read => Scanner.mk (.start read none) run opened found) ?_ read
  intro c hc read
  obtain ⟨hend, hdouble, hsingle⟩ := h c hc
  simp [step, nextQuote, hend, hdouble, hsingle]

theorem plain_of_isGap {s : List Char} (h : IsGap s) : ∀ c ∈ s, c ≠ '>' ∧ c ≠ '"' ∧ c ≠ '\'' :=
  fun c hc => ⟨ne_of_isSpace (h c hc) (by decide), ne_of_isSpace (h c hc) (by decide),
    ne_of_isSpace (h c hc) (by decide)⟩

theorem plain_of_isWord {s : List Char} (h : IsWord s) : ∀ c ∈ s, c ≠ '>' ∧ c ≠ '"' ∧ c ≠ '\'' :=
  fun c hc => ⟨ne_of_isMark (h.2 c hc) (by decide), ne_of_isMark (h.2 c hc) (by decide),
    ne_of_isMark (h.2 c hc) (by decide)⟩

theorem scan_quoted {quote : Char} (hquote : quote = '"' ∨ quote = '\'') {raw : List Char}
    (hraw : quote ∉ raw) (read : List Char) :
    (quote :: raw ++ [quote]).foldl step ⟨.start read none, run, opened, found⟩ =
      ⟨.start ((quote :: raw ++ [quote]).reverse ++ read) none, run, opened, found⟩ := by
  have hopen : step ⟨.start read none, run, opened, found⟩ quote =
      ⟨.start (quote :: read) (some quote), run, opened, found⟩ := by
    rcases hquote with rfl | rfl <;> rfl
  have hmore : raw.foldl step ⟨.start (quote :: read) (some quote), run, opened, found⟩ =
      ⟨.start (raw.reverse ++ quote :: read) (some quote), run, opened, found⟩ := by
    refine foldl_of_kept (fun read => Scanner.mk (.start read (some quote)) run opened found) ?_ _
    intro c hc read
    have hne : c ≠ quote := fun he => hraw (he ▸ hc)
    simp [step, nextQuote, hne]
  rw [List.cons_append, List.foldl_cons, hopen, List.foldl_append, hmore]
  simp [step, nextQuote]

theorem scan_attribute {a : Attribute} (h : a.IsFine) (read : List Char) :
    a.text.foldl step ⟨.start read none, run, opened, found⟩ =
      ⟨.start (a.text.reverse ++ read) none, run, opened, found⟩ := by
  have hparts : a.text = (a.gap ++ a.key ++ a.beforeEquals ++ '=' :: a.afterEquals) ++
      (a.quote :: a.raw ++ [a.quote]) := by simp [Attribute.text]
  have hplain : ∀ c ∈ a.gap ++ a.key ++ a.beforeEquals ++ '=' :: a.afterEquals,
      c ≠ '>' ∧ c ≠ '"' ∧ c ≠ '\'' := by
    simp only [List.forall_mem_append, List.forall_mem_cons]
    exact ⟨⟨⟨plain_of_isGap h.gap, plain_of_isWord h.key⟩, plain_of_isGap h.beforeEquals⟩,
      by decide, plain_of_isGap h.afterEquals⟩
  rw [hparts, List.foldl_append, scan_plain hplain, scan_quoted h.quote h.raw,
    ← List.append_assoc, ← List.reverse_append]

theorem scan_attributes {as : List Attribute} (h : ∀ a ∈ as, a.IsFine) (read : List Char) :
    (as.flatMap Attribute.text).foldl step ⟨.start read none, run, opened, found⟩ =
      ⟨.start ((as.flatMap Attribute.text).reverse ++ read) none, run, opened, found⟩ := by
  induction as generalizing read with
  | nil => rfl
  | cons a as ih =>
    obtain ⟨ha, has⟩ := List.forall_mem_cons.1 h
    rw [List.flatMap_cons, List.foldl_append, scan_attribute ha, ih has, List.reverse_append,
      List.append_assoc]

theorem scan_text (h : t.IsFine) :
    (t.name ++ t.text).foldl step ⟨.angle, run, opened, found⟩ =
      ⟨.start (t.name ++ t.text).reverse none, run, opened, found⟩ := by
  obtain ⟨c, rest, hname, hc, hrest⟩ := h.name.cons
  have hfirst : step ⟨.angle, run, opened, found⟩ c = ⟨.start [c] none, run, opened, found⟩ := by
    simp [step, nextQuote, ne_of_isMark hc (d := '!') (by decide),
      ne_of_isMark hc (d := '/') (by decide), ne_of_isMark hc (d := '?') (by decide),
      ne_of_isMark hc (d := '>') (by decide), ne_of_isMark hc (d := '"') (by decide),
      ne_of_isMark hc (d := '\'') (by decide)]
  have hmore : ∀ d ∈ rest, d ≠ '>' ∧ d ≠ '"' ∧ d ≠ '\'' := by
    intro d hd
    exact plain_of_isWord h.name d (by rw [hname]; exact List.mem_cons_of_mem _ hd)
  rw [text, hname, List.cons_append, List.foldl_cons, hfirst, List.foldl_append, scan_plain hmore,
    List.foldl_append, scan_attributes h.attributes, scan_plain (plain_of_isGap h.gap)]
  simp

theorem startTag_eq (h : t.IsFine) (g : Gap) (mode : Mode) (closed : Bool) :
    startTag ⟨mode, g.run.reverse, opened, found⟩ (t.name ++ t.text) closed =
      if closed then ⟨.text [], [], opened, .stop :: .start t.read :: (g.tokens.reverse ++ found)⟩
      else ⟨.text [], [], t.name :: opened, .start t.read :: (g.tokens.reverse ++ found)⟩ := by
  obtain ⟨hname, htext⟩ := takeWhile_name h
  obtain ⟨scope, hscope⟩ := Option.isSome_iff_exists.1 (isSome_enter? h [])
  simp only [startTag, Gap.flush_run, hname, htext, hscope]
  cases closed <;> rfl

theorem scan_start (h : t.IsFine) (g : Gap) :
    (t.name ++ t.text ++ ['>']).foldl step ⟨.angle, g.run.reverse, opened, found⟩ =
      ⟨.text [], [], t.name :: opened, .start t.read :: (g.tokens.reverse ++ found)⟩ := by
  have hlast {read : List Char} (hread : read.head? ≠ some '/') :
      step ⟨.start read none, g.run.reverse, opened, found⟩ '>' =
        startTag ⟨.start read none, g.run.reverse, opened, found⟩ read.reverse false := by
    simp only [step, Option.isNone_none, Bool.and_true, decide_true, if_true]
    split
    · exact absurd rfl hread
    · rfl
  have hhead : (t.name ++ t.text).reverse.head? ≠ some '/' := by
    rw [List.head?_reverse]
    exact fun hc => getLast_ne h _ hc rfl
  rw [List.foldl_append, scan_text h, List.foldl_cons, hlast hhead, List.reverse_reverse,
    startTag_eq h]
  rfl

theorem scan_short (h : t.IsFine) (g : Gap) :
    (t.name ++ t.text ++ ['/', '>']).foldl step ⟨.angle, g.run.reverse, opened, found⟩ =
      ⟨.text [], [], opened, .stop :: .start t.read :: (g.tokens.reverse ++ found)⟩ := by
  have hlast (read : List Char) :
      ['/', '>'].foldl step ⟨.start read none, g.run.reverse, opened, found⟩ =
        startTag ⟨.start ('/' :: read) none, g.run.reverse, opened, found⟩ read.reverse true := rfl
  rw [List.foldl_append, scan_text h, hlast, List.reverse_reverse, startTag_eq h]
  rfl

theorem stopName_eq {name stop : List Char} (hname : IsWord name) (hstop : IsGap stop) :
    stopName (name ++ stop) = name := by
  have htrim : trimEnd isSpace (name ++ stop) = name := by
    have hblank : ∀ c ∈ stop.reverse, isSpace c = true := fun c hc =>
      hstop c (List.mem_reverse.1 hc)
    have hplain : trimEnd isSpace name = name :=
      trimEnd_of_none fun c hc => isSpace_of_isMark (hname.2 c hc)
    rw [trimEnd, List.reverse_append, List.dropWhile_append_of_pos hblank]
    exact hplain
  rw [stopName, htrim]
  cases name with
  | nil => exact absurd rfl hname.1
  | cons c name => rfl

theorem scan_stop {name stop : List Char} (hname : IsWord name) (hstop : IsGap stop) (g : Gap) :
    ('/' :: (name ++ stop ++ ['>'])).foldl step ⟨.angle, g.run.reverse, name :: opened, found⟩ =
      ⟨.text [], [], opened, .stop :: (g.tokens.reverse ++ found)⟩ := by
  have hopen : step ⟨.angle, g.run.reverse, name :: opened, found⟩ '/' =
      ⟨.stop [] none, g.run.reverse, name :: opened, found⟩ := rfl
  have hplain : ∀ c ∈ name ++ stop, c ≠ '>' ∧ c ≠ '"' ∧ c ≠ '\'' :=
    List.forall_mem_append.2 ⟨plain_of_isWord hname, plain_of_isGap hstop⟩
  have hkept : (name ++ stop).foldl step ⟨.stop [] none, g.run.reverse, name :: opened, found⟩ =
      ⟨.stop ((name ++ stop).reverse ++ []) none, g.run.reverse, name :: opened, found⟩ := by
    refine foldl_of_kept
      (fun read => Scanner.mk (.stop read none) g.run.reverse (name :: opened) found) ?_ []
    intro c hc read
    obtain ⟨hend, hdouble, hsingle⟩ := hplain c hc
    simp [step, nextQuote, hend, hdouble, hsingle]
  have hclose (read : List Char) :
      step ⟨.stop read none, g.run.reverse, name :: opened, found⟩ '>' =
        stopTag ⟨.stop read none, g.run.reverse, name :: opened, found⟩ read.reverse := rfl
  rw [List.foldl_cons, hopen, List.foldl_append, hkept, List.foldl_cons, hclose, List.append_nil,
    List.reverse_reverse, stopTag, Gap.flush_run]
  simp only [stopName_eq hname hstop, if_true]
  rfl

end Tag

def last : Source → Gap
  | done gap => gap
  | element _ _ _ _ rest => rest.last

def taken : Source → List Token
  | done _ => []
  | element gap tag _ children rest =>
      gap.tokens ++ .start tag.read ::
        (children.taken ++ (children.last.tokens ++ .stop :: rest.taken))

theorem scan_source {s : Source} (h : s.IsFine) (opened : List (List Char)) (found : List Token) :
    s.text.foldl step ⟨.text [], [], opened, found⟩ =
      ⟨.text s.last.last.reverse, s.last.held.reverse, opened, s.taken.reverse ++ found⟩ := by
  induction h generalizing opened found with
  | done hgap => exact Gap.scan_text hgap
  | @short gap tag rest hgap htag _ ih =>
    have hparts : text (.element gap tag none (.done {}) rest) =
        (gap.text ++ ['<']) ++ ((tag.name ++ tag.text ++ ['/', '>']) ++ rest.text) := by
      simp [text]
    rw [hparts, List.foldl_append, Gap.scan_text_open hgap, List.foldl_append,
      Tag.scan_short htag, ih]
    simp [last, taken, Gap.tokens, Gap.run, Gap.held, piecesOf, trimRun, trimFirst]
  | @long gap tag stop children rest hgap htag hchildren hstop _ ihc ihr =>
    have hparts : text (.element gap tag (some stop) children rest) =
        (gap.text ++ ['<']) ++ ((tag.name ++ tag.text ++ ['>']) ++ (children.text ++
          ('<' :: '/' :: (tag.name ++ stop ++ ['>']) ++ rest.text))) := by
      simp [text]
    rw [hparts, List.foldl_append, Gap.scan_text_open hgap, List.foldl_append,
      Tag.scan_start htag, List.foldl_append, ihc, List.foldl_append, List.foldl_cons, scan_open,
      List.reverse_reverse, ← piecesOf_reverse, ← List.reverse_append]
    change rest.text.foldl step (('/' :: (tag.name ++ stop ++ ['>'])).foldl step
      ⟨.angle, children.last.run.reverse, tag.name :: opened, _⟩) = _
    rw [Tag.scan_stop htag.name hstop, ihr]
    simp [last, taken]

theorem Gap.foldr_push_tokens (g : Gap) (c : Content) (outer : List Content) :
    g.tokens.foldr Content.push (c :: outer) = g.before c :: outer := by
  unfold tokens before
  split <;> rfl

theorem foldr_push_content (s : Source) (outer : List Content) :
    (s.taken ++ s.last.tokens).foldr Content.push (.closed :: outer) = s.content :: outer := by
  induction s generalizing outer with
  | done gap => exact Gap.foldr_push_tokens gap .closed outer
  | element gap tag stop children rest ihc ihr =>
    have hparts : (element gap tag stop children rest).taken ++
        (element gap tag stop children rest).last.tokens = gap.tokens ++ .start tag.read ::
          ((children.taken ++ children.last.tokens) ++ .stop ::
            (rest.taken ++ rest.last.tokens)) := by
      simp [taken, last]
    rw [hparts, List.foldr_append, List.foldr_cons, List.foldr_append, List.foldr_cons, ihr,
      Content.push, ihc, Content.push, Gap.foldr_push_tokens]
    rfl

theorem trimFirst_of_blank {run : List Piece} (h : ∀ p ∈ run, ∃ s, p = .chars s ∧ IsGap s) :
    trimFirst run = [] := by
  induction run with
  | nil => rfl
  | cons p run ih =>
    obtain ⟨⟨s, rfl, hs⟩, hrun⟩ := List.forall_mem_cons.1 h
    have hdrop : s.dropWhile isSpace = [] := List.dropWhile_eq_nil_iff.2 hs
    rw [trimFirst, hdrop]
    exact ih hrun

theorem trimRun_of_blank {run : List Piece} (h : ∀ p ∈ run, ∃ s, p = .chars s ∧ IsGap s) :
    trimRun run = [] := by
  cases run with
  | nil => rfl
  | cons p run =>
    obtain ⟨⟨s, rfl, hs⟩, hrun⟩ := List.forall_mem_cons.1 h
    have hempty : trimEnd isSpace s = [] := by
      have hdrop : s.reverse.dropWhile isSpace = [] :=
        List.dropWhile_eq_nil_iff.2 fun c hc => hs c (List.mem_reverse.1 hc)
      rw [trimEnd, hdrop, List.reverse_nil]
    rw [trimRun, hempty]
    refine trimFirst_of_blank fun p hp => ?_
    rcases List.mem_cons.1 (List.mem_reverse.1 hp) with rfl | hp
    · exact ⟨[], rfl, List.forall_mem_nil _⟩
    · exact hrun p hp

namespace Gap

variable {g : Gap}

theorem run_of_blank (h : g.IsBlank) : ∀ p ∈ g.run.reverse, ∃ s, p = .chars s ∧ IsGap s := by
  have hchars {s : List Char} (hs : IsGap s) : ∀ p ∈ piecesOf s, ∃ s, p = .chars s ∧ IsGap s := by
    cases s with
    | nil => exact List.forall_mem_nil _
    | cons c s =>
      intro p hp
      exact ⟨c :: s, List.mem_singleton.1 hp, hs⟩
  intro p hp
  rcases List.mem_append.1 (List.mem_reverse.1 hp) with hp | hp
  · obtain ⟨⟨s, aside⟩, ha, hp⟩ := List.mem_flatMap.1 hp
    obtain ⟨hs, hraw⟩ := h.asides _ ha
    cases aside with
    | comment _ => exact hchars hs p (by simpa [Aside.pieces] using hp)
    | instruction _ => exact hchars hs p (by simpa [Aside.pieces] using hp)
    | raw _ => exact absurd trivial hraw
  · exact hchars h.last p hp

theorem tokens_of_blank (h : g.IsBlank) : g.tokens = [] := by
  rw [tokens, trimRun_of_blank (run_of_blank h)]

theorem before_of_blank (h : g.IsBlank) (c : Content) : g.before c = c := by
  rw [before, trimRun_of_blank (run_of_blank h)]

theorem head_of_blank (h : g.IsBlank) (rest : List Char) :
    ∃ c more, g.text ++ '<' :: rest = c :: more ∧ c ≠ '\ufeff' := by
  have hgap {s : List Char} (hs : IsGap s) (rest : List Char) :
      ∃ c more, s ++ '<' :: rest = c :: more ∧ c ≠ '\ufeff' := by
    cases s with
    | nil => exact ⟨'<', rest, rfl, by decide⟩
    | cons c s => exact ⟨c, s ++ '<' :: rest, rfl, ne_of_isSpace (hs c (List.mem_cons_self ..))
        (by decide)⟩
  obtain ⟨asides, last⟩ := g
  cases asides with
  | nil => exact hgap h.last rest
  | cons a asides =>
    obtain ⟨hs, -⟩ := h.asides a (List.mem_cons_self ..)
    obtain ⟨more, hmore⟩ : ∃ more, a.2.text = '<' :: more := by
      cases a.2 <;> exact ⟨_, rfl⟩
    obtain ⟨c, more, hc, hne⟩ := hgap hs (more ++ asides.flatMap (fun a => a.1 ++ a.2.text) ++
      last ++ '<' :: rest)
    refine ⟨c, more, ?_, hne⟩
    rw [← hc]
    simp [text, hmore]

end Gap

theorem isSome_of_mem_trimFirst {run : List Piece} (h : ∀ p ∈ run, p.value?.isSome = true) :
    ∀ p ∈ trimFirst run, p.value?.isSome = true := by
  fun_induction trimFirst run with
  | case1 s rest _ ih => exact ih (List.forall_mem_cons.1 h).2
  | case2 s rest _ =>
    obtain ⟨hs, hrest⟩ := List.forall_mem_cons.1 h
    exact List.forall_mem_cons.2 ⟨isSome_unescape?_dropWhile hs, hrest⟩
  | case3 => exact h

theorem isSome_of_mem_trimRun {run : List Piece} (h : ∀ p ∈ run, p.value?.isSome = true) :
    ∀ p ∈ trimRun run, p.value?.isSome = true := by
  have hreverse {run : List Piece} (h : ∀ p ∈ run, p.value?.isSome = true) :
      ∀ p ∈ run.reverse, p.value?.isSome = true := fun p hp => h p (List.mem_reverse.1 hp)
  unfold trimRun
  split
  · obtain ⟨hs, hrest⟩ := List.forall_mem_cons.1 h
    exact isSome_of_mem_trimFirst (hreverse (List.forall_mem_cons.2
      ⟨isSome_unescape?_trimEnd hs, hrest⟩))
  · exact isSome_of_mem_trimFirst (hreverse h)

theorem isSome_runValue? {run : List Piece} (h : ∀ p ∈ run, p.value?.isSome = true) :
    (runValue? run).isSome = true := by
  have hmapM : (run.mapM Piece.value?).isSome = true := by
    induction run with
    | nil => rfl
    | cons p run ih =>
      obtain ⟨hp, hrun⟩ := List.forall_mem_cons.1 h
      obtain ⟨v, hv⟩ := Option.isSome_iff_exists.1 hp
      obtain ⟨vs, hvs⟩ := Option.isSome_iff_exists.1 (ih hrun)
      simp [List.mapM_cons, hv, hvs]
  rw [runValue?, Option.isSome_map, hmapM]

namespace Gap

variable {g : Gap}

theorem isSome_of_mem_run (h : g.IsFine) : ∀ p ∈ g.run.reverse, p.value?.isSome = true := by
  have hchars {s : List Char} (hs : IsText s) : ∀ p ∈ piecesOf s, p.value?.isSome = true := by
    obtain ⟨-, value, hvalue⟩ := hs
    cases s with
    | nil => exact List.forall_mem_nil _
    | cons c s =>
      intro p hp
      rw [List.mem_singleton.1 hp, Piece.value?, hvalue.unescape?]
      rfl
  intro p hp
  rcases List.mem_append.1 (List.mem_reverse.1 hp) with hp | hp
  · obtain ⟨⟨s, aside⟩, ha, hp⟩ := List.mem_flatMap.1 hp
    rcases List.mem_append.1 hp with hp | hp
    · exact hchars (h.asides _ ha).1 p hp
    · cases aside with
      | comment _ => exact absurd hp List.not_mem_nil
      | instruction _ => exact absurd hp List.not_mem_nil
      | raw s =>
        rw [List.mem_singleton.1 hp]
        rfl
  · exact hchars h.last p hp

theorem skip_before (h : g.IsFine) {c : Content} (hc : skip c = .ok ()) :
    skip (g.before c) = .ok () := by
  unfold before
  split
  · exact hc
  · rename_i hrun
    have hvalue : (runValue? (trimRun g.run.reverse)).isSome = true :=
      isSome_runValue? (isSome_of_mem_trimRun (isSome_of_mem_run h))
    rw [skip, if_pos hvalue]

end Gap

theorem skip_content {s : Source} (h : s.IsFine) : skip s.content = .ok () := by
  cases h with
  | done hgap => exact Gap.skip_before hgap rfl
  | short hgap _ _ => exact Gap.skip_before hgap rfl
  | long hgap _ _ _ _ => exact Gap.skip_before hgap rfl

theorem Element.isFine_body {e : Element} (h : e.IsFine) {front : Gap} (hfront : front.IsFine) :
    Source.IsFine (.element front e.tag e.stop e.children (.done {})) := by
  obtain ⟨tag, stop, children⟩ := e
  cases h with
  | short _ htag hrest => exact .short hfront htag hrest
  | long _ htag hchildren hstop hrest => exact .long hfront htag hchildren hstop hrest

theorem Document.parse_text {d : Document} (h : d.IsFine) :
    ∃ rest, Content.parse d.text.toList =
      .element d.root.tag.read d.root.children.content rest := by
  have hscan := scan_source (Element.isFine_body h.root h.front) [] []
  obtain ⟨c, more, hc, hne⟩ : ∃ c more, d.body.text = c :: more ∧ c ≠ '\ufeff' := by
    obtain ⟨rest, hrest⟩ : ∃ rest, d.body.text = d.front.text ++ '<' :: rest := by
      cases hstop : d.root.stop <;> rw [Document.body, hstop, Source.text] <;>
        exact ⟨_, by simp only [List.append_assoc, List.cons_append]; rfl⟩
    rw [hrest]
    exact Gap.head_of_blank h.blank rest
  have htokens : (d.body.taken.reverse ++ []).reverse = .start d.root.tag.read ::
      ((d.root.children.taken ++ d.root.children.last.tokens) ++ [.stop]) := by
    simp [Document.body, taken, Gap.tokens_of_blank h.blank]
  rw [Document.text, String.toList_ofList, hc]
  change d.body.text.foldl step _ = _ at hscan
  rw [hc] at hscan
  exact Content.parse_of_tokens hne hscan htokens (foldr_push_content d.root.children) d.tail

end Source

end UpdateProtocol.Markup
