import UpdateProtocol.Proofs.Markup.Tag

namespace UpdateProtocol.Markup

open UpdateProtocol.Text

theorem Tag.name_of (name : String) (as : List (String × String)) :
    (Tag.of name as).name = name.toList := rfl

def Tag.stopText (t : Tag) : List Char := ['<', '/'] ++ t.name ++ ['>']

namespace Content

inductive IsWritten : Content → Prop
  | closed : IsWritten .closed
  | element {tag : Tag} {children rest : Content} (htag : tag.IsWritten)
      (hchildren : IsWritten children) (hrest : IsWritten rest) :
      IsWritten (.element tag children rest)

def toTokens : Content → List Token
  | .closed | .broken => []
  | .text run rest => .text run :: toTokens rest
  | .element tag children rest => .start tag :: (toTokens children ++ .stop :: toTokens rest)

theorem foldr_push_toTokens {c : Content} (h : c.IsWritten) (outer : List Content) :
    c.toTokens.foldr push (.closed :: outer) = c :: outer := by
  induction h generalizing outer with
  | closed => rfl
  | @element tag children rest _ _ _ ihc ihr =>
    rw [toTokens, List.foldr_cons, List.foldr_append, List.foldr_cons, ihr, push, ihc, push]

theorem writeAfter_childless (done : List Char) (tag : Tag) (rest : Content) :
    writeAfter done (.element tag .closed rest) =
      writeAfter ('>' :: '/' :: (tag.text.reverse ++ (tag.name.reverse ++ ('<' :: done))))
        rest := rfl

theorem writeAfter_parent (done : List Char) (tag t : Tag) (c r rest : Content) :
    writeAfter done (.element tag (.element t c r) rest) =
      writeAfter ('>' :: (tag.name.reverse ++ ('/' :: '<' :: writeAfter
        ('>' :: (tag.text.reverse ++ (tag.name.reverse ++ ('<' :: done)))) (.element t c r))))
        rest := rfl

theorem writeAfter_append {c : Content} (h : c.IsWritten) (done : List Char) :
    c.writeAfter done = c.writeAfter [] ++ done := by
  induction h generalizing done with
  | closed => rfl
  | @element tag children rest _ hc _ ihc ihr =>
    cases hc with
    | closed =>
      rw [writeAfter_childless, writeAfter_childless, ihr, ihr (_ :: _ :: (_ ++ (_ ++ ['<'])))]
      simp
    | @element t c r _ _ _ =>
      rw [writeAfter_parent, writeAfter_parent, ihr, ihc, ihr (_ :: (_ ++ (_ :: _ :: _))),
        ihc (_ :: (_ ++ (_ ++ ['<'])))]
      simp

def body (tag : Tag) : Content → List Char
  | .closed => tag.name ++ tag.text ++ ['/', '>']
  | children => tag.name ++ tag.text ++ ['>'] ++ children.write ++ tag.stopText

theorem write_element (tag : Tag) {children rest : Content} (hc : children.IsWritten)
    (hr : rest.IsWritten) :
    (element tag children rest).write = '<' :: body tag children ++ rest.write := by
  cases hc with
  | closed =>
    rw [write, writeAfter_childless, writeAfter_append hr, write, body]
    simp
  | element ht' hc' hr' =>
    rw [write, writeAfter_parent, writeAfter_append hr, writeAfter_append (.element ht' hc' hr'),
      write, body, write, Tag.stopText]
    · simp
    · exact Content.noConfusion

theorem write_broken (tag : Tag) (children : Content) :
    (element tag children .broken).write = (element tag children .closed).write := by
  cases children <;> rfl

end Content

namespace Tag

theorem IsWritten.isName {t : Tag} (h : t.IsWritten) : IsName t.plainName := by
  obtain ⟨hname, -⟩ := h
  rw [plainName, name_of, localName_of_isName hname, String.ofList_toList]
  exact hname

theorem IsWritten.plainName_toList {t : Tag} (h : t.IsWritten) : t.plainName.toList = t.name := by
  obtain ⟨hname, -⟩ := h
  rw [plainName, name_of, localName_of_isName hname, String.toList_ofList]

theorem takeWhile_written {name : String} {as : List (String × String)} (h : IsName name) :
    (name.toList ++ as.flatMap Attribute.text).takeWhile (fun c => !isSpace c) = name.toList := by
  have hname : ∀ c ∈ name.toList, (!isSpace c) = true := fun c hc => by
    rw [isSpace_of_isNameChar (h.2 c hc)]
    rfl
  rw [List.takeWhile_append_of_pos hname]
  cases as with
  | nil => simp
  | cons a as => simp [Attribute.text, isSpace]

theorem dropWhile_written {name : String} {as : List (String × String)} (h : IsName name) :
    (name.toList ++ as.flatMap Attribute.text).dropWhile (fun c => !isSpace c) =
      as.flatMap Attribute.text := by
  have hname : ∀ c ∈ name.toList, (!isSpace c) = true := fun c hc => by
    rw [isSpace_of_isNameChar (h.2 c hc)]
    rfl
  rw [List.dropWhile_append_of_pos hname]
  cases as with
  | nil => rfl
  | cons a as => simp [Attribute.text, isSpace]

theorem IsWritten.reverse_head {t : Tag} (h : t.IsWritten) :
    ∃ c rest, (t.name ++ t.text).reverse = c :: rest ∧ c ≠ '/' := by
  obtain ⟨hname, -⟩ := h
  rename_i name as
  rw [name_of, text_of]
  rcases List.eq_nil_or_concat as with rfl | ⟨before, a, rfl⟩
  · cases hr : name.toList.reverse with
    | nil => exact absurd (List.reverse_eq_nil_iff.1 hr) hname.1
    | cons c rest =>
      have hc : c ∈ name.toList := by
        rw [← List.mem_reverse, hr]
        exact List.mem_cons_self ..
      exact ⟨c, rest, by simpa using hr, ne_of_isNameChar (hname.2 c hc) (by decide)⟩
  · exact ⟨'"', _, by simp [Attribute.text]; rfl, by decide⟩

end Tag

namespace Scanner

variable {run : List Piece} {opened : List (List Char)} {found : List Token}

theorem scan_name {s : List Char} (h : ∀ c ∈ s, isNameChar c = true) (read : List Char) :
    s.foldl step ⟨.start read none, run, opened, found⟩ =
      ⟨.start (s.reverse ++ read) none, run, opened, found⟩ := by
  refine foldl_of_kept (fun read => mk (.start read none) run opened found) ?_ read
  intro c hc read
  have hname := h c hc
  simp [step, nextQuote, ne_of_isNameChar hname (d := '>') (by decide),
    ne_of_isNameChar hname (d := '"') (by decide), ne_of_isNameChar hname (d := '\'') (by decide)]

theorem scan_quoted {s : List Char} (h : '"' ∉ s) (read : List Char) :
    s.foldl step ⟨.start read (some '"'), run, opened, found⟩ =
      ⟨.start (s.reverse ++ read) (some '"'), run, opened, found⟩ := by
  refine foldl_of_kept (fun read => mk (.start read (some '"')) run opened found) ?_ read
  intro c hc read
  have hquote : c ≠ '"' := fun he => h (he ▸ hc)
  simp [step, nextQuote, hquote]

theorem scan_attribute {a : String × String} (h : IsName a.1) (read : List Char) :
    (Attribute.text a).foldl step ⟨.start read none, run, opened, found⟩ =
      ⟨.start ((Attribute.text a).reverse ++ read) none, run, opened, found⟩ := by
  have hopen (read : List Char) :
      "=\"".toList.foldl step ⟨.start read none, run, opened, found⟩ =
        ⟨.start ("=\"".toList.reverse ++ read) (some '"'), run, opened, found⟩ := rfl
  have hclose (read : List Char) :
      step ⟨.start read (some '"'), run, opened, found⟩ '"' =
        ⟨.start ('"' :: read) none, run, opened, found⟩ := rfl
  have hblank : step ⟨.start read none, run, opened, found⟩ ' ' =
      ⟨.start (' ' :: read) none, run, opened, found⟩ := rfl
  simp only [Attribute.text, List.cons_append, List.foldl_cons, List.foldl_append, List.foldl_nil]
  rw [hblank, scan_name h.2, hopen, scan_quoted (quote_not_mem_escape _), hclose]
  simp

theorem scan_attributes {as : List (String × String)} (h : ∀ a ∈ as, IsName a.1)
    (read : List Char) :
    (as.flatMap Attribute.text).foldl step ⟨.start read none, run, opened, found⟩ =
      ⟨.start ((as.flatMap Attribute.text).reverse ++ read) none, run, opened, found⟩ := by
  induction as generalizing read with
  | nil => rfl
  | cons a as ih =>
    rw [List.flatMap_cons, List.foldl_append, scan_attribute (h a (List.mem_cons_self ..)),
      ih fun b hb => h b (List.mem_cons_of_mem _ hb)]
    simp

theorem scan_tag {t : Tag} (h : t.IsWritten) :
    (t.name ++ t.text).foldl step ⟨.angle, run, opened, found⟩ =
      ⟨.start (t.name ++ t.text).reverse none, run, opened, found⟩ := by
  obtain ⟨hname, hkeys⟩ := h
  obtain ⟨c, rest, hn, hc, hrest⟩ := hname.cons
  have hfirst : step ⟨.angle, run, opened, found⟩ c = ⟨.start [c] none, run, opened, found⟩ := by
    simp [step, nextQuote, ne_of_isNameChar hc (d := '!') (by decide),
      ne_of_isNameChar hc (d := '/') (by decide), ne_of_isNameChar hc (d := '?') (by decide),
      ne_of_isNameChar hc (d := '>') (by decide), ne_of_isNameChar hc (d := '"') (by decide),
      ne_of_isNameChar hc (d := '\'') (by decide)]
  rw [Tag.name_of, Tag.text_of, hn, List.foldl_append, List.foldl_cons, hfirst, scan_name hrest,
    scan_attributes hkeys]
  simp

theorem flush_of_blank {mode : Mode} (hrun : trimRun run = []) :
    flush ⟨mode, run, opened, found⟩ = ⟨mode, [], opened, found⟩ := by
  rw [flush, hrun]

theorem startTag_written {t : Tag} (h : t.IsWritten) (mode : Mode) (hrun : trimRun run = []) :
    startTag ⟨mode, run, opened, found⟩ (t.name ++ t.text) false =
        ⟨.text [], [], t.name :: opened, .start t :: found⟩ ∧
      startTag ⟨mode, run, opened, found⟩ (t.name ++ t.text) true =
        ⟨.text [], [], opened, .stop :: .start t :: found⟩ := by
  have henter := Scope.enter?_of_isWritten h []
  obtain ⟨hname, -⟩ := h
  rw [Tag.text_of] at henter
  simp only [startTag, flush_of_blank hrun, Tag.name_of, Tag.text_of, Tag.takeWhile_written hname,
    Tag.dropWhile_written hname, henter]
  exact ⟨rfl, rfl⟩

theorem scan_start {t : Tag} (h : t.IsWritten) (hrun : trimRun run = []) :
    (t.name ++ t.text ++ ['>']).foldl step ⟨.angle, run, opened, found⟩ =
      ⟨.text [], [], t.name :: opened, .start t :: found⟩ := by
  obtain ⟨c, rest, hr, hc⟩ := h.reverse_head
  have hlast : step ⟨.start (c :: rest) none, run, opened, found⟩ '>' =
      startTag ⟨.start (c :: rest) none, run, opened, found⟩ (c :: rest).reverse false := by
    simp only [step, Option.isNone_none, Bool.and_true, decide_true, if_true]
    split
    · rename_i heq
      exact absurd (List.cons.inj heq).1 hc
    · rfl
  rw [List.foldl_append, scan_tag h, hr, List.foldl_cons, hlast, ← hr, List.reverse_reverse]
  exact (startTag_written h _ hrun).1

theorem scan_childless {t : Tag} (h : t.IsWritten) (hrun : trimRun run = []) :
    (t.name ++ t.text ++ ['/', '>']).foldl step ⟨.angle, run, opened, found⟩ =
      ⟨.text [], [], opened, .stop :: .start t :: found⟩ := by
  have hlast (read : List Char) :
      ['/', '>'].foldl step ⟨.start read none, run, opened, found⟩ =
        startTag ⟨.start ('/' :: read) none, run, opened, found⟩ read.reverse true := rfl
  rw [List.foldl_append, scan_tag h, hlast, List.reverse_reverse]
  exact (startTag_written h _ hrun).2

theorem scan_stopName {s : List Char} (h : ∀ c ∈ s, isNameChar c = true) (read : List Char) :
    s.foldl step ⟨.stop read none, run, opened, found⟩ =
      ⟨.stop (s.reverse ++ read) none, run, opened, found⟩ := by
  refine foldl_of_kept (fun read => mk (.stop read none) run opened found) ?_ read
  intro c hc read
  have hname := h c hc
  simp [step, nextQuote, ne_of_isNameChar hname (d := '>') (by decide),
    ne_of_isNameChar hname (d := '"') (by decide), ne_of_isNameChar hname (d := '\'') (by decide)]

theorem scan_stop {t : Tag} (h : t.IsWritten) :
    t.stopText.foldl step ⟨.text [], [], t.name :: opened, found⟩ =
      ⟨.text [], [], opened, .stop :: found⟩ := by
  obtain ⟨hname, -⟩ := h
  rename_i name as
  have htrim : trimEnd isSpace name.toList = name.toList :=
    trimEnd_of_none fun c hc => isSpace_of_isNameChar (hname.2 c hc)
  have hstop : stopName name.toList = name.toList := by
    rw [stopName, htrim]
    split <;> rfl
  have hopen : ['<', '/'].foldl step ⟨.text [], [], name.toList :: opened, found⟩ =
      ⟨.stop [] none, [], name.toList :: opened, found⟩ := rfl
  have hclose (read : List Char) : step ⟨.stop read none, [], name.toList :: opened, found⟩ '>' =
      stopTag ⟨.stop read none, [], name.toList :: opened, found⟩ read.reverse := rfl
  rw [Tag.stopText, Tag.name_of, List.foldl_append, List.foldl_append, hopen, scan_stopName hname.2,
    List.foldl_cons, hclose, List.append_nil, List.reverse_reverse, stopTag, flush_of_blank rfl]
  simp only [hstop, if_true]
  rfl

theorem scan_body {tag : Tag} {children : Content} (ht : tag.IsWritten)
    (hc : children.IsWritten) (hrun : trimRun run = [])
    (hscan : ∀ opened found, children.write.foldl step ⟨.text [], [], opened, found⟩ =
      ⟨.text [], [], opened, children.toTokens.reverse ++ found⟩) :
    (Content.body tag children).foldl step ⟨.angle, run, opened, found⟩ =
      ⟨.text [], [], opened, .stop :: (children.toTokens.reverse ++ .start tag :: found)⟩ := by
  cases hc with
  | closed => exact scan_childless ht hrun
  | element _ _ _ =>
    rw [Content.body, List.foldl_append, List.foldl_append, scan_start ht hrun, hscan, scan_stop ht]
    exact Content.noConfusion

theorem scan_write {c : Content} (h : c.IsWritten) (opened : List (List Char))
    (found : List Token) :
    c.write.foldl step ⟨.text [], [], opened, found⟩ =
      ⟨.text [], [], opened, c.toTokens.reverse ++ found⟩ := by
  induction h generalizing opened found with
  | closed => rfl
  | @element tag children rest ht hc hr ihc ihr =>
    rw [Content.write_element tag hc hr, List.cons_append, List.foldl_cons, List.foldl_append]
    change rest.write.foldl step ((Content.body tag children).foldl step ⟨.angle, [], _, _⟩) = _
    rw [scan_body ht hc rfl ihc, ihr]
    simp [Content.toTokens]

end Scanner

theorem tokens_of_angle (s : List Char) :
    tokens ('<' :: s) = (('<' :: s).foldl Scanner.step {}).finish := rfl

theorem parse_document {front read : List Char} {tag : Tag} {children : Content}
    (hscan : ('<' :: front).foldl Scanner.step {} = ⟨.text read, [], [], []⟩) (hread : read ≠ [])
    (hblank : Scanner.trimRun [.chars read.reverse] = []) (ht : tag.IsWritten)
    (hc : children.IsWritten) :
    Content.parse ('<' :: front ++ (Content.element tag children .broken).write) =
      .element tag children .broken := by
  have hangle : Scanner.step ⟨.text read, [], [], []⟩ '<' =
      ⟨.angle, [.chars read.reverse], [], []⟩ := by
    cases read with
    | nil => exact absurd rfl hread
    | cons c read => rfl
  have htokens : tokens ('<' :: front ++ (Content.element tag children .broken).write) =
      .start tag :: (children.toTokens ++ [.stop]) := by
    rw [Content.write_broken, Content.write_element tag hc .closed, List.cons_append,
      tokens_of_angle, ← List.cons_append, List.foldl_append, hscan, List.cons_append,
      List.foldl_cons, hangle, List.foldl_append,
      Scanner.scan_body ht hc hblank (Scanner.scan_write hc)]
    change (Scanner.flush ⟨.text [], [], [], _⟩).tokens.reverse = _
    rw [Scanner.flush_of_blank (by rfl)]
    simp
  rw [Content.parse, Content.ofTokens, htokens, List.foldr_cons, List.foldr_append,
    List.foldr_cons, List.foldr_nil, Content.push, Content.foldr_push_toTokens hc]
  rfl

end UpdateProtocol.Markup
