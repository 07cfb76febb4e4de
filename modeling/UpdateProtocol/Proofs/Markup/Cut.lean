import UpdateProtocol.Markup.Schema
import UpdateProtocol.Proofs.Markup.Written

namespace UpdateProtocol.Markup

namespace Scanner

theorem tokens_suffix_flush (s : Scanner) : s.tokens <:+ s.flush.tokens := by
  unfold flush
  split
  · exact List.suffix_rfl
  · exact List.suffix_cons ..

theorem tokens_suffix_startTag (s : Scanner) (content : List Char) (closed : Bool) :
    s.tokens <:+ (s.startTag content closed).tokens := by
  have hflush := tokens_suffix_flush s
  simp only [startTag]
  split
  · exact hflush
  · split
    · exact hflush.trans ((List.suffix_cons ..).trans (List.suffix_cons ..))
    · exact hflush.trans (List.suffix_cons ..)

theorem tokens_suffix_stopTag (s : Scanner) (content : List Char) :
    s.tokens <:+ (s.stopTag content).tokens := by
  have hflush := tokens_suffix_flush s
  simp only [stopTag]
  split
  · exact hflush
  · split
    · exact hflush.trans (List.suffix_cons ..)
    · exact hflush

theorem tokens_suffix_step (s : Scanner) (c : Char) : s.tokens <:+ (s.step c).tokens := by
  unfold step
  repeat' split
  all_goals
    first
    | exact List.suffix_rfl
    | exact tokens_suffix_startTag ..
    | exact tokens_suffix_stopTag ..
    | exact tokens_suffix_flush ..

theorem tokens_suffix_foldl (text : List Char) (s : Scanner) :
    s.tokens <:+ (text.foldl step s).tokens := by
  induction text generalizing s with
  | nil => exact List.suffix_rfl
  | cons c text ih => exact (tokens_suffix_step s c).trans (ih _)

inductive IsEnd : List Token → Prop
  | none : IsEnd []
  | text (run : List Piece) : IsEnd [.text run]

theorem flush_tokens (s : Scanner) :
    ∃ last, IsEnd last ∧ s.flush.tokens.reverse = s.tokens.reverse ++ last := by
  unfold flush
  split
  · exact ⟨[], .none, (List.append_nil _).symm⟩
  · exact ⟨[.text _], .text _, List.reverse_cons⟩

theorem finish_eq (s : Scanner) :
    ∃ last, IsEnd last ∧ s.finish = s.tokens.reverse ++ last := by
  unfold finish
  split
  · exact flush_tokens s
  · exact flush_tokens (s.piece _)
  · exact flush_tokens s

end Scanner

namespace Content

inductive IsOpen : Content → Prop
  | broken : IsOpen .broken
  | text {run : List Piece} {rest : Content} (h : IsOpen rest) : IsOpen (.text run rest)
  | element {tag : Tag} {children rest : Content} (h : IsOpen rest) :
      IsOpen (.element tag children rest)

theorem foldr_push_ne_nil (ts : List Token) {levels : List Content} (h : levels ≠ []) :
    ts.foldr push levels ≠ [] := by
  induction ts with
  | nil => exact h
  | cons t ts ih =>
    rw [List.foldr_cons]
    cases hl : ts.foldr push levels with
    | nil => exact absurd hl ih
    | cons inner outer =>
      cases t with
      | text run => simp [push]
      | stop => simp [push]
      | start tag => cases outer <;> simp [push]

theorem isOpen_of_prefix {c : Content} (h : c.IsWritten) {ts : List Token}
    (hts : ts <+: c.toTokens) {b : Content} (hb : b.IsOpen) :
    ∃ c' : Content, ts.foldr push [b] = [c'] ∧ c'.IsOpen := by
  induction h generalizing ts with
  | closed =>
    rw [List.prefix_nil.1 hts]
    exact ⟨b, rfl, hb⟩
  | @element tag children rest _ hc _ ihc ihr =>
    rw [toTokens] at hts
    rcases List.prefix_cons_iff.1 hts with rfl | ⟨us, rfl, hus⟩
    · exact ⟨b, rfl, hb⟩
    have hunclosed (hus : us <+: children.toTokens) :
        ∃ c', (Token.start tag :: us).foldr push [b] = [c'] ∧ c'.IsOpen := by
      obtain ⟨c', hc', -⟩ := ihc hus
      exact ⟨.element tag c' .broken, by rw [List.foldr_cons, hc', push], .element .broken⟩
    rcases List.prefix_or_prefix_of_prefix hus (List.prefix_append ..) with hus' | ⟨vs, rfl⟩
    · exact hunclosed hus'
    rcases List.prefix_cons_iff.1 ((List.prefix_append_right_inj _).1 hus) with rfl | ⟨ws, rfl, hws⟩
    · exact hunclosed (List.append_nil _ ▸ List.prefix_rfl)
    obtain ⟨r', hr', hopen⟩ := ihr hws
    refine ⟨.element tag children r', ?_, .element hopen⟩
    rw [List.foldr_cons, List.foldr_append, List.foldr_cons, hr', push, foldr_push_toTokens hc,
      push]

theorem isOpen_of_isEnd {last : List Token} (h : Scanner.IsEnd last) :
    ∃ b : Content, last.foldr push [.broken] = [b] ∧ b.IsOpen := by
  cases h with
  | none => exact ⟨.broken, rfl, .broken⟩
  | text run => exact ⟨.text run .broken, rfl, .text .broken⟩

end Content

namespace Schema

variable {σ : Type} {sch : Schema σ}

theorem readContent_of_isOpen {scope : Scope} {parent : Tag} {c : Content} (h : c.IsOpen)
    (r : Reading σ) : ∃ e, sch.readContent scope parent c r = .error e := by
  induction h generalizing r with
  | broken => exact ⟨.markup, rfl⟩
  | @text run rest _ ih =>
    rw [readContent]
    cases readText r run with
    | error e => exact ⟨e, rfl⟩
    | ok r => exact ih r
  | @element tag children rest _ ih =>
    rw [readContent]
    cases sch.readChild scope parent tag children r with
    | error e => exact ⟨e, rfl⟩
    | ok r => exact ih r

theorem read_of_isOpen {scope : Scope} {tag : Tag} {c : Content} (h : c.IsOpen) :
    ∃ e, sch.read scope tag c = .error e := by
  rw [read]
  cases sch.readAttributes { record := sch.fresh } tag.text with
  | error e => exact ⟨e, rfl⟩
  | ok r =>
    obtain ⟨e, he⟩ : ∃ e, sch.readContent ((scope.enter? tag.text).getD scope) tag c r = .error e :=
      readContent_of_isOpen h r
    change ∃ e, (sch.readContent _ tag c r >>= _) = .error e
    rw [he]
    exact ⟨e, rfl⟩

theorem readDocument_of_isEnd {item : String} {last : List Token} (h : Scanner.IsEnd last) :
    ∃ e, sch.readDocument item (Content.ofTokens last) = .error e := by
  cases h with
  | none => exact ⟨.markup, rfl⟩
  | text run =>
    rw [show Content.ofTokens [.text run] = .text run .broken from rfl, readDocument]
    cases runValue? run with
    | none => exact ⟨_, rfl⟩
    | some s => exact ⟨_, rfl⟩

theorem readDocument_of_prefix {item : String} {tag : Tag} {children : Content}
    (hc : children.IsWritten) {ts last : List Token} (hts : ts <+: .start tag :: children.toTokens)
    (hlast : Scanner.IsEnd last) :
    ∃ e, sch.readDocument item (Content.ofTokens (ts ++ last)) = .error e := by
  rcases List.prefix_cons_iff.1 hts with rfl | ⟨us, rfl, hus⟩
  · exact readDocument_of_isEnd hlast
  obtain ⟨b, hb, hopen⟩ := Content.isOpen_of_isEnd hlast
  obtain ⟨c', hc', hopen'⟩ := Content.isOpen_of_prefix hc hus hopen
  have htree : Content.ofTokens (.start tag :: us ++ last) = .element tag c' .broken := by
    rw [Content.ofTokens, List.foldr_append, hb, List.foldr_cons, hc', Content.push]
  rw [htree]
  exact read_of_isOpen hopen'

end Schema

theorem tokens_of_prefix {front text : List Char} (h : text <+: '<' :: front) :
    tokens text = (text.foldl Scanner.step {}).finish := by
  rcases List.prefix_cons_iff.1 h with rfl | ⟨rest, rfl, -⟩
  · rfl
  · exact tokens_of_angle rest

theorem tokens_of_head {c : Char} (h : c ≠ '\ufeff') (text : List Char) :
    tokens (c :: text) = ((c :: text).foldl Scanner.step {}).finish := by
  unfold tokens
  split
  · rename_i heq
    exact absurd (List.cons.inj heq).1 h
  · rfl

theorem Content.parse_of_tokens {c : Char} (hc : c ≠ '\ufeff') {text : List Char} {tag : Tag}
    {children : Content} {s : Scanner} (hscan : (c :: text).foldl Scanner.step {} = s)
    {ts : List Token} (hs : s.tokens.reverse = .start tag :: (ts ++ [.stop]))
    (hts : ∀ outer, ts.foldr push (.closed :: outer) = children :: outer) (tail : List Char) :
    ∃ rest, Content.parse (c :: text ++ tail) = .element tag children rest := by
  obtain ⟨more, hmore⟩ := Scanner.tokens_suffix_foldl tail s
  obtain ⟨last, -, hfinish⟩ := Scanner.finish_eq (tail.foldl Scanner.step s)
  have htokens : tokens (c :: text ++ tail) =
      .start tag :: (ts ++ .stop :: (more.reverse ++ last)) := by
    rw [List.cons_append, tokens_of_head hc, ← List.cons_append, List.foldl_append, hscan, hfinish,
      ← hmore, List.reverse_append, hs]
    simp
  cases hlevels : (more.reverse ++ last).foldr push [.broken] with
  | nil => exact absurd hlevels (foldr_push_ne_nil _ (List.cons_ne_nil _ _))
  | cons rest outer =>
    refine ⟨rest, ?_⟩
    rw [parse, ofTokens, htokens, List.foldr_cons, List.foldr_append, List.foldr_cons, hlevels,
      push, hts, push]

theorem Scanner.scan_angle {read : List Char} (h : read ≠ []) :
    step ⟨.text read, [], [], []⟩ '<' = ⟨.angle, [.chars read.reverse], [], []⟩ := by
  cases read with
  | nil => exact absurd rfl h
  | cons c read => rfl

theorem Scanner.scan_body_init {run : List Piece} {tag : Tag} {children : Content}
    (ht : tag.IsWritten) (hc : children.IsWritten) (hrun : trimRun run = []) :
    ∃ init, Content.body tag children = init ++ ['>'] ∧
      (init.foldl step ⟨.angle, run, [], []⟩).tokens.reverse <+:
        .start tag :: children.toTokens := by
  cases hc with
  | closed =>
    refine ⟨tag.name ++ tag.text ++ ['/'], by simp [Content.body], ?_⟩
    rw [List.foldl_append, scan_tag ht]
    exact List.nil_prefix
  | @element t c r ht' hc' hr' =>
    have hchildren : (Content.element t c r).IsWritten := .element ht' hc' hr'
    have hname : ∀ d ∈ tag.name, isNameChar d = true := by
      rw [← ht.plainName_toList]
      exact ht.isName.2
    have hstop (found : List Token) :
        tag.name.foldl step (['<', '/'].foldl step ⟨.text [], [], [tag.name], found⟩) =
          ⟨.stop tag.name.reverse none, [], [tag.name], found⟩ := by
      change tag.name.foldl step ⟨.stop [] none, [], [tag.name], found⟩ = _
      rw [scan_stopName hname, List.append_nil]
    refine ⟨tag.name ++ tag.text ++ ['>'] ++ (Content.element t c r).write ++ (['<', '/'] ++
      tag.name), by simp [Content.body, Tag.stopText], ?_⟩
    rw [List.foldl_append, List.foldl_append, List.foldl_append, scan_start ht hrun,
      scan_write hchildren, hstop, List.reverse_append, List.reverse_reverse]
    exact List.prefix_rfl

theorem Schema.readDocument_of_cut {σ : Type} {sch : Schema σ} {item : String}
    {front read : List Char} {tag : Tag} {children : Content}
    (hscan : ('<' :: front).foldl Scanner.step {} = ⟨.text read, [], [], []⟩) (hread : read ≠ [])
    (hblank : Scanner.trimRun [.chars read.reverse] = []) (ht : tag.IsWritten)
    (hc : children.IsWritten) {text : List Char}
    (h : text <+: '<' :: front ++ (Content.element tag children .broken).write)
    (hne : text ≠ '<' :: front ++ (Content.element tag children .broken).write) :
    ∃ e, sch.readDocument item (Content.parse text) = .error e := by
  obtain ⟨init, hinit, htokens⟩ := Scanner.scan_body_init ht hc hblank
  have hwhole : '<' :: front ++ (Content.element tag children .broken).write =
      ('<' :: front ++ '<' :: init) ++ ['>'] := by
    rw [Content.write_broken, Content.write_element tag hc .closed, hinit]
    simp [Content.write, Content.writeAfter]
  rw [hwhole] at h hne
  obtain ⟨rest, hrest⟩ := (List.prefix_concat_iff.1 h).resolve_left hne
  have hlonger := Scanner.tokens_suffix_foldl rest (text.foldl Scanner.step {})
  rw [← List.foldl_append, hrest, List.foldl_append, hscan, List.foldl_cons,
    Scanner.scan_angle hread] at hlonger
  obtain ⟨last, hlast, hfinish⟩ := Scanner.finish_eq (text.foldl Scanner.step {})
  rw [Content.parse, tokens_of_prefix h, hfinish]
  exact readDocument_of_prefix hc ((List.reverse_prefix.2 hlonger).trans htokens) hlast

theorem Content.parse_document_append {front read : List Char} {tag : Tag} {children : Content}
    (hscan : ('<' :: front).foldl Scanner.step {} = ⟨.text read, [], [], []⟩) (hread : read ≠ [])
    (hblank : Scanner.trimRun [.chars read.reverse] = []) (ht : tag.IsWritten)
    (hc : children.IsWritten) (tail : List Char) :
    ∃ rest, Content.parse
      ('<' :: front ++ (Content.element tag children .broken).write ++ tail) =
        .element tag children rest := by
  have hwhole : ('<' :: (front ++ (Content.element tag children .broken).write)).foldl
      Scanner.step {} =
        ⟨.text [], [], [], .stop :: (children.toTokens.reverse ++ [.start tag])⟩ := by
    rw [write_broken, write_element tag hc .closed, ← List.cons_append, List.foldl_append, hscan,
      List.cons_append, List.foldl_cons, Scanner.scan_angle hread, List.foldl_append,
      Scanner.scan_body ht hc hblank (Scanner.scan_write hc)]
    rfl
  have htokens : (Token.stop :: (children.toTokens.reverse ++ [.start tag])).reverse =
      .start tag :: (children.toTokens ++ [.stop]) := by simp
  exact parse_of_tokens (by decide) hwhole htokens (foldr_push_toTokens hc) tail

end UpdateProtocol.Markup
