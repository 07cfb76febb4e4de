import Mathlib
import UpdateProtocol.Document
import UpdateProtocol.Proofs.Text.Pieces

namespace UpdateProtocol

open UpdateProtocol.Text

namespace ContentType

def IsCased (word : String) (s : List Char) : Prop :=
  List.Forall₂ (fun c d => c = d ∨ c = d.toUpper) s word.toList

inductive IsMedia : List Char → Prop
  | text {s : List Char} (h : IsCased "text/xml" s) : IsMedia s
  | application {s : List Char} (h : IsCased "application/xml" s) : IsMedia s

inductive IsParam : List Char → Prop
  | charset {key value : List Char} (first : '=' ∉ key)
      (name : Surrounded isBlank (IsCased "charset") key)
      (named : Surrounded isBlank (Surrounded (· = '"') (IsCased "utf-8")) value) :
      IsParam (key ++ '=' :: value)

inductive IsAcceptable : List Char → Prop
  | blank {s : List Char} (h : ∀ c ∈ s, isBlank c = true) : IsAcceptable s
  | typed {media : List Char} {params : List (List Char)} (type : Surrounded isBlank IsMedia media)
      (all : ∀ param ∈ params, IsParam param) : IsAcceptable (media ++ params.flatMap (';' :: ·))

theorem toLower_eq_iff {c d : Char} (hd : d.toLower = d) :
    c.toLower = d ↔ c = d ∨ c = d.toUpper := by
  constructor
  · rintro rfl
    by_cases hc : c.isUpper = true
    · right
      rw [Char.toUpper_toLower_eq_toUpper,
        Char.toUpper_eq_of_not_isLower (Char.not_isLower_of_isUpper hc)]
    · left
      rw [Char.toLower_eq_of_not_isUpper hc]
  · rintro (rfl | rfl)
    · exact hd
    · rw [Char.toLower_toUpper_eq_toLower, hd]

theorem sameLetters_iff {word : String} (hword : word.toList.map Char.toLower = word.toList)
    {s : List Char} : sameLetters s word.toList = true ↔ IsCased word s := by
  rw [sameLetters, decide_eq_true_iff, hword, IsCased]
  generalize word.toList = letters at hword
  induction s generalizing letters with
  | nil => cases letters <;> simp
  | cons c s ih =>
    cases letters with
    | nil => simp
    | cons d letters =>
      obtain ⟨hd, hletters⟩ := List.cons.inj hword
      rw [List.map_cons, List.cons.injEq, List.forall₂_cons, toLower_eq_iff hd, ih letters hletters]

theorem IsCased.forall_mem {word : String} {s : List Char} (h : IsCased word s) {p : Char → Bool}
    (hword : word.toList.all (fun d => p d && p d.toUpper) = true) : ∀ c ∈ s, p c = true := by
  unfold IsCased at h
  generalize word.toList = letters at h hword
  induction h with
  | nil => exact List.forall_mem_nil _
  | cons hc _ ih =>
    rw [List.all_cons, Bool.and_eq_true, Bool.and_eq_true] at hword
    refine List.forall_mem_cons.2 ⟨?_, ih hword.2⟩
    rcases hc with rfl | rfl
    · exact hword.1.1
    · exact hword.1.2

theorem IsMedia.forall_mem {s : List Char} (h : IsMedia s) {p : Char → Bool}
    (hwords : ("text/xml".toList ++ "application/xml".toList).all (fun d => p d && p d.toUpper) =
      true) : ∀ c ∈ s, p c = true := by
  rw [List.all_append, Bool.and_eq_true] at hwords
  cases h with
  | text h => exact h.forall_mem hwords.1
  | application h => exact h.forall_mem hwords.2

theorem not_blank_of_isMedia (s : List Char) (h : IsMedia s) : ∀ c ∈ s, isBlank c = false := by
  simpa using h.forall_mem (p := fun c => !isBlank c) (by decide)

theorem isMediaType_iff {s : List Char} :
    isMediaType s = true ↔ Surrounded isBlank IsMedia s := by
  rw [surrounded_iff not_blank_of_isMedia, isMediaType, Bool.or_eq_true,
    sameLetters_iff (by decide), sameLetters_iff (by decide)]
  constructor
  · rintro (h | h)
    · exact .text h
    · exact .application h
  · rintro (h | h)
    · exact .inl h
    · exact .inr h

theorem named_iff {s : List Char} :
    sameLetters (trim (· = '"') (trim isBlank s)) "utf-8".toList = true ↔
      Surrounded isBlank (Surrounded (· = '"') (IsCased "utf-8")) s := by
  have hquotes (core : List Char) (h : IsCased "utf-8" core) :
      ∀ c ∈ core, decide (c = '"') = false := by
    simpa using h.forall_mem (p := fun c => !decide (c = '"')) (by decide)
  have hblanks (core : List Char) (h : Surrounded (· = '"') (IsCased "utf-8") core) :
      ∀ c ∈ core, isBlank c = false := by
    refine h.forall_mem (fun c hc => ?_) fun inner hinner => ?_
    · rw [of_decide_eq_true hc]
      decide
    · simpa using hinner.forall_mem (p := fun c => !isBlank c) (by decide)
  rw [surrounded_iff hblanks, surrounded_iff hquotes, sameLetters_iff (by decide)]

theorem isCharset_iff {s : List Char} : isCharset s = true ↔ IsParam s := by
  have hname (core : List Char) (h : IsCased "charset" core) : ∀ c ∈ core, isBlank c = false := by
    simpa using h.forall_mem (p := fun c => !isBlank c) (by decide)
  rw [isCharset]
  constructor
  · intro h
    split at h
    next key value hsplit =>
      obtain ⟨rfl, hfirst⟩ := splitFirst?_eq_some_iff.1 hsplit
      rw [Bool.and_eq_true, sameLetters_iff (by decide), ← surrounded_iff hname, named_iff] at h
      exact .charset hfirst h.1 h.2
    next => cases h
  · rintro ⟨first, name, named⟩
    rw [splitFirst?_eq_some_iff.2 ⟨rfl, first⟩]
    simp only [Bool.and_eq_true]
    rw [sameLetters_iff (by decide), ← surrounded_iff hname, named_iff]
    exact ⟨name, named⟩

def isTyped (s : List Char) : Bool :=
  match parts (· = ';') s with
  | [] => false
  | media :: params => isMediaType media && params.all isCharset

variable {s before after : List Char}

theorem isTyped_of_parts {media : List Char} {params : List (List Char)}
    (h : parts (· = ';') s = media :: params) :
    isTyped s = (isMediaType media && params.all isCharset) := by
  rw [isTyped, h]

theorem isMediaType_surrounded (s : List Char) (hbefore : ∀ c ∈ before, isBlank c = true)
    (hafter : ∀ c ∈ after, isBlank c = true) :
    isMediaType (before ++ s ++ after) = isMediaType s := by
  rw [isMediaType, trim_surrounded s hbefore hafter, isMediaType]

theorem not_mem_of_blank {c : Char} (hc : isBlank c = false) (h : ∀ d ∈ s, isBlank d = true) :
    c ∉ s := by
  intro hmem
  rw [h c hmem] at hc
  cases hc

theorem isCharset_append (s : List Char) (hafter : ∀ c ∈ after, isBlank c = true) :
    isCharset (s ++ after) = isCharset s := by
  cases hsplit : splitFirst? '=' s with
  | none =>
    have hnone : splitFirst? '=' (s ++ after) = none := splitFirst?_eq_none_iff.2 fun hmem =>
      (List.mem_append.1 hmem).elim (splitFirst?_eq_none_iff.1 hsplit)
        (not_mem_of_blank (by decide) hafter)
    rw [isCharset, isCharset, hnone, hsplit]
  | some cut =>
    obtain ⟨hs, hkey⟩ := splitFirst?_eq_some_iff.1 hsplit
    have hsome : splitFirst? '=' (s ++ after) = some (cut.1, cut.2 ++ after) :=
      splitFirst?_eq_some_iff.2 ⟨by rw [hs, List.append_assoc, List.cons_append], hkey⟩
    have htrim := trim_surrounded cut.2 (List.forall_mem_nil _) hafter
    rw [List.nil_append] at htrim
    simp only [isCharset, hsome, hsplit, htrim]

theorem isTyped_surrounded (s : List Char) (hbefore : ∀ c ∈ before, isBlank c = true)
    (hafter : ∀ c ∈ after, isBlank c = true) : isTyped (before ++ s ++ after) = isTyped s := by
  have hfront : ';' ∉ before := not_mem_of_blank (by decide) hbefore
  have hback : ';' ∉ after := not_mem_of_blank (by decide) hafter
  cases hparts : parts (· = ';') s with
  | nil => exact absurd hparts (parts_ne_nil _ s)
  | cons media params =>
    obtain ⟨rfl, hmedia, hparams⟩ := join_parts hparts
    rw [isTyped_of_parts hparts]
    rcases List.eq_nil_or_concat params with rfl | ⟨init, last, rfl⟩
    · have hfirst : ';' ∉ before ++ media ++ after := by simp [hfront, hmedia, hback]
      have hwhole := parts_join hfirst (List.forall_mem_nil _)
      rw [List.flatMap_nil, List.append_nil] at hwhole
      rw [List.flatMap_nil, List.append_nil, isTyped_of_parts hwhole,
        isMediaType_surrounded media hbefore hafter]
    · rw [List.concat_eq_append] at hparams ⊢
      obtain ⟨hinit, hlast⟩ := List.forall_mem_append.1 hparams
      have hfirst : ';' ∉ before ++ media := by simp [hfront, hmedia]
      have hmore : ∀ param ∈ init ++ [last ++ after], ';' ∉ param :=
        List.forall_mem_append.2 ⟨hinit, by simpa [hback] using hlast⟩
      have hwhole : parts (· = ';') (before ++ (media ++ (init ++ [last]).flatMap (';' :: ·)) ++
          after) = (before ++ media) :: (init ++ [last ++ after]) := by
        rw [← parts_join hfirst hmore]
        simp
      have hmediaType := isMediaType_surrounded media hbefore (List.forall_mem_nil _)
      rw [List.append_nil] at hmediaType
      rw [isTyped_of_parts hwhole, hmediaType, List.all_append, List.all_append, List.all_cons,
        List.all_cons, isCharset_append last hafter]

theorem IsParam.not_mem (h : IsParam s) : ';' ∉ s := by
  have hblank (c : Char) (hc : isBlank c = true) : c ≠ ';' := by
    rintro rfl
    cases hc
  have hquote (c : Char) (hc : decide (c = '"') = true) : c ≠ ';' := by
    rw [of_decide_eq_true hc]
    decide
  have hcased {word : String} (core : List Char) (hcore : IsCased word core)
      (hword : word.toList.all (fun d => d != ';' && d.toUpper != ';') = true) :
      ∀ c ∈ core, c ≠ ';' := fun c hc => bne_iff_ne.1 (hcore.forall_mem hword c hc)
  obtain ⟨-, name, named⟩ := h
  have hkey := name.forall_mem hblank fun core hcore => hcased core hcore (by decide)
  have hvalue := named.forall_mem hblank fun core hcore =>
    hcore.forall_mem hquote fun inner hinner => hcased inner hinner (by decide)
  intro hmem
  rcases List.mem_append.1 hmem with hmem | hmem
  · exact hkey _ hmem rfl
  · rcases List.mem_cons.1 hmem with heq | hmem
    · cases heq
    · exact hvalue _ hmem rfl

theorem not_mem_of_isMedia {media : List Char} (h : Surrounded isBlank IsMedia media) :
    ';' ∉ media := by
  have hmedia := h.forall_mem (Q := fun c => (c != ';') = true)
    (fun c hc => bne_iff_ne.2 fun heq => by rw [heq] at hc; cases hc)
    fun core hcore => hcore.forall_mem (by decide)
  intro hmem
  cases hmedia _ hmem

theorem isTyped_iff : isTyped s = true ↔ ∃ (media : List Char) (params : List (List Char)),
    s = media ++ params.flatMap (';' :: ·) ∧ Surrounded isBlank IsMedia media ∧
      ∀ param ∈ params, IsParam param := by
  constructor
  · intro h
    cases hparts : parts (· = ';') s with
    | nil => exact absurd hparts (parts_ne_nil _ s)
    | cons media params =>
      rw [isTyped_of_parts hparts, Bool.and_eq_true, List.all_eq_true, isMediaType_iff] at h
      exact ⟨media, params, (join_parts hparts).1, h.1, fun param hparam =>
        isCharset_iff.1 (h.2 param hparam)⟩
  · rintro ⟨media, params, rfl, hmedia, hparams⟩
    rw [isTyped_of_parts (parts_join (not_mem_of_isMedia hmedia) fun param hparam =>
      (hparams param hparam).not_mem), Bool.and_eq_true, List.all_eq_true, isMediaType_iff]
    exact ⟨hmedia, fun param hparam => isCharset_iff.2 (hparams param hparam)⟩

theorem accepted_eq (value : String) : accepted value =
    (decide (trim isBlank value.toList = []) || isTyped (trim isBlank value.toList)) := by
  unfold accepted isTyped
  split
  next h => rw [h]; rfl
  next h => rw [decide_eq_false h]; rfl

theorem accepted_iff {value : String} : accepted value = true ↔ IsAcceptable value.toList := by
  obtain ⟨before, after, hvalue, hbefore, hafter⟩ := exists_trim isBlank value.toList
  have htyped : isTyped value.toList = isTyped (trim isBlank value.toList) := by
    conv_lhs => rw [hvalue]
    exact isTyped_surrounded _ hbefore hafter
  rw [accepted_eq, ← htyped, Bool.or_eq_true, decide_eq_true_iff, trim_eq_nil_iff, isTyped_iff]
  constructor
  · rintro (h | ⟨media, params, h, hmedia, hparams⟩)
    · exact .blank h
    · exact h ▸ .typed hmedia hparams
  · intro h
    generalize value.toList = s at h
    cases h with
    | blank h => exact .inl h
    | typed hmedia hparams => exact .inr ⟨_, _, rfl, hmedia, hparams⟩

theorem not_isAcceptable_of_gap {front gap back : List Char} (hs : s = front ++ ';' :: gap ++ back)
    (hgap : ∀ c ∈ gap, isBlank c = true) (hback : back = [] ∨ back.head? = some ';') :
    ¬IsAcceptable s := by
  have hnone : parts (· = ';') gap = [gap] := parts_of_none fun c hc =>
    decide_eq_false fun heq => not_mem_of_blank (by decide) hgap (heq ▸ hc)
  have hmem : gap ∈ parts (· = ';') (gap ++ back) := by
    cases back with
    | nil => simp [hnone]
    | cons c rest =>
      obtain rfl : c = ';' := by simpa using hback
      rw [parts_append_cons _ _ (decide_eq_true rfl), hnone]
      exact List.mem_cons_self
  rintro (h | @⟨media, params, type, all⟩)
  · have hblank := h ';' (by simp [hs])
    cases hblank
  · have hparts : media :: params = parts (· = ';') front ++ parts (· = ';') (gap ++ back) := by
      rw [← parts_append_cons _ _ (decide_eq_true rfl), ← List.cons_append, ← List.append_assoc,
        ← hs, parts_join (not_mem_of_isMedia type) fun param hparam => (all param hparam).not_mem]
    have hparam : gap ∈ params := by
      cases hfront : parts (· = ';') front with
      | nil => exact absurd hfront (parts_ne_nil _ front)
      | cons first more =>
        rw [hfront, List.cons_append] at hparts
        rw [(List.cons.inj hparts).2]
        exact List.mem_append_right _ hmem
    obtain ⟨-, -, -⟩ := all gap hparam
    have hblank := hgap '=' (by simp)
    cases hblank

structure IsCore (value core : String) : Prop where
  whole : Surrounded isBlank (· = core.toList) value.toList
  first : ∀ c ∈ core.toList.head?, isBlank c = false
  last : ∀ c ∈ core.toList.getLast?, isBlank c = false

theorem isCore_trimmed (value : String) : IsCore value (trimmed value) := by
  have htext : (trimmed value).toList = trim isBlank value.toList := String.toList_ofList
  refine ⟨?_, fun c hc => head_trim (htext ▸ hc), fun c hc => last_trim (htext ▸ hc)⟩
  obtain ⟨before, after, hvalue, hbefore, hafter⟩ := exists_trim isBlank value.toList
  rw [hvalue, htext]
  exact .intro hbefore rfl hafter

section Refused

variable {value : String} (h : accepted value = false)
include h

theorem check_of_refused :
    Document.checkContentType value = .error (.contentType (trimmed value)) := by
  rw [Document.checkContentType, h]
  rfl

theorem read_of_refused {σ : Type} (sch : Markup.Schema σ) (item : String) (body : ByteArray) :
    Document.read sch item value body = .error (.contentType (trimmed value)) := by
  rw [Document.read, h]
  rfl

theorem decodeRequest_of_refused (body : ByteArray) :
    Request.decode value body = .error (.contentType (trimmed value)) := by
  rw [Request.decode, read_of_refused h]
  rfl

theorem decodeResponse_of_refused (body : ByteArray) :
    Response.decode value body = .error (.contentType (trimmed value)) := by
  rw [Response.decode, read_of_refused h]
  rfl

end Refused

theorem checkContentType_grammar (value : String) :
    (Document.checkContentType value = .ok () ↔ IsAcceptable value.toList) ∧
    (¬IsAcceptable value.toList → ∃ core, IsCore value core ∧
      Document.checkContentType value = .error (.contentType core) ∧
      ∀ body, Request.decode value body = .error (.contentType core) ∧
        Response.decode value body = .error (.contentType core)) ∧
    ∀ front gap back, value.toList = front ++ ';' :: gap ++ back → (∀ c ∈ gap, isBlank c = true) →
      back = [] ∨ back.head? = some ';' → ¬IsAcceptable value.toList := by
  refine ⟨?_, fun h => ?_, fun front gap back => not_isAcceptable_of_gap⟩
  · rw [← accepted_iff, Document.checkContentType]
    cases accepted value <;> simp
  · have hrefused : accepted value = false := by
      rwa [← accepted_iff, Bool.not_eq_true] at h
    exact ⟨trimmed value, isCore_trimmed value, check_of_refused hrefused, fun body =>
      ⟨decodeRequest_of_refused hrefused body, decodeResponse_of_refused hrefused body⟩⟩

theorem checkContentType_trailing :
    ¬IsAcceptable "\u00a0Text/XML ; charset = \"UTF-8\" ; ".toList ∧
    Document.checkContentType "\u00a0Text/XML ; charset = \"UTF-8\"" = .ok () := by
  refine ⟨(checkContentType_grammar _).2.2 "\u00a0Text/XML ; charset = \"UTF-8\" ".toList " ".toList
    [] (by decide) (List.all_eq_true.1 (by decide)) (.inl rfl), ?_⟩
  rfl

end ContentType

end UpdateProtocol
