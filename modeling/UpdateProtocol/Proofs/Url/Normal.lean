import Mathlib.Tactic.FinCases
import UpdateProtocol.Proofs.Url.Authority

namespace UpdateProtocol

open UpdateProtocol.Text

namespace UrlPath

structure IsSegment (segment : List Char) : Prop where
  encoded : IsEncoded escapedInPath segment
  whole : ∀ c ∈ segment, c ≠ '/' ∧ c ≠ '\\'
  notHere : isHere segment = false
  notAbove : isAbove segment = false

structure IsNormal (list : List (List Char)) : Prop where
  ne_nil : list ≠ []
  segment : ∀ segment ∈ list, IsSegment segment

variable {list done : List (List Char)}

theorem append_eq (done : List (List Char)) (segment : List Char) :
    append false done segment = segment :: done := by
  unfold append
  split <;> rfl

theorem resolve_eq (hlist : ∀ segment ∈ list, IsSegment segment) (done : List (List Char)) :
    resolve false done list = done.reverse ++ list := by
  induction list generalizing done with
  | nil => simp [resolve]
  | cons segment rest ih =>
    obtain ⟨hsegment, hrest⟩ := List.forall_mem_cons.1 hlist
    have habove : ¬isAbove segment = true := by simp [hsegment.notAbove]
    have hhere : ¬isHere segment = true := by simp [hsegment.notHere]
    cases rest with
    | nil => rw [resolve, if_neg habove, if_neg hhere, append_eq, List.reverse_cons]
    | cons next rest =>
      rw [resolve, if_neg habove, if_neg hhere, append_eq, ih hrest, List.reverse_cons]
      · simp
      · exact List.cons_ne_nil next rest

theorem IsNormal.read_text (h : IsNormal list) :
    read true false (text (.segments list)) = .segments list := by
  cases list with
  | nil => exact absurd rfl h.ne_nil
  | cons first more =>
    obtain ⟨hfirst, hmore⟩ := List.forall_mem_cons.1 h.segment
    have hslash {segment : List Char} (hsegment : IsSegment segment) : '/' ∉ segment :=
      fun hmem => (hsegment.whole _ hmem).1 rfl
    have hback : ∀ c ∈ first ++ more.flatMap ('/' :: ·), c ≠ '\\' := by
      simp only [List.mem_append, List.mem_flatMap, List.mem_cons]
      rintro c (hc | ⟨segment, hsegment, rfl | hc⟩)
      · exact (hfirst.whole c hc).2
      · decide
      · exact ((hmore segment hsegment).whole c hc).2
    have hparts : parts (fun c => decide (c = '/') || (true && decide (c = '\\')))
        (first ++ more.flatMap ('/' :: ·)) = first :: more := by
      rw [parts_congr (q := (· = '/')) fun c hc => by simp [hback c hc]]
      exact parts_join (hslash hfirst) fun segment hsegment => hslash (hmore segment hsegment)
    have hencoded : (first :: more).map (percentEncode escapedInPath) = first :: more :=
      (List.map_congr_left fun segment hsegment =>
        percentEncode_of_isEncoded (h.segment segment hsegment).encoded).trans (List.map_id _)
    rw [text, List.flatMap_cons, List.cons_append, read]
    simp only [decide_true, Bool.true_or, if_true, hparts, hencoded]
    rw [resolve_eq h.segment, List.reverse_nil, List.nil_append]

theorem IsNormal.text_eq_cons (h : IsNormal list) : ∃ s, text (.segments list) = '/' :: s := by
  cases list with
  | nil => exact absurd rfl h.ne_nil
  | cons first more => exact ⟨_, rfl⟩

theorem IsNormal.isKept_text (h : IsNormal list) :
    ∀ c ∈ text (.segments list), Url.isKept c = true := by
  have hkept : ∀ n < 0x80, escapedInPath (Char.ofNat n) = false →
      Url.isKept (Char.ofNat n) = true := by decide +kernel
  intro c hc
  obtain ⟨segment, hsegment, hc⟩ := List.mem_flatMap.1 hc
  rcases List.mem_cons.1 hc with rfl | hc
  · rfl
  · exact (h.segment segment hsegment).encoded.forall_mem hkept c hc

end UrlPath

namespace Url

structure IsNormal [Idna] (u : Url) : Prop where
  authority : ∃ port a, webSchemes.lookup u.scheme = some port ∧ u.authority = some a ∧
    a.IsNormal port
  path : ∃ list, u.path = .segments list ∧ UrlPath.IsNormal list
  query : ∀ query ∈ u.query, IsEncoded escapedInWebQuery query
  fragment : ∀ fragment ∈ u.fragment, IsEncoded escapedInFragment fragment

variable {u : Url} {scheme s : List Char} {port : Nat}

theorem stripped_eq (h : ∀ c ∈ s, isOuter c = false) : stripped s = s := by
  have hwhole : s.dropWhile isOuter = s := by
    cases s with
    | nil => rfl
    | cons c rest => exact List.dropWhile_cons_of_neg (by simp [h c List.mem_cons_self])
  have htrim : trimEnd isOuter s = s :=
    trimEnd_eq_self_iff.2 fun c hc => h c (List.mem_of_mem_getLast? hc)
  change (trimEnd isOuter (s.dropWhile isOuter)).filter (fun c => !isBreak c) = s
  rw [hwhole, htrim]
  exact List.filter_eq_self.2 fun c hc => by simp [isBreak_of_not_isOuter (h c hc)]

def marked (mark : Char) (part : Option (List Char)) : List Char :=
  match part with
  | some s => mark :: s
  | none => []

theorem cutAt_marked {mark : Char} {front : List Char} (h : mark ∉ front)
    (part : Option (List Char)) : cutAt mark (front ++ marked mark part) = (front, part) := by
  cases part with
  | none => rw [marked, List.append_nil, cutAt_of_not_mem h]
  | some s => rw [marked, cutAt_append h]

theorem toList_text {a : Authority} (ha : u.authority = some a) :
    u.text.toList = u.scheme ++ ':' :: ("//".toList ++ a.text ++ u.path.text ++
      marked '?' u.query ++ marked '#' u.fragment) := by
  rw [text, ha, String.toList_ofList]
  change u.scheme ++ ':' :: '/' :: '/' :: a.text ++ u.path.text ++ marked '?' u.query ++
    marked '#' u.fragment = _
  simp

theorem scheme_mem (hport : webSchemes.lookup scheme = some port) :
    scheme ∈ webSchemes.map Prod.fst := by
  obtain ⟨before, after, hlist, -⟩ := List.lookup_eq_some_iff.1 hport
  rw [hlist]
  simp

theorem splitScheme?_web (hport : webSchemes.lookup scheme = some port) (s : List Char) :
    splitScheme? (scheme ++ ':' :: s) = some (scheme, s) := by
  have hmem := scheme_mem hport
  have hcolon : ':' ∉ scheme := by
    have hall : ∀ scheme ∈ webSchemes.map Prod.fst, ':' ∉ scheme := by decide
    exact hall scheme hmem
  rw [splitScheme?, splitFirst?_eq_some_iff.2 ⟨rfl, hcolon⟩]
  fin_cases hmem <;> rfl

theorem kept_of_isMark {c : Char} (h : c = '@' ∨ Host.isMark c = false) :
    isKept c = true ∧ isWebSlash c = false := by
  rcases h with rfl | h
  · exact ⟨rfl, rfl⟩
  · rw [Host.isMark, Bool.or_eq_false_iff, decide_eq_false_iff_not] at h
    obtain ⟨hmarks, houter⟩ := h
    simp only [List.mem_cons, List.not_mem_nil, or_false, not_or] at hmarks
    simp [isKept, isOuter, houter, isWebSlash, hmarks]

section Reading

variable [Idna]

theorem IsNormal.readWeb_text (h : u.IsNormal) {a : Authority} (ha : a.IsNormal port) :
    readWeb scheme port ("//".toList ++ a.text ++ u.path.text) =
      .ok { scheme, authority := some a, path := u.path } := by
  have hslash : ∀ c ∈ a.text, isWebSlash c = false := fun c hc =>
    (kept_of_isMark (ha.mem_text hc)).2
  obtain ⟨list, hpath, hlist⟩ := h.path
  obtain ⟨s, hs⟩ := hlist.text_eq_cons
  rw [hpath, hs, readWeb_slashes ha.text_ne_nil hslash, ha.read_text, ← hs, hlist.read_text]
  rfl

theorem IsNormal.isKept_main (h : u.IsNormal) {a : Authority} (ha : a.IsNormal port) :
    ∀ c ∈ "//".toList ++ a.text ++ u.path.text, isKept c = true := by
  obtain ⟨list, hpath, hlist⟩ := h.path
  rw [hpath, List.forall_mem_append, List.forall_mem_append]
  exact ⟨⟨List.all_eq_true.1 (by decide), fun c hc => (kept_of_isMark (ha.mem_text hc)).1⟩,
    hlist.isKept_text⟩

theorem IsNormal.query_plain (h : u.IsNormal) :
    ∀ c ∈ marked '?' u.query, isOuter c = false ∧ c ≠ '#' := by
  have hplain : ∀ n < 0x80, escapedInWebQuery (Char.ofNat n) = false →
      (!isOuter (Char.ofNat n) && Char.ofNat n ≠ '#') = true := by decide +kernel
  cases hquery : u.query with
  | none => exact List.forall_mem_nil _
  | some query =>
    refine List.forall_mem_cons.2 ⟨by decide, fun c hc => ?_⟩
    simpa using (h.query query hquery).forall_mem (p := fun c => !isOuter c && c ≠ '#') hplain c hc

theorem IsNormal.fragment_plain (h : u.IsNormal) :
    ∀ c ∈ marked '#' u.fragment, isOuter c = false := by
  have hplain : ∀ n < 0x80, escapedInFragment (Char.ofNat n) = false →
      (!isOuter (Char.ofNat n)) = true := by decide +kernel
  cases hfragment : u.fragment with
  | none => exact List.forall_mem_nil _
  | some fragment =>
    refine List.forall_mem_cons.2 ⟨by decide, fun c hc => ?_⟩
    simpa using (h.fragment fragment hfragment).forall_mem (p := fun c => !isOuter c) hplain c hc

theorem IsNormal.parse_text (h : u.IsNormal) : parse u.text = .ok u := by
  obtain ⟨port, a, hport, ha, hnormal⟩ := h.authority
  have hkept := h.isKept_main hnormal
  have hmain {mark : Char} (hmark : isKept mark = false) :
      mark ∉ "//".toList ++ a.text ++ u.path.text :=
    fun hmem => Bool.false_ne_true (hmark.symm.trans (hkept mark hmem))
  have hfront : '#' ∉ "//".toList ++ a.text ++ u.path.text ++ marked '?' u.query := by
    rw [List.mem_append, not_or]
    exact ⟨hmain rfl, fun hmem => (h.query_plain _ hmem).2 rfl⟩
  have hscheme : ∀ c ∈ u.scheme, isOuter c = false := by
    have hall : ∀ scheme ∈ webSchemes.map Prod.fst, scheme.any isOuter = false := by decide
    simpa using hall u.scheme (scheme_mem hport)
  have hinner : ∀ c ∈ u.text.toList, isOuter c = false := by
    rw [toList_text ha, List.forall_mem_append, List.forall_mem_cons, List.forall_mem_append,
      List.forall_mem_append]
    exact ⟨hscheme, rfl, ⟨fun c hc => isOuter_of_isKept (hkept c hc),
      fun c hc => (h.query_plain c hc).1⟩, h.fragment_plain⟩
  have hweb : isWeb u.scheme = true := by
    rw [isWeb, hport]
    rfl
  have hquery : u.query.map (percentEncode escapedInWebQuery) = u.query :=
    (Option.map_congr fun query hquery => percentEncode_of_isEncoded (h.query query hquery)).trans
      Option.map_id'
  have hfragment : u.fragment.map (percentEncode escapedInFragment) = u.fragment :=
    (Option.map_congr fun fragment hfragment =>
      percentEncode_of_isEncoded (h.fragment fragment hfragment)).trans Option.map_id'
  rw [parse, stripped_eq hinner, toList_text ha, splitScheme?_web hport]
  dsimp only
  rw [cutAt_marked hfront]
  dsimp only
  rw [cutAt_marked (hmain rfl)]
  dsimp only
  rw [readMain, hport]
  dsimp only
  rw [h.readWeb_text hnormal, if_pos hweb, Except.map]
  dsimp only
  rw [hquery, hfragment, ← ha]

end Reading

end Url

end UpdateProtocol
