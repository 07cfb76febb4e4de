import UpdateProtocol.Url.Basic
import UpdateProtocol.Proofs.Text.Percent
import UpdateProtocol.Proofs.Text.Pieces

namespace UpdateProtocol

open UpdateProtocol.Text

namespace Url

def isOuter (c : Char) : Bool := c.toNat ≤ 0x20

def isBreak (c : Char) : Bool := c = '\t' || c = '\n' || c = '\x0d'

def pathPart (s : List Char) : List Char :=
  (((trimEnd isOuter s).filter fun c => !isBreak c).takeWhile (· ≠ '#')).takeWhile (· ≠ '?')

variable {s front : List Char}

theorem pathPart_sublist (s : List Char) : (pathPart s).Sublist s :=
  (List.takeWhile_prefix _).sublist.trans <| (List.takeWhile_prefix _).sublist.trans <|
    List.filter_sublist.trans (List.rdropWhile_prefix isOuter s).sublist

theorem pathPart_eq_self_iff : pathPart s = s ↔
    (∀ c ∈ s, c ∉ ['?', '#', '\t', '\n', '\x0d']) ∧ ∀ c ∈ s.getLast?, 0x20 < c.toNat := by
  have hlast : (∀ c ∈ s.getLast?, 0x20 < c.toNat) ↔ trimEnd isOuter s = s := by
    rw [trimEnd_eq_self_iff]
    simp [isOuter]
  rw [hlast]
  constructor
  · intro h
    have hkept : s.Sublist (trimEnd isOuter s) := by
      conv_lhs => rw [← h]
      exact (List.takeWhile_prefix _).sublist.trans
        ((List.takeWhile_prefix _).sublist.trans List.filter_sublist)
    refine ⟨fun c hc => ?_, (List.rdropWhile_prefix isOuter s).sublist.antisymm hkept⟩
    rw [← h, pathPart] at hc
    have hquestion := List.mem_takeWhile_imp hc
    have hrest := (List.takeWhile_prefix _).subset hc
    have hnumber := List.mem_takeWhile_imp hrest
    have hbreak := (List.mem_filter.1 ((List.takeWhile_prefix _).subset hrest)).2
    simp only [isBreak, Bool.not_eq_true', Bool.or_eq_false_iff, decide_eq_false_iff_not] at hbreak
    simp only [decide_eq_true_iff] at hquestion hnumber
    simp [hquestion, hnumber, hbreak]
  · rintro ⟨hmarks, htrim⟩
    have hfilter : s.filter (fun c => !isBreak c) = s := List.filter_eq_self.2 fun c hc => by
      have hc := hmarks c hc
      simp only [List.mem_cons, List.not_mem_nil, or_false, not_or] at hc
      simp [isBreak, hc]
    have htake {d : Char} (hd : d ∈ ['?', '#', '\t', '\n', '\x0d']) : s.takeWhile (· ≠ d) = s :=
      List.takeWhile_eq_self_iff.2 fun c hc => decide_eq_true fun heq => hmarks c hc (heq ▸ hd)
    rw [pathPart, htrim, hfilter, htake (by decide), htake (by decide)]

def isKept (c : Char) : Bool := !isOuter c && c ≠ '?' && c ≠ '#'

theorem isOuter_of_isKept {c : Char} (h : isKept c = true) : isOuter c = false := by
  rw [isKept, Bool.and_eq_true, Bool.and_eq_true, Bool.not_eq_true'] at h
  exact h.1.1

theorem isBreak_of_not_isOuter {c : Char} (h : isOuter c = false) : isBreak c = false := by
  rw [isBreak, Bool.or_eq_false_iff, Bool.or_eq_false_iff, decide_eq_false_iff_not,
    decide_eq_false_iff_not, decide_eq_false_iff_not]
  refine ⟨⟨?_, ?_⟩, ?_⟩ <;> rintro rfl <;> cases h

theorem stripped_append (hne : front ≠ []) (hfront : front.all isKept = true) (s : List Char) :
    stripped (front ++ s) = front ++ (trimEnd isOuter s).filter fun c => !isBreak c := by
  change (trimEnd isOuter ((front ++ s).dropWhile isOuter)).filter (fun c => !isBreak c) = _
  have hinner (c : Char) (hc : c ∈ front) : isOuter c = false :=
    isOuter_of_isKept (List.all_eq_true.1 hfront c hc)
  have hwhole : (front ++ s).dropWhile isOuter = front ++ s := by
    cases front with
    | nil => exact absurd rfl hne
    | cons c front => exact List.dropWhile_cons_of_neg (by simp [hinner c List.mem_cons_self])
  have htrim : trimEnd isOuter front = front :=
    trimEnd_eq_self_iff.2 fun c hc => hinner c (List.mem_of_mem_getLast? hc)
  have hfilter : front.filter (fun c => !isBreak c) = front :=
    List.filter_eq_self.2 fun c hc => by
      rw [isBreak_of_not_isOuter (hinner c hc)]
      rfl
  rw [hwhole, trimEnd_append_kept htrim, List.filter_append, hfilter]

theorem takeWhile_append_of_isKept {d : Char} (hd : isKept d = false)
    (hfront : front.all isKept = true) (s : List Char) :
    (front ++ s).takeWhile (· ≠ d) = front ++ s.takeWhile (· ≠ d) := by
  refine List.takeWhile_append_of_pos fun c hc => decide_eq_true ?_
  rintro rfl
  exact Bool.false_ne_true (hd.symm.trans (List.all_eq_true.1 hfront c hc))

variable [Idna]

theorem parse_of_web {text : String} {scheme after : List Char} {port : Nat} {url : Url}
    (hscheme : splitScheme? (stripped text.toList) = some (scheme, after))
    (hport : webSchemes.lookup scheme = some port)
    (hread : readWeb scheme port ((after.takeWhile (· ≠ '#')).takeWhile (· ≠ '?')) = .ok url) :
    ∃ query fragment, parse text = .ok { url with query, fragment } := by
  have hmain : readMain scheme (cutAt '?' (cutAt '#' after).1).1 = .ok url := by
    rw [readMain, hport, cutAt_fst, cutAt_fst]
    exact hread
  simp only [parse, hscheme, hmain]
  exact ⟨_, _, rfl⟩

theorem readWeb_slashes {scheme address : List Char} (hne : address ≠ [])
    (hslash : ∀ c ∈ address, isWebSlash c = false) (port : Nat) (s : List Char) :
    readWeb scheme port ("//".toList ++ address ++ '/' :: s) =
      (Authority.read true true (some port) address).map fun a =>
        { scheme, authority := some a, path := .read true false ('/' :: s) } := by
  have hpass : ∀ c ∈ address, (!isWebSlash c) = true := fun c hc => by simp [hslash c hc]
  have hslashes : ("//".toList ++ address ++ '/' :: s).dropWhile isWebSlash =
      address ++ '/' :: s := by
    rw [List.append_assoc, List.dropWhile_append_of_pos (List.all_eq_true.1 (by decide))]
    cases address with
    | nil => exact absurd rfl hne
    | cons c rest =>
      exact List.dropWhile_cons_of_neg (by simpa using hslash c List.mem_cons_self)
  have hafter : (address ++ '/' :: s).dropWhile (fun c => !isWebSlash c) = '/' :: s := by
    rw [List.dropWhile_append_of_pos hpass]
    rfl
  have hbefore : (address ++ '/' :: s).takeWhile (fun c => !isWebSlash c) = address := by
    rw [List.takeWhile_append_of_pos hpass]
    exact List.append_nil _
  rw [readWeb, hslashes, hafter, hbefore]
  rfl

/-- The text of an address to which a server is bound, as it stands in a URL. -/
structure IsBound (host : String) (a : Authority) : Prop where
  plain : ∀ c ∈ host.toList, 0x20 < c.toNat ∧ c ∉ ['/', '\\', '?', '#']
  read : Authority.read true true (some 80) host.toList = .ok a

variable {host : String} {a : Authority} {dir : List Char}

theorem IsBound.isKept (h : IsBound host a) : host.toList.all isKept = true := by
  refine List.all_eq_true.2 fun c hc => ?_
  obtain ⟨hlt, hmarks⟩ := h.plain c hc
  simp only [List.mem_cons, List.not_mem_nil, or_false, not_or] at hmarks
  simp [Url.isKept, isOuter, hlt, hmarks]

theorem IsBound.ne_nil (h : IsBound host a) : host.toList ≠ [] := by
  intro hnil
  have hread := h.read
  rw [hnil] at hread
  cases hread

theorem readWeb_append (hbound : IsBound host a) (s : List Char) :
    readWeb "http".toList 80 ("//".toList ++ host.toList ++ '/' :: s) =
      .ok { scheme := "http".toList, authority := some a, path := .read true false ('/' :: s) } := by
  have hslash : ∀ c ∈ host.toList, isWebSlash c = false := by
    intro c hc
    have hplain := (hbound.plain c hc).2
    simp only [List.mem_cons, List.not_mem_nil, or_false, not_or] at hplain
    simp [isWebSlash, hplain]
  rw [readWeb_slashes hbound.ne_nil hslash, hbound.read]
  rfl

theorem parse_append (hbound : IsBound host a) (hdir : dir.all isKept = true) (s : List Char) :
    ∃ url,
      parse (String.ofList ("http://".toList ++ host.toList ++ '/' :: dir ++ s)) = .ok url ∧
        url.authority = some a ∧ url.path = .read true false ('/' :: dir ++ pathPart s) := by
  let front := "http://".toList ++ host.toList ++ '/' :: dir
  let after := "//".toList ++ host.toList ++ '/' :: dir
  let rest := (trimEnd isOuter s).filter fun c => !isBreak c
  have hall (word : List Char) (hword : word.all isKept = true) :
      (word ++ host.toList ++ '/' :: dir).all isKept = true := by
    rw [List.all_append, List.all_append, List.all_cons, hword, hbound.isKept, hdir]
    rfl
  have hfront : front.all isKept = true := hall "http://".toList (by decide)
  have hafter : after.all isKept = true := hall "//".toList (by decide)
  have hne : front ≠ [] := List.append_ne_nil_of_right_ne_nil _ (List.cons_ne_nil _ _)
  have hstripped : stripped (String.ofList (front ++ s)).toList = front ++ rest := by
    rw [String.toList_ofList, stripped_append hne hfront]
  have hscheme : splitScheme? (front ++ rest) = some ("http".toList, after ++ rest) := by
    rw [splitScheme?, splitFirst?_eq_some_iff.2 (⟨rfl, by decide⟩ :
      front ++ rest = "http".toList ++ ':' :: (after ++ rest) ∧ ':' ∉ "http".toList)]
    rfl
  have hmain : ((after ++ rest).takeWhile (· ≠ '#')).takeWhile (· ≠ '?') =
      "//".toList ++ host.toList ++ '/' :: (dir ++ pathPart s) := by
    rw [takeWhile_append_of_isKept (by decide) hafter,
      takeWhile_append_of_isKept (by decide) hafter, List.append_assoc]
    rfl
  obtain ⟨query, fragment, hparse⟩ := parse_of_web (hstripped ▸ hscheme) rfl
    (hmain ▸ readWeb_append hbound (dir ++ pathPart s))
  exact ⟨_, hparse, rfl, rfl⟩

end Url

namespace UrlPath

open String (utf8EncodeChar)

variable {s t : List Char}

theorem eq_nil_of_dots (h : dots s = []) : s = [] := by
  unfold dots at h
  split at h
  · split at h <;> cases h
  · cases h
  · rfl

theorem dots_eq_cons (h : dots s = '.' :: t) : ∃ s', dots s' = t ∧
    percentDecodeBytes (s.flatMap utf8EncodeChar) =
      0x2E :: percentDecodeBytes (s'.flatMap utf8EncodeChar) := by
  unfold dots at h
  split at h
  next e rest =>
    split at h
    next he =>
      refine ⟨rest, (List.cons.inj h).2, ?_⟩
      rw [Bool.or_eq_true, decide_eq_true_iff, decide_eq_true_iff] at he
      have htwo : hexByte? 0x32 = some 2 := rfl
      rcases he with rfl | rfl
      · exact decode_escape htwo (rfl : hexByte? 0x65 = some 14)
      · exact decode_escape htwo (rfl : hexByte? 0x45 = some 14)
    next => cases h
  next c rest _ =>
    obtain ⟨rfl, hrest⟩ := List.cons.inj h
    refine ⟨rest, hrest, decode_kept ?_⟩
    rintro ⟨high, low, more, hbytes, -⟩
    cases (List.cons.inj hbytes).1
  next => cases h

theorem decode_of_isHere (h : isHere s = true) :
    percentDecodeBytes (s.flatMap utf8EncodeChar) = [0x2E] := by
  obtain ⟨s', hs', hbytes⟩ := dots_eq_cons (of_decide_eq_true h)
  rw [hbytes, eq_nil_of_dots hs']
  rfl

theorem decode_of_isAbove (h : isAbove s = true) :
    percentDecodeBytes (s.flatMap utf8EncodeChar) = [0x2E, 0x2E] := by
  obtain ⟨s', hs', hbytes⟩ := dots_eq_cons (of_decide_eq_true h)
  obtain ⟨s'', hs'', hbytes'⟩ := dots_eq_cons hs'
  rw [hbytes, hbytes', eq_nil_of_dots hs'']
  rfl

theorem kept_in_path (b : UInt8) (hb : IsHexByte b) :
    b < 0x80 ∧ escapedInPath (Char.ofNat b.toNat) = false := by
  have hall : "0123456789abcdefABCDEF".toList.all (fun c => !escapedInPath c) = true := by decide
  obtain ⟨hlt, hdigit⟩ := isHexByte_iff.1 hb
  exact ⟨hlt, by simpa using List.all_eq_true.1 hall _ hdigit⟩

end UrlPath

/-- A name that arrives at the server as it is. -/
structure IsPlain (name : String) : Prop where
  dots : name ≠ "." ∧ name ≠ ".."
  unmarked : ∀ c ∈ name.toList, c ∉ ['?', '#', '\t', '\n', '\x0d']
  last : ∀ c ∈ name.toList.getLast?, 0x20 < c.toNat
  unescaped : Unescaped name.toList

def encodedName (name : String) : List Char :=
  percentEncode escapedInPath (Url.pathPart name.toList)

section Name

open String (utf8EncodeChar)

variable {name : String}

theorem percentDecode?_encodedName : percentDecode? (String.ofList (encodedName name)) = some name ↔
    Url.pathPart name.toList = name.toList ∧ Unescaped name.toList := by
  rw [percentDecode?_eq_some_iff, String.toList_ofList, encodedName,
    decode_percentEncode rfl UrlPath.kept_in_path,
    decode_eq_iff_of_sublist (Url.pathPart_sublist _)]

theorem isPlain_iff : IsPlain name ↔
    percentDecode? (String.ofList (encodedName name)) = some name ∧
      UrlPath.isHere (encodedName name) = false ∧ UrlPath.isAbove (encodedName name) = false := by
  constructor
  · intro h
    have hname := percentDecode?_encodedName.2
      ⟨Url.pathPart_eq_self_iff.2 ⟨h.unmarked, h.last⟩, h.unescaped⟩
    have hbytes := percentDecode?_eq_some_iff.1 hname
    rw [String.toList_ofList] at hbytes
    have hdots {dots : String} (hdots : name.toList.flatMap utf8EncodeChar =
        dots.toList.flatMap utf8EncodeChar) : name = dots :=
      String.toList_inj.1 (flatMap_utf8EncodeChar_inj.1 hdots)
    refine ⟨hname, ?_, ?_⟩
    · rw [← Bool.not_eq_true]
      intro hhere
      exact h.dots.1 (hdots (hbytes.symm.trans (UrlPath.decode_of_isHere hhere)))
    · rw [← Bool.not_eq_true]
      intro habove
      exact h.dots.2 (hdots (hbytes.symm.trans (UrlPath.decode_of_isAbove habove)))
  · rintro ⟨hname, hhere, habove⟩
    obtain ⟨hpart, hunescaped⟩ := percentDecode?_encodedName.1 hname
    obtain ⟨hunmarked, hlast⟩ := Url.pathPart_eq_self_iff.1 hpart
    refine ⟨⟨?_, ?_⟩, hunmarked, hlast, hunescaped⟩
    · rintro rfl
      exact absurd hhere (by decide)
    · rintro rfl
      exact absurd habove (by decide)

end Name

end UpdateProtocol
