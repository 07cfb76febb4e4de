import Mathlib.Data.List.TakeDrop
import UpdateProtocol.Proofs.Table
import UpdateProtocol.Proofs.Toml.Number
import UpdateProtocol.Proofs.Toml.Spelling
import UpdateProtocol.Toml.Document

namespace UpdateProtocol.Toml

structure Pair where
  key : String
  value : Toml
  text : List Char

def IsBare (name : String) : Prop := name.toList ≠ [] ∧ ∀ c ∈ name.toList, isBare c = true

structure Pair.IsWritten (p : Pair) : Prop where
  key : IsBare p.key
  noGap : ∀ c ∈ p.text.head?, isGap c = false
  noReturn : '\x0d' ∉ p.text
  read : ∀ rest, value? maxDepth (p.text ++ '\n' :: rest) = some (p.value, '\n' :: rest)

inductive Line where
  | blank
  | header (name : String)
  | pair (p : Pair)

namespace Line

def text : Line → List Char
  | blank => ['\n']
  | header name => '[' :: name.toList ++ [']', '\n']
  | pair p => p.key.toList ++ " = ".toList ++ p.text ++ ['\n']

def IsWritten : Line → Prop
  | blank => True
  | header name => IsBare name
  | pair p => p.IsWritten

def read? (state : List String × Entries) : Line → Option (List String × Entries)
  | blank => some state
  | header name => (startTable [] name state.2).map fun root => ([name], root)
  | pair p => (insertBelow state.1 [] p.key p.value state.2).map fun root => (state.1, root)

end Line

section Reading

variable {name : String} {rest s : List Char} {root : Entries} {header : List String} {p : Pair}

theorem bare_ne {c d : Char} (hc : isBare c = true) (hd : isBare d = false) : c ≠ d := by
  rintro rfl
  exact Bool.false_ne_true (hd.symm.trans hc)

theorem IsBare.eq_cons (h : IsBare name) : ∃ c more, name.toList = c :: more ∧ isBare c = true := by
  obtain ⟨hne, hbare⟩ := h
  cases hname : name.toList with
  | nil => exact absurd hname hne
  | cons c more => exact ⟨c, more, rfl, hbare c (hname ▸ List.mem_cons_self)⟩

theorem isGap_of_isBare {c : Char} (hc : isBare c = true) : isGap c = false := by
  rw [isGap, Bool.or_eq_false_iff, decide_eq_false_iff_not, decide_eq_false_iff_not]
  exact ⟨bare_ne hc rfl, bare_ne hc rfl⟩

theorem skipGaps_of_head (h : ∀ c ∈ s.head?, isGap c = false) : skipGaps s = s := by
  cases s with
  | nil => rfl
  | cons c s => exact List.dropWhile_cons_of_neg (by simpa using h c rfl)

theorem skipGaps_name (h : IsBare name) (rest : List Char) :
    skipGaps (name.toList ++ rest) = name.toList ++ rest := by
  refine skipGaps_of_head fun c hc => isGap_of_isBare (h.2 c ?_)
  rw [List.head?_append_of_ne_nil _ h.1] at hc
  exact List.mem_of_mem_head? hc

theorem keyPart?_name (h : IsBare name) {rest : List Char}
    (hend : ∀ c ∈ rest.head?, isBare c = false) :
    keyPart? (name.toList ++ rest) = some (name, rest) := by
  have hspan : (name.toList ++ rest).span isBare = (name.toList, rest) := by
    rw [List.span_eq_takeWhile_dropWhile, List.takeWhile_append_of_pos h.2,
      List.dropWhile_append_of_pos h.2]
    cases rest with
    | nil => rw [List.takeWhile_nil, List.append_nil, List.dropWhile_nil]
    | cons c rest =>
      have hc : ¬isBare c = true := by simp [hend c rfl]
      rw [List.takeWhile_cons_of_neg hc, List.append_nil, List.dropWhile_cons_of_neg hc]
  rw [keyPart?, hspan]
  split
  next heq => exact absurd (Prod.mk.inj heq).1 h.1
  next heq =>
    obtain ⟨rfl, rfl⟩ := Prod.mk.inj heq
    rw [String.ofList_toList]

theorem key?_name (h : IsBare name) {c d : Char} {tail : List Char} (hend : isBare c = false)
    (hskip : skipGaps (c :: rest) = d :: tail) (hdot : d ≠ '.') :
    key? maxDepth (name.toList ++ c :: rest) = some (([], name), d :: tail) := by
  have hpart : keyPart? (name.toList ++ c :: rest) = some (name, c :: rest) :=
    keyPart?_name h fun e he => by cases he; exact hend
  rw [maxDepth, key?, skipGaps_name h, hpart, Option.bind_eq_bind, Option.bind_some]
  dsimp only
  rw [hskip]
  split
  next heq => exact absurd (List.cons.inj heq).1 hdot
  next => rfl

theorem lines?_blank (limit : Nat) (header : List String) (root : Entries) (rest : List Char) :
    lines? (limit + 1) header root (Line.blank.text ++ rest) = lines? limit header root rest := by
  rw [lines?]
  rfl

theorem lines?_header (h : IsBare name) (limit : Nat) (header : List String) (root : Entries)
    (rest : List Char) : lines? (limit + 1) header root ((Line.header name).text ++ rest) =
      (startTable [] name root).bind fun root => lines? limit [name] root rest := by
  have hshape : (Line.header name).text ++ rest = '[' :: (name.toList ++ ']' :: '\n' :: rest) := by
    simp [Line.text]
  have hkey : key? maxDepth (name.toList ++ ']' :: '\n' :: rest) =
      some (([], name), ']' :: '\n' :: rest) :=
    key?_name h (by decide) (skipGaps_of_head (by simp [isGap])) (by decide)
  obtain ⟨c, more, hname, hc⟩ := h.eq_cons
  rw [hshape, lines?.eq_def]
  dsimp only
  rw [skipGaps_of_head (by simp [isGap])]
  split
  next heq => cases heq
  next heq => cases heq
  next heq => cases heq
  next heq =>
    rw [hname] at heq
    exact absurd (List.cons.inj (List.cons.inj heq).2).1 (bare_ne hc rfl)
  next heq =>
    obtain ⟨-, rfl⟩ := List.cons.inj heq
    rw [hkey, Option.bind_eq_bind, Option.bind_some]
    rfl
  next hother => exact absurd rfl (hother _)

theorem lines?_pair (h : p.IsWritten) (limit : Nat) (header : List String) (root : Entries)
    (rest : List Char) : lines? (limit + 1) header root ((Line.pair p).text ++ rest) =
      (insertBelow header [] p.key p.value root).bind fun root =>
        lines? limit header root rest := by
  have hshape : (Line.pair p).text ++ rest =
      p.key.toList ++ ' ' :: '=' :: ' ' :: (p.text ++ '\n' :: rest) := by
    simp [Line.text]
  have hkey : key? maxDepth (p.key.toList ++ ' ' :: '=' :: ' ' :: (p.text ++ '\n' :: rest)) =
      some (([], p.key), '=' :: ' ' :: (p.text ++ '\n' :: rest)) :=
    key?_name h.key (by decide) rfl (by decide)
  have hvalue : value? maxDepth (skipGaps (' ' :: (p.text ++ '\n' :: rest))) =
      some (p.value, '\n' :: rest) := by
    have hgap : skipGaps (' ' :: (p.text ++ '\n' :: rest)) = p.text ++ '\n' :: rest := by
      refine skipGaps_of_head (s := p.text ++ '\n' :: rest) ?_
      have hnoGap := h.noGap
      cases htext : p.text with
      | nil => simp [isGap]
      | cons c text =>
        rw [htext] at hnoGap
        exact hnoGap
    rw [hgap, h.read]
  have hfirst (d : Char) (tail : List Char) (hd : isBare d = false) :
      p.key.toList ++ ' ' :: '=' :: ' ' :: (p.text ++ '\n' :: rest) ≠ d :: tail := by
    obtain ⟨c, more, hname, hc⟩ := h.key.eq_cons
    rw [hname]
    exact fun heq => bare_ne hc hd (List.cons.inj heq).1
  rw [hshape, lines?.eq_def]
  dsimp only
  rw [skipGaps_name h.key]
  split
  next heq => simp at heq
  next heq => exact absurd heq (hfirst _ _ rfl)
  next heq => exact absurd heq (hfirst _ _ rfl)
  next heq => exact absurd heq (hfirst _ _ rfl)
  next heq => exact absurd heq (hfirst _ _ rfl)
  next =>
    rw [hkey, Option.bind_eq_bind, Option.bind_some]
    dsimp only
    split
    next heq =>
      obtain ⟨-, rfl⟩ := List.cons.inj heq
      rw [hvalue]
      rfl
    next hother => exact absurd rfl (hother _)

theorem lines?_line {line : Line} (h : line.IsWritten) (limit : Nat) (header : List String)
    (root : Entries) (rest : List Char) :
    lines? (limit + 1) header root (line.text ++ rest) =
      (line.read? (header, root)).bind fun state => lines? limit state.1 state.2 rest := by
  cases line with
  | blank => rw [lines?_blank, Line.read?, Option.bind_some]
  | header name => rw [lines?_header h, Line.read?, Option.bind_map]; rfl
  | pair p => rw [lines?_pair h, Line.read?, Option.bind_map]; rfl

def readAll? (state : List String × Entries) (lines : List Line) :
    Option (List String × Entries) :=
  lines.foldlM Line.read? state

theorem lines?_lines {lines : List Line} (h : ∀ line ∈ lines, line.IsWritten) (limit : Nat)
    (header : List String) (root : Entries) :
    lines? (limit + lines.length + 1) header root (lines.flatMap Line.text) =
      (readAll? (header, root) lines).map Prod.snd := by
  induction lines generalizing header root with
  | nil =>
    rw [List.flatMap_nil, lines?]
    rfl
  | cons line lines ih =>
    obtain ⟨hline, hlines⟩ := List.forall_mem_cons.1 h
    rw [List.flatMap_cons, List.length_cons, ← Nat.add_assoc, lines?_line hline, readAll?,
      List.foldlM_cons]
    cases line.read? (header, root) with
    | none => rfl
    | some state => exact ih hlines state.1 state.2

theorem text_ne_nil (line : Line) : line.text ≠ [] := by
  cases line <;> simp [Line.text]

theorem length_le_text (lines : List Line) : lines.length ≤ (lines.flatMap Line.text).length := by
  induction lines with
  | nil => exact Nat.le_refl 0
  | cons line lines ih =>
    have hline := List.length_pos_iff.2 (text_ne_nil line)
    rw [List.flatMap_cons, List.length_append, List.length_cons]
    omega

theorem joinLineEnds_eq (h : '\x0d' ∉ s) : joinLineEnds s = s := by
  induction s with
  | nil => rfl
  | cons c s ih =>
    obtain ⟨hc, hs⟩ := List.ne_and_not_mem_of_not_mem_cons h
    rw [joinLineEnds, ih hs]
    exact fun _ hreturn _ => hc hreturn.symm

theorem not_mem_text {line : Line} (h : line.IsWritten) : '\x0d' ∉ line.text := by
  have hname {name : String} (h : IsBare name) : '\x0d' ∉ name.toList := fun hmem =>
    absurd (h.2 _ hmem) (by decide)
  cases line with
  | blank => decide
  | header name => simp [Line.text, hname h]
  | pair p => simp [Line.text, hname h.key, h.noReturn]

theorem head_text {line : Line} (h : line.IsWritten) : ∀ c ∈ line.text.head?, c ≠ '\ufeff' := by
  cases line with
  | blank => simp [Line.text]
  | header name => simp [Line.text]
  | pair p =>
    obtain ⟨c, more, hname, hc⟩ := h.key.eq_cons
    simpa [Line.text, hname] using bare_ne hc rfl

theorem parse?_lines {lines : List Line} (h : ∀ line ∈ lines, line.IsWritten) :
    parse? (String.ofList (lines.flatMap Line.text)) = (readAll? ([], []) lines).map Prod.snd := by
  have hreturn : '\x0d' ∉ lines.flatMap Line.text := by
    simp only [List.mem_flatMap, not_exists, not_and]
    exact fun line hline => not_mem_text (h line hline)
  have hhead : ∀ rest, lines.flatMap Line.text ≠ '\ufeff' :: rest := by
    cases lines with
    | nil => simp
    | cons line lines =>
      intro rest heq
      have hline := head_text (h line List.mem_cons_self)
      cases htext : line.text with
      | nil => exact text_ne_nil line htext
      | cons c more =>
        rw [List.flatMap_cons, htext] at heq
        rw [htext] at hline
        exact hline c rfl (List.cons.inj heq).1
  -- every line has a character, so the length of the text is limit enough
  obtain ⟨limit, hlimit⟩ := Nat.exists_eq_add_of_le' (length_le_text lines)
  rw [parse?, String.toList_ofList]
  split
  next heq => exact absurd heq (hhead _)
  next => rw [joinLineEnds_eq hreturn, hlimit, lines?_lines h]

end Reading

section Entries

def Pair.entry (p : Pair) : String × Toml := (p.key, p.value)

variable {root before entries : Entries} {name key : String} {value : Toml} {pairs : List Pair}

theorem lookup_eq_none (h : key ∉ root.map Prod.fst) : root.lookup key = none := by
  rwa [Table.mem_keys_iff, Option.not_isSome_iff_eq_none] at h

theorem insert_new (h : key ∉ root.map Prod.fst) (value : Toml) :
    insert [] key value root = some (root ++ [(key, value)]) := by
  simp [insert, change, lookup_eq_none h]

theorem set_last (h : name ∉ before.map Prod.fst) (v value : Toml) :
    set name value (before ++ [(name, v)]) = before ++ [(name, value)] := by
  induction before with
  | nil => simp [set]
  | cons entry before ih =>
    rw [List.map_cons] at h
    obtain ⟨hname, hbefore⟩ := List.ne_and_not_mem_of_not_mem_cons h
    rw [List.cons_append, set, if_neg hname.symm, ih hbefore]
    rfl

theorem set_new (h : name ∉ before.map Prod.fst) (value : Toml) :
    set name value before = before ++ [(name, value)] := by
  induction before with
  | nil => rfl
  | cons entry before ih =>
    rw [List.map_cons] at h
    obtain ⟨hname, hbefore⟩ := List.ne_and_not_mem_of_not_mem_cons h
    rw [set, if_neg hname.symm, ih hbefore]
    rfl

theorem startTable_new (h : name ∉ before.map Prod.fst) :
    startTable [] name before = some (before ++ [(name, .table .header [])]) := by
  rw [startTable, change, lookup_eq_none h, ← set_new h]

theorem insertBelow_last (hname : name ∉ before.map Prod.fst) (hkey : key ∉ entries.map Prod.fst)
    (value : Toml) :
    insertBelow [name] [] key value (before ++ [(name, .table .header entries)]) =
      some (before ++ [(name, .table .header (entries ++ [(key, value)]))]) := by
  have hlookup : (before ++ [(name, Toml.table .header entries)]).lookup name =
      some (.table .header entries) := by
    rw [List.lookup_append, lookup_eq_none hname]
    simp
  rw [insertBelow, change, hlookup]
  simp [change, insert_new hkey, set_last hname]

theorem readAll?_cons (state : List String × Entries) (line : Line) (lines : List Line) :
    readAll? state (line :: lines) = (line.read? state).bind (readAll? · lines) := rfl

theorem readAll?_append (state : List String × Entries) (front back : List Line) :
    readAll? state (front ++ back) = (readAll? state front).bind (readAll? · back) := by
  rw [readAll?, List.foldlM_append]
  rfl

theorem readAll?_pairs (header : List String) (place : Entries → Entries) (entries : Entries)
    (hplace : ∀ entries key value, key ∉ entries.map Prod.fst →
      insertBelow header [] key value (place entries) = some (place (entries ++ [(key, value)])))
    (h : (entries.map Prod.fst ++ pairs.map Pair.key).Nodup) :
    readAll? (header, place entries) (pairs.map Line.pair) =
      some (header, place (entries ++ pairs.map Pair.entry)) := by
  induction pairs generalizing entries with
  | nil => simp [readAll?]
  | cons p pairs ih =>
    have hkey : p.key ∉ entries.map Prod.fst := fun hmem =>
      (List.disjoint_of_nodup_append h) hmem List.mem_cons_self
    have hmore : ((entries ++ [p.entry]).map Prod.fst ++ pairs.map Pair.key).Nodup := by
      simpa [Pair.entry] using h
    rw [List.map_cons, readAll?_cons, Line.read?, hplace _ _ _ hkey, Option.map_some,
      Option.bind_some, ← Pair.entry, ih _ hmore, List.append_assoc]
    rfl

end Entries

structure Sheet where
  pairs : List Pair := []
  sections : List (String × List Pair) := []

namespace Sheet

def sectionLines (part : String × List Pair) : List Line :=
  .blank :: .header part.1 :: part.2.map .pair

def lines (d : Sheet) : List Line := d.pairs.map .pair ++ d.sections.flatMap sectionLines

def text (d : Sheet) : List Char := d.lines.flatMap Line.text

def sectionEntry (part : String × List Pair) : String × Toml :=
  (part.1, .table .header (part.2.map Pair.entry))

def entries (d : Sheet) : Entries := d.pairs.map Pair.entry ++ d.sections.map sectionEntry

structure IsWritten (d : Sheet) : Prop where
  pairs : ∀ p ∈ d.pairs, p.IsWritten
  names : ∀ part ∈ d.sections, IsBare part.1
  parts : ∀ part ∈ d.sections, ∀ p ∈ part.2, p.IsWritten
  keys : (d.pairs.map Pair.key ++ d.sections.map Prod.fst).Nodup
  partKeys : ∀ part ∈ d.sections, (part.2.map Pair.key).Nodup

variable {d : Sheet} {root : Entries} {parts : List (String × List Pair)}

theorem readAll?_sections {header : List String}
    (hkeys : (root.map Prod.fst ++ parts.map Prod.fst).Nodup)
    (hparts : ∀ part ∈ parts, (part.2.map Pair.key).Nodup) :
    (readAll? (header, root) (parts.flatMap sectionLines)).map Prod.snd =
      some (root ++ parts.map sectionEntry) := by
  induction parts generalizing header root with
  | nil => simp [readAll?]
  | cons part parts ih =>
    obtain ⟨hpart, hmore⟩ := List.forall_mem_cons.1 hparts
    have hname : part.1 ∉ root.map Prod.fst := fun hmem =>
      (List.disjoint_of_nodup_append hkeys) hmem List.mem_cons_self
    have hnext : ((root ++ [sectionEntry part]).map Prod.fst ++ parts.map Prod.fst).Nodup := by
      simpa [sectionEntry] using hkeys
    have hread : readAll? (header, root) (sectionLines part) =
        some ([part.1], root ++ [sectionEntry part]) := by
      have hpairs := readAll?_pairs [part.1]
        (fun entries => root ++ [(part.1, .table .header entries)]) []
        (fun entries key value hkey => insertBelow_last hname hkey value) (by simpa using hpart)
      rw [sectionLines, readAll?_cons, Line.read?, Option.bind_some, readAll?_cons, Line.read?,
        startTable_new hname, Option.map_some, Option.bind_some]
      exact hpairs
    rw [List.flatMap_cons, readAll?_append, hread, Option.bind_some, ih hnext hmore,
      List.map_cons, List.append_assoc]
    rfl

theorem IsWritten.parse?_text (h : d.IsWritten) :
    parse? (String.ofList d.text) = some d.entries := by
  have hlines : ∀ line ∈ d.lines, line.IsWritten := by
    rw [lines, List.forall_mem_append, List.forall_mem_map, List.forall_mem_flatMap]
    refine ⟨h.pairs, fun part hpart => ?_⟩
    rw [sectionLines, List.forall_mem_cons, List.forall_mem_cons, List.forall_mem_map]
    exact ⟨trivial, h.names part hpart, h.parts part hpart⟩
  have htop : readAll? ([], []) (d.pairs.map Line.pair) = some ([], d.pairs.map Pair.entry) :=
    readAll?_pairs [] id [] (fun entries key value hkey => insert_new hkey value)
      h.keys.of_append_left
  have hkeys : ((d.pairs.map Pair.entry).map Prod.fst ++ d.sections.map Prod.fst).Nodup := by
    rw [List.map_map]
    exact h.keys
  rw [text, parse?_lines hlines, lines, readAll?_append, htop, Option.bind_some,
    readAll?_sections hkeys h.partKeys, entries]

end Sheet

end UpdateProtocol.Toml
