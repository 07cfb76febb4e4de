import Mathlib.Data.List.DropRight
import Mathlib.Data.List.TakeDrop
import Mathlib.Data.List.TakeWhile
import UpdateProtocol.Text.Blank
import UpdateProtocol.Text.Split

namespace UpdateProtocol.Text

variable {p : Char → Bool} {s before after : List Char}

theorem trimEnd_eq_rdropWhile (p : Char → Bool) (s : List Char) : trimEnd p s = s.rdropWhile p := rfl

theorem trimEnd_append (s : List Char) (h : ∀ c ∈ after, p c = true) :
    trimEnd p (s ++ after) = trimEnd p s := by
  have hreverse : ∀ c ∈ after.reverse, p c = true := fun c hc => h c (List.mem_reverse.1 hc)
  rw [trimEnd, List.reverse_append, List.dropWhile_append_of_pos hreverse, trimEnd]

theorem trimEnd_eq_self_iff : trimEnd p s = s ↔ ∀ c ∈ s.getLast?, p c = false := by
  rw [trimEnd_eq_rdropWhile, List.rdropWhile_eq_self_iff]
  constructor
  · intro h c hc
    obtain ⟨hne, rfl⟩ := List.mem_getLast?_eq_getLast hc
    simpa using h hne
  · intro h hne
    simpa using h _ (List.getLast?_eq_some_getLast hne)

theorem trimEnd_append_kept (h : trimEnd p before = before) (s : List Char) :
    trimEnd p (before ++ s) = before ++ trimEnd p s := by
  have hbefore : before.reverse.dropWhile p = before.reverse := by
    rw [trimEnd] at h
    rw [← List.reverse_inj, h, List.reverse_reverse]
  rw [trimEnd, List.reverse_append, List.dropWhile_append, hbefore, trimEnd]
  split
  next hempty => rw [List.isEmpty_iff.1 hempty, List.reverse_reverse, List.reverse_nil,
    List.append_nil]
  next => rw [List.reverse_append, List.reverse_reverse]

theorem trim_surrounded (s : List Char) (hbefore : ∀ c ∈ before, p c = true)
    (hafter : ∀ c ∈ after, p c = true) : trim p (before ++ s ++ after) = trim p s := by
  rw [trim, List.append_assoc, List.dropWhile_append_of_pos hbefore, List.dropWhile_append, trim]
  split
  next hempty =>
    have hnil : after.dropWhile p = [] := List.dropWhile_eq_nil_iff.2 hafter
    rw [hnil, List.isEmpty_iff.1 hempty]
  next => exact trimEnd_append _ hafter

theorem exists_trim (p : Char → Bool) (s : List Char) : ∃ before after,
    s = before ++ trim p s ++ after ∧ (∀ c ∈ before, p c = true) ∧ ∀ c ∈ after, p c = true := by
  refine ⟨s.takeWhile p, (s.dropWhile p).rtakeWhile p, ?_, fun c hc => List.mem_takeWhile_imp hc,
    fun c hc => List.mem_rtakeWhile_imp hc⟩
  rw [trim, trimEnd_eq_rdropWhile, List.append_assoc, List.rdropWhile_append_rtakeWhile,
    List.takeWhile_append_dropWhile]

theorem head_trim {c : Char} (h : c ∈ (trim p s).head?) : p c = false := by
  obtain ⟨rest, hrest⟩ : trimEnd p (s.dropWhile p) <+: s.dropWhile p := List.rdropWhile_prefix p _
  have hhead : (s.dropWhile p).head? = some c := by
    rw [← hrest, List.head?_append, ← trim, Option.mem_def.1 h]
    rfl
  simpa [hhead] using List.head?_dropWhile_not p s

theorem last_trim {c : Char} (h : c ∈ (trim p s).getLast?) : p c = false := by
  rw [trim, trimEnd, List.getLast?_reverse, Option.mem_def] at h
  simpa [h] using List.head?_dropWhile_not p (s.dropWhile p).reverse

theorem trim_eq_nil_iff : trim p s = [] ↔ ∀ c ∈ s, p c = true := by
  constructor
  · intro h
    obtain ⟨before, after, hs, hbefore, hafter⟩ := exists_trim p s
    rw [h, List.append_nil] at hs
    rw [hs]
    exact List.forall_mem_append.2 ⟨hbefore, hafter⟩
  · intro h
    rw [trim, List.dropWhile_eq_nil_iff.2 h]
    rfl

inductive Surrounded (p : Char → Bool) (P : List Char → Prop) : List Char → Prop
  | intro {before core after : List Char} (front : ∀ c ∈ before, p c = true) (inside : P core)
      (back : ∀ c ∈ after, p c = true) : Surrounded p P (before ++ core ++ after)

theorem surrounded_iff {P : List Char → Prop} (hP : ∀ core, P core → ∀ c ∈ core, p c = false) :
    Surrounded p P s ↔ P (trim p s) := by
  constructor
  · rintro ⟨front, inside, back⟩
    rwa [trim_surrounded _ front back, trim_of_none (hP _ inside)]
  · intro h
    obtain ⟨before, after, hs, hbefore, hafter⟩ := exists_trim p s
    rw [hs]
    exact .intro hbefore h hafter

theorem Surrounded.forall_mem {P : List Char → Prop} {Q : Char → Prop} (h : Surrounded p P s)
    (hp : ∀ c, p c = true → Q c) (hP : ∀ core, P core → ∀ c ∈ core, Q c) : ∀ c ∈ s, Q c := by
  obtain ⟨front, inside, back⟩ := h
  rw [List.forall_mem_append, List.forall_mem_append]
  exact ⟨⟨fun c hc => hp c (front c hc), hP _ inside⟩, fun c hc => hp c (back c hc)⟩

theorem parts_eq_splitOnP (p : Char → Bool) (s : List Char) : parts p s = s.splitOnP p := by
  induction s with
  | nil => rfl
  | cons c rest ih =>
    rw [parts, List.splitOnP_cons_eq_if_modifyHead, ih]
    split
    · rfl
    · cases h : rest.splitOnP p with
      | nil => exact absurd h (List.splitOnP_ne_nil p rest)
      | cons first more => rfl

theorem parts_congr {q : Char → Bool} (h : ∀ c ∈ s, p c = q c) :
    parts p s = parts q s := by
  induction s with
  | nil => rfl
  | cons c rest ih =>
    obtain ⟨hc, hrest⟩ := List.forall_mem_cons.1 h
    rw [parts, parts, hc, ih hrest]

theorem parts_append_cons {sep : Char} (s rest : List Char) (h : p sep = true) :
    parts p (s ++ sep :: rest) = parts p s ++ parts p rest := by
  rw [parts_eq_splitOnP, parts_eq_splitOnP, parts_eq_splitOnP, List.splitOnP_append_cons s rest h]

variable {sep : Char} {first : List Char} {more : List (List Char)}

theorem parts_join (hfirst : sep ∉ first) (hmore : ∀ part ∈ more, sep ∉ part) :
    parts (· = sep) (first ++ more.flatMap (sep :: ·)) = first :: more := by
  have hnone {part : List Char} (h : sep ∉ part) : parts (· = sep) part = [part] :=
    parts_of_none fun c hc => decide_eq_false fun heq => h (heq ▸ hc)
  induction more generalizing first with
  | nil => rw [List.flatMap_nil, List.append_nil, hnone hfirst]
  | cons part more ih =>
    obtain ⟨hpart, hmore⟩ := List.forall_mem_cons.1 hmore
    rw [List.flatMap_cons, List.cons_append, parts_append_cons _ _ (decide_eq_true rfl),
      hnone hfirst, ih hpart hmore, List.singleton_append]

theorem join_parts (h : parts (· = sep) s = first :: more) :
    s = first ++ more.flatMap (sep :: ·) ∧ sep ∉ first ∧ ∀ part ∈ more, sep ∉ part := by
  induction s generalizing first more with
  | nil =>
    cases h
    exact ⟨rfl, List.not_mem_nil, List.forall_mem_nil _⟩
  | cons c rest ih =>
    rw [parts] at h
    by_cases hc : c = sep
    · rw [if_pos (decide_eq_true hc)] at h
      cases h
      cases hrest : parts (· = sep) rest with
      | nil => exact absurd hrest (parts_ne_nil _ rest)
      | cons part more =>
        obtain ⟨hs, hpart, hmore⟩ := ih hrest
        rw [hs, hc]
        exact ⟨by simp, List.not_mem_nil, List.forall_mem_cons.2 ⟨hpart, hmore⟩⟩
    · rw [if_neg (by simpa using hc)] at h
      cases hrest : parts (· = sep) rest with
      | nil => exact absurd hrest (parts_ne_nil _ rest)
      | cons part more =>
        obtain ⟨hs, hpart, hmore⟩ := ih hrest
        rw [hrest] at h
        cases h
        rw [hs]
        exact ⟨rfl, by simp [Ne.symm hc, hpart], hmore⟩

theorem splitFirst?_eq_some_iff :
    splitFirst? sep s = some (before, after) ↔ s = before ++ sep :: after ∧ sep ∉ before := by
  rw [splitFirst?, List.span_eq_takeWhile_dropWhile]
  constructor
  · intro h
    have happend := List.takeWhile_append_dropWhile (p := (· ≠ sep)) (l := s)
    cases hdrop : s.dropWhile (· ≠ sep) with
    | nil =>
      rw [hdrop] at h
      cases h
    | cons c rest =>
      have hhead := List.head?_dropWhile_not (· ≠ sep) s
      rw [hdrop] at h happend hhead
      have hc : c = sep := by simpa using hhead
      cases h
      subst hc
      refine ⟨happend.symm, fun hmem => ?_⟩
      simpa using List.mem_takeWhile_imp hmem
  · rintro ⟨rfl, hsep⟩
    have hpass : ∀ c ∈ before, decide (c ≠ sep) = true := fun c hc =>
      decide_eq_true fun heq => hsep (heq ▸ hc)
    rw [List.takeWhile_append_of_pos hpass, List.dropWhile_append_of_pos hpass]
    simp

theorem splitFirst?_eq_none_iff : splitFirst? sep s = none ↔ sep ∉ s := by
  constructor
  · intro h hmem
    obtain ⟨before, after, hs, hbefore⟩ := List.eq_append_cons_of_mem hmem
    rw [splitFirst?_eq_some_iff.2 ⟨hs, hbefore⟩] at h
    cases h
  · intro h
    cases hsplit : splitFirst? sep s with
    | none => rfl
    | some cut =>
      rw [(splitFirst?_eq_some_iff.1 hsplit).1] at h
      simp at h

theorem cutAt_append (h : sep ∉ before) (after : List Char) :
    cutAt sep (before ++ sep :: after) = (before, some after) := by
  rw [cutAt, splitFirst?_eq_some_iff.2 ⟨rfl, h⟩]

theorem cutAt_of_not_mem (h : sep ∉ s) : cutAt sep s = (s, none) := by
  rw [cutAt, splitFirst?_eq_none_iff.2 h]

theorem cutAt_fst (sep : Char) (s : List Char) : (cutAt sep s).1 = s.takeWhile (· ≠ sep) := by
  have hpass {front : List Char} (h : sep ∉ front) : ∀ c ∈ front, decide (c ≠ sep) = true :=
    fun c hc => decide_eq_true fun heq => h (heq ▸ hc)
  by_cases h : sep ∈ s
  · obtain ⟨before, after, rfl, hbefore⟩ := List.eq_append_cons_of_mem h
    rw [cutAt_append hbefore, List.takeWhile_append_of_pos (hpass hbefore)]
    simp
  · rw [cutAt_of_not_mem h, List.takeWhile_eq_self_iff.2 (hpass h)]

end UpdateProtocol.Text
