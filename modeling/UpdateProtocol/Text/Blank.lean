namespace UpdateProtocol.Text

def isBlank (c : Char) : Bool :=
  c ∈ ['\t', '\n', '\x0b', '\x0c', '\x0d', ' ', '\u0085', '\u00a0', '\u1680', '\u2000', '\u2001',
    '\u2002', '\u2003', '\u2004', '\u2005', '\u2006', '\u2007', '\u2008', '\u2009', '\u200a',
    '\u2028', '\u2029', '\u202f', '\u205f', '\u3000']

def isSpace (c : Char) : Bool :=
  c = ' ' || c = '\t' || c = '\n' || c = '\x0d'

def trimEnd (p : Char → Bool) (s : List Char) : List Char :=
  (s.reverse.dropWhile p).reverse

def trim (p : Char → Bool) (s : List Char) : List Char :=
  trimEnd p (s.dropWhile p)

theorem trimEnd_of_none {p : Char → Bool} {s : List Char} (h : ∀ c ∈ s, p c = false) :
    trimEnd p s = s := by
  have hr : s.reverse.dropWhile p = s.reverse := by
    cases hs : s.reverse with
    | nil => rfl
    | cons c r =>
        have hc : p c = false := h c (by rw [← List.mem_reverse, hs]; exact List.mem_cons_self ..)
        simp [List.dropWhile, hc]
  rw [trimEnd, hr, List.reverse_reverse]

theorem trim_of_none {p : Char → Bool} {s : List Char} (h : ∀ c ∈ s, p c = false) :
    trim p s = s := by
  have hs : s.dropWhile p = s := by
    cases s with
    | nil => rfl
    | cons c r => simp [List.dropWhile, h c (List.mem_cons_self ..)]
  rw [trim, hs, trimEnd_of_none h]

end UpdateProtocol.Text
