namespace UpdateProtocol.Text

def parts (p : Char → Bool) : List Char → List (List Char)
  | [] => [[]]
  | c :: rest =>
      if p c then [] :: parts p rest
      else match parts p rest with
        | [] => [[c]]
        | first :: more => (c :: first) :: more

theorem parts_ne_nil (p : Char → Bool) (s : List Char) : parts p s ≠ [] := by
  cases s with
  | nil => simp [parts]
  | cons c rest =>
      simp only [parts]
      split
      · simp
      · split <;> simp

theorem parts_of_none {p : Char → Bool} {s : List Char} (h : ∀ c ∈ s, p c = false) :
    parts p s = [s] := by
  induction s with
  | nil => rfl
  | cons c rest ih =>
      have hc : p c = false := h c (List.mem_cons_self ..)
      have hr : parts p rest = [rest] := ih fun d hd => h d (List.mem_cons_of_mem _ hd)
      simp [parts, hc, hr]

def splitFirst? (sep : Char) (s : List Char) : Option (List Char × List Char) :=
  match s.span (· ≠ sep) with
  | (before, _ :: after) => some (before, after)
  | (_, []) => none

def splitLast? (sep : Char) (s : List Char) : Option (List Char × List Char) :=
  (splitFirst? sep s.reverse).map fun (after, before) => (before.reverse, after.reverse)

def cutAt (mark : Char) (s : List Char) : List Char × Option (List Char) :=
  match splitFirst? mark s with
  | some (before, after) => (before, some after)
  | none => (s, none)

end UpdateProtocol.Text
