import UpdateProtocol.Text.Digit
import UpdateProtocol.Toml.Value

namespace UpdateProtocol.Toml

open UpdateProtocol.Text

def digits? (base : Nat) : List Char → Option (List Char × List Char)
  | c :: '_' :: d :: rest =>
      if (digitValue? base c).isSome then
        (digits? base (d :: rest)).map fun (more, rest) => (c :: more, rest)
      else none
  | c :: d :: rest =>
      if (digitValue? base c).isSome then
        if d = '_' then none
        else if (digitValue? base d).isSome then
          (digits? base (d :: rest)).map fun (more, rest) => (c :: more, rest)
        else some ([c], d :: rest)
      else none
  | [c] => if (digitValue? base c).isSome then some ([c], []) else none
  | [] => none

def sign? : List Char → Bool × List Char
  | '-' :: rest => (true, rest)
  | '+' :: rest => (false, rest)
  | s => (false, s)

def decimal? (s : List Char) : Option (List Char × List Char) :=
  match s with
  | '0' :: rest => some (['0'], rest)
  | s => digits? 10 s

def inRange? (n : Int) (rest : List Char) : Option (Toml × List Char) :=
  if Int64.minValue.toInt ≤ n ∧ n ≤ Int64.maxValue.toInt then some (.integer n, rest) else none

def inBase? (base : Nat) (s : List Char) : Option (Toml × List Char) := do
  let (digits, rest) ← digits? base s
  let n ← number? base digits
  inRange? n rest

def integer? (s : List Char) : Option (Toml × List Char) :=
  match s with
  | '0' :: 'x' :: rest => inBase? 16 rest
  | '0' :: 'o' :: rest => inBase? 8 rest
  | '0' :: 'b' :: rest => inBase? 2 rest
  | s => do
      let (negative, rest) := sign? s
      let (digits, rest) ← decimal? rest
      let n ← number? 10 digits
      inRange? (if negative then -(n : Int) else n) rest

def exponent? (s : List Char) : Option (Int × List Char) := do
  let (negative, s) := sign? s
  let (digits, rest) ← digits? 10 s
  let n ← number? 10 digits
  some (if negative then -(n : Int) else n, rest)

def fraction? : List Char → Option (Option ((List Char × Int) × List Char))
  | 'e' :: rest | 'E' :: rest => some ((exponent? rest).map fun (e, rest) => (([], e), rest))
  | '.' :: rest => some do
      let (digits, rest) ← digits? 10 rest
      match rest with
      | 'e' :: rest | 'E' :: rest => (exponent? rest).map fun (e, rest) => ((digits, e), rest)
      | rest => some ((digits, 0), rest)
  | _ => none

def floatLimit : Nat := Nat.pow 2 1024 - Nat.pow 2 970

def overflows (digits : List Char) (exponent : Int) : Bool :=
  match digits.dropWhile (· = '0') with
  | [] => false
  | digits =>
      let magnitude := digits.length + exponent
      if magnitude < 300 then false
      else if 320 < magnitude then true
      else
        floatLimit * Nat.pow 10 (-exponent).toNat ≤
          (number? 10 digits).getD 0 * Nat.pow 10 exponent.toNat

def field? (width least greatest : Nat) (s : List Char) : Option (Nat × List Char) := do
  let digits := s.take width
  if digits.length < width then none
  else
    let n ← number? 10 digits
    if least ≤ n ∧ n ≤ greatest then some (n, s.drop width) else none

def mark? (c : Char) : List Char → Option (List Char)
  | d :: rest => if d = c then some rest else none
  | [] => none

def daysIn (year month : Nat) : Nat :=
  if month = 2 then
    if (year % 4 = 0 ∧ year % 100 ≠ 0) ∨ year % 400 = 0 then 29 else 28
  else if month ∈ [4, 6, 9, 11] then 30 else 31

def date? (s : List Char) : Option (List Char) := do
  let (year, s) ← field? 4 0 9999 s
  let (month, s) ← field? 2 1 12 (← mark? '-' s)
  let (_, s) ← field? 2 1 (daysIn year month) (← mark? '-' s)
  some s

def time? (s : List Char) : Option (List Char) := do
  let (_, s) ← field? 2 0 23 s
  let (_, s) ← field? 2 0 59 (← mark? ':' s)
  let (_, s) ← field? 2 0 60 (← mark? ':' s)
  match s with
  | '.' :: rest =>
      match rest.span fun c => (digitValue? 10 c).isSome with
      | ([], _) => none
      | (_, rest) => some rest
  | s => some s

def clockOffset? (s : List Char) : Option (List Char) := do
  let (_, s) ← field? 2 0 23 s
  let (_, s) ← field? 2 0 59 (← mark? ':' s)
  some s

def timeOfDate (s : List Char) : List Char :=
  match s with
  | c :: rest =>
      if c ∈ ['T', 't', ' '] then
        match time? rest with
        | none => s
        | some ('Z' :: rest) => rest
        | some ('z' :: rest) => rest
        | some ('+' :: rest) => (clockOffset? rest).getD ('+' :: rest)
        | some ('-' :: rest) => (clockOffset? rest).getD ('-' :: rest)
        | some rest => rest
      else s
  | [] => []

def dateTime? (s : List Char) : Option (Toml × List Char) :=
  match date? s with
  | some rest => some (.date, timeOfDate rest)
  | none => (time? s).map fun rest => (.date, rest)

def special? (s : List Char) : Option (Toml × List Char) :=
  match (sign? s).2 with
  | 'i' :: 'n' :: 'f' :: rest => some (.float, rest)
  | 'n' :: 'a' :: 'n' :: rest => some (.float, rest)
  | _ => none

def float? (s : List Char) : Option (Option (List Char)) := do
  let (negative, s) := sign? s
  let (whole, rest) ← decimal? s
  let fraction ← fraction? rest
  some do
    let ((places, exponent), rest) ← fraction
    if !negative && overflows (whole ++ places) (exponent - places.length) then none
    else some rest

def number (s : List Char) : Option (Toml × List Char) :=
  match dateTime? s with
  | some result => some result
  | none => match special? s with
    | some result => some result
    | none => match float? s with
      | some rest => rest.map fun rest => (.float, rest)
      | none => integer? s

end UpdateProtocol.Toml
