import UpdateProtocol.Toml.Text

namespace UpdateProtocol.Toml

open UpdateProtocol.Text

def hasRun (quote : Char) (n : Nat) : List Char → Bool
  | [] => n = 0
  | c :: rest => (List.replicate n quote).isPrefixOf (c :: rest) || hasRun quote n rest

def isHidden (c : Char) : Bool := isControl c && c ≠ '\n'

def numberEscape (c : Char) : List Char :=
  let n := c.toNat
  let digit (k : Nat) : Char :=
    let d := n / Nat.pow 16 k % 16
    if d < 10 then Char.ofNat (48 + d) else Char.ofNat (55 + d)
  ['\\', 'u', digit 3, digit 2, digit 1, digit 0]

def escapeChar (many : Bool) (c : Char) : List Char :=
  match c with
  | '\x08' => ['\\', 'b']
  | '\t' => ['\\', 't']
  | '\n' => if many then ['\n'] else ['\\', 'n']
  | '\x0c' => ['\\', 'f']
  | '\x0d' => ['\\', 'r']
  | '\\' => ['\\', '\\']
  | c => if isControl c then numberEscape c else [c]

def escaped (many : Bool) (run : Nat) : List Char → List Char
  | [] => []
  | '"' :: rest =>
      if many && run < 2 then '"' :: escaped many (run + 1) rest
      else '\\' :: '"' :: escaped many 0 rest
  | c :: rest => escapeChar many c ++ escaped many 0 rest

def between (marks s : List Char) : List Char := marks ++ s ++ marks

def betweenLines (quote : Char) (s : List Char) : List Char :=
  between [quote, quote, quote] (if '\n' ∈ s then '\n' :: s else s)

def writeText (text : String) : List Char :=
  let s := text.toList
  let many := '\n' ∈ s
  if !s.any isControl && '"' ∉ s && '\\' ∉ s then between ['"'] s
  else if !s.any isControl && '\'' ∉ s then between ['\''] s
  else if !s.any isHidden && '\\' ∉ s && !hasRun '"' 3 s then betweenLines '"' s
  else if !s.any isHidden && !hasRun '\'' 3 s then betweenLines '\'' s
  else if many then betweenLines '"' (escaped true 0 s)
  else between ['"'] (escaped false 0 s)

end UpdateProtocol.Toml
