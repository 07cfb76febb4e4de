import UpdateProtocol.Text.Digit

namespace UpdateProtocol.Markup

open UpdateProtocol.Text

def entityNames : List (List Char × Char) :=
  [("lt".toList, '<'), ("gt".toList, '>'), ("amp".toList, '&'), ("apos".toList, '\''),
    ("quot".toList, '"')]

def scalar? (n : Nat) : Option Char :=
  if n ≠ 0 ∧ n.isValidChar then some (Char.ofNat n) else none

def entity? : List Char → Option Char
  | '#' :: 'x' :: digits => (number? 16 digits).bind scalar?
  | '#' :: digits => (number? 10 digits).bind scalar?
  | name => entityNames.lookup name

def unescapeFrom (done : List Char) : Option (List Char) → List Char → Option (List Char)
  | none, [] => some done.reverse
  | some _, [] => none
  | none, c :: rest =>
      if c = '&' then unescapeFrom done (some []) rest else unescapeFrom (c :: done) none rest
  | some name, c :: rest =>
      if c = ';' then
        match entity? name.reverse with
        | some d => unescapeFrom (d :: done) none rest
        | none => none
      else if c = '&' then none
      else unescapeFrom done (some (c :: name)) rest

def unescape? (s : List Char) : Option (List Char) :=
  unescapeFrom [] none s

def escapeChar : Char → List Char
  | '<' => "&lt;".toList
  | '>' => "&gt;".toList
  | '&' => "&amp;".toList
  | '"' => "&quot;".toList
  | c => [c]

def escape (s : List Char) : List Char :=
  s.flatMap escapeChar

end UpdateProtocol.Markup
