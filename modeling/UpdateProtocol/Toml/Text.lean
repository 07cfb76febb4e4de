import UpdateProtocol.Text.Digit

namespace UpdateProtocol.Toml

open UpdateProtocol.Text

def isGap (c : Char) : Bool := c = ' ' || c = '\t'

def isControl (c : Char) : Bool := (c.toNat < 0x20 && c ≠ '\t') || c.toNat = 0x7F

def joinLineEnds : List Char → List Char
  | '\x0d' :: '\n' :: rest => '\n' :: joinLineEnds rest
  | c :: rest => c :: joinLineEnds rest
  | [] => []

def shortEscape? : Char → Option Char
  | 'b' => some '\x08'
  | 't' => some '\t'
  | 'n' => some '\n'
  | 'f' => some '\x0c'
  | 'r' => some '\x0d'
  | '"' => some '"'
  | '\\' => some '\\'
  | _ => none

inductive TextMode where
  | plain
  | escape
  | number (left code : Nat)
  | trailing
  | joined
  deriving DecidableEq

def quotes (quote : Char) (s : List Char) : Nat := (s.takeWhile (· = quote)).length

def textRest (quote : Char) (many : Bool) :
    TextMode → List Char → List Char → Option (String × List Char)
  | _, _, [] => none
  | mode, done, c :: rest =>
      match mode with
      | .escape =>
          if c = 'u' then textRest quote many (.number 4 0) done rest
          else if c = 'U' then textRest quote many (.number 8 0) done rest
          else if many ∧ isGap c then textRest quote many .trailing done rest
          else if many ∧ c = '\n' then textRest quote many .joined done rest
          else match shortEscape? c with
            | some d => textRest quote many .plain (d :: done) rest
            | none => none
      | .number left code =>
          match digitValue? 16 c with
          | none => none
          | some d =>
              if 1 < left then textRest quote many (.number (left - 1) (code * 16 + d)) done rest
              else if (code * 16 + d).isValidChar then
                textRest quote many .plain (Char.ofNat (code * 16 + d) :: done) rest
              else none
      | .trailing =>
          if isGap c then textRest quote many .trailing done rest
          else if c = '\n' then textRest quote many .joined done rest
          else none
      | mode =>
          if mode = .joined ∧ (isGap c ∨ c = '\n') then textRest quote many .joined done rest
          else if c = quote then
            if many then
              let run := min 5 (quotes quote (c :: rest))
              if 3 ≤ run then
                some (String.ofList (List.replicate (run - 3) quote ++ done).reverse,
                  (c :: rest).drop run)
              else textRest quote many .plain (c :: done) rest
            else some (String.ofList done.reverse, rest)
          else if c = '\\' ∧ quote = '"' then textRest quote many .escape done rest
          else if isControl c ∧ ¬(many ∧ c = '\n') then none
          else textRest quote many .plain (c :: done) rest

def firstLine : List Char → List Char
  | '\n' :: rest => rest
  | s => s

def lineText? : List Char → Option (String × List Char)
  | '"' :: rest => textRest '"' false .plain [] rest
  | '\'' :: rest => textRest '\'' false .plain [] rest
  | _ => none

def text? : List Char → Option (String × List Char)
  | '"' :: '"' :: '"' :: rest => textRest '"' true .plain [] (firstLine rest)
  | '\'' :: '\'' :: '\'' :: rest => textRest '\'' true .plain [] (firstLine rest)
  | s => lineText? s

end UpdateProtocol.Toml
