import UpdateProtocol.Toml.Number
import UpdateProtocol.Toml.Text

namespace UpdateProtocol.Toml

def maxDepth : Nat := 79

def skipGaps (s : List Char) : List Char := s.dropWhile isGap

def isComment (c : Char) : Bool := !isControl c || c = '\x7f'

def skipLines? (inComment : Bool) : List Char → Option (List Char)
  | [] => some []
  | c :: rest =>
      if c = '\n' then skipLines? false rest
      else if inComment then if !isComment c then none else skipLines? true rest
      else if isGap c then skipLines? false rest
      else if c = '#' then skipLines? true rest
      else some (c :: rest)

def lineEnd? (s : List Char) : Option (List Char) :=
  let s := skipGaps s
  let s := if s.head? = some '#' then s.dropWhile isComment else s
  match s with
  | [] => some []
  | '\n' :: rest => some rest
  | _ => none

def isBare (c : Char) : Bool := c.isAlphanum || c = '-' || c = '_'

def keyPart? (s : List Char) : Option (String × List Char) :=
  match s.span isBare with
  | ([], s) => lineText? s
  | (name, rest) => some (String.ofList name, rest)

def key? : Nat → List Char → Option ((List String × String) × List Char)
  | 0, _ => none
  | limit + 1, s => do
      let (part, s) ← keyPart? (skipGaps s)
      match skipGaps s with
      | '.' :: rest => do
          let ((path, key), rest) ← key? limit rest
          some ((part :: path, key), rest)
      | s => some (([], part), s)

def items? (value? : List Char → Option (Toml × List Char)) :
    Nat → List Toml → List Char → Option (Toml × List Char)
  | 0, _, _ => none
  | limit + 1, done, s => do
      match ← skipLines? false s with
      | ']' :: rest => some (.list false done.reverse, rest)
      | s => do
          let (v, s) ← value? s
          match ← skipLines? false s with
          | ',' :: rest => items? value? limit (v :: done) rest
          | ']' :: rest => some (.list false (v :: done).reverse, rest)
          | _ => none

def pairs? (value? : List Char → Option (Toml × List Char)) :
    Nat → Entries → List Char → Option (Toml × List Char)
  | 0, _, _ => none
  | limit + 1, done, s => do
      let ((path, key), s) ← key? maxDepth s
      match s with
      | '=' :: s => do
          let (v, s) ← value? (skipGaps s)
          let done ← insert path key v done
          match skipGaps s with
          | ',' :: rest => pairs? value? limit done rest
          | '\x7d' :: rest => some (.table .braces done, rest)
          | _ => none
      | _ => none

def word? (word : String) (v : Toml) (s : List Char) : Option (Toml × List Char) :=
  if word.toList.isPrefixOf s then some (v, s.drop word.length) else none

def scalar? (s : List Char) : Option (Toml × List Char) :=
  match s with
  | [] => none
  | c :: _ =>
      if c = '"' ∨ c = '\'' then (text? s).map fun (t, rest) => (.string t, rest)
      else if c = 't' then word? "true" (.boolean true) s
      else if c = 'f' then word? "false" (.boolean false) s
      else if c = 'i' ∨ c = 'n' ∨ c = '+' ∨ c = '-' ∨ c.isDigit then number s
      else none

def value? : Nat → List Char → Option (Toml × List Char)
  | 0, s => scalar? s
  | depth + 1, s =>
      match s with
      | '[' :: rest => items? (value? depth) (rest.length + 1) [] rest
      | '\x7b' :: rest => match skipGaps rest with
        | '\x7d' :: rest => some (.table .braces [], rest)
        | rest => pairs? (value? depth) (rest.length + 1) [] rest
      | s => scalar? s

def lines? : Nat → List String → Entries → List Char → Option Entries
  | 0, _, _, _ => none
  | limit + 1, header, root, s =>
      match skipGaps s with
      | [] => some root
      | '\n' :: rest => lines? limit header root rest
      | '#' :: rest => do
          let rest ← lineEnd? ('#' :: rest)
          lines? limit header root rest
      | '[' :: '[' :: rest => do
          let ((path, key), rest) ← key? maxDepth rest
          match rest with
          | ']' :: ']' :: rest => do
              let rest ← lineEnd? rest
              let root ← startItem path key root
              lines? limit (path ++ [key]) root rest
          | _ => none
      | '[' :: rest => do
          let ((path, key), rest) ← key? maxDepth rest
          match rest with
          | ']' :: rest => do
              let rest ← lineEnd? rest
              let root ← startTable path key root
              lines? limit (path ++ [key]) root rest
          | _ => none
      | s => do
          let ((path, key), s) ← key? maxDepth s
          match s with
          | '=' :: s => do
              let (v, s) ← value? maxDepth (skipGaps s)
              let rest ← lineEnd? s
              let root ← insertBelow header path key v root
              lines? limit header root rest
          | _ => none

def parse? (text : String) : Option Entries :=
  let s := joinLineEnds (match text.toList with
    | '\ufeff' :: rest => rest
    | s => s)
  lines? (s.length + 1) [] [] s

end UpdateProtocol.Toml
