import UpdateProtocol.Markup.Scope

namespace UpdateProtocol.Markup

open UpdateProtocol.Text

inductive Piece where
  | chars (s : List Char)
  | raw (s : List Char)
  deriving DecidableEq, Repr

structure Tag where
  name : List Char
  text : List Char
  deriving DecidableEq, Repr

def Tag.plainName (t : Tag) : String := String.ofList (localName t.name)

inductive Token where
  | text (run : List Piece)
  | start (tag : Tag)
  | stop
  deriving DecidableEq, Repr

inductive Mode where
  | text (read : List Char)
  | angle
  | start (read : List Char) (quote : Option Char)
  | stop (read : List Char) (quote : Option Char)
  | bang
  | dash
  | comment (dashes : Nat)
  | rawWord (left : List Char)
  | raw (read : List Char)
  | doctypeWord (left : List Char)
  | doctype (depth : Nat) (named : Bool)
  | instruction (question : Bool)
  | fault

structure Scanner where
  mode : Mode := .text []
  run : List Piece := []
  opened : List (List Char) := []
  tokens : List Token := []

namespace Scanner

def trimFirst : List Piece → List Piece
  | .chars s :: rest => match s.dropWhile isSpace with
    | [] => trimFirst rest
    | s => .chars s :: rest
  | run => run

def trimRun : List Piece → List Piece
  | .chars s :: before => trimFirst (.chars (trimEnd isSpace s) :: before).reverse
  | run => trimFirst run.reverse

def flush (s : Scanner) : Scanner :=
  match trimRun s.run with
  | [] => { s with run := [] }
  | run => { s with run := [], tokens := .text run :: s.tokens }

def piece (s : Scanner) (p : Piece) : Scanner :=
  { s with mode := .text [], run := p :: s.run }

def startTag (s : Scanner) (content : List Char) (closed : Bool) : Scanner :=
  let s := s.flush
  let tag : Tag := ⟨content.takeWhile fun c => !isSpace c, content.dropWhile fun c => !isSpace c⟩
  match Scope.enter? [] tag.text with
  | none => { s with mode := .fault }
  | some _ =>
      if closed then { s with mode := .text [], tokens := .stop :: .start tag :: s.tokens }
      else
        { s with
          mode := .text [], opened := tag.name :: s.opened, tokens := .start tag :: s.tokens }

def stopName (content : List Char) : List Char :=
  match trimEnd isSpace content with
  | [] => content
  | name => name

def stopTag (s : Scanner) (content : List Char) : Scanner :=
  let s := s.flush
  match s.opened with
  | [] => { s with mode := .fault }
  | name :: opened =>
      if stopName content = name then
        { s with mode := .text [], opened := opened, tokens := .stop :: s.tokens }
      else { s with mode := .fault }

def nextQuote (quote : Option Char) (c : Char) : Option Char :=
  match quote with
  | some q => if c = q then none else some q
  | none => if c = '"' || c = '\'' then some c else none

def step (s : Scanner) (c : Char) : Scanner :=
  match s.mode with
  | .fault => s
  | .text read =>
      if c = '<' then
        match read with
        | [] => { s with mode := .angle }
        | read => { s with mode := .angle, run := .chars read.reverse :: s.run }
      else { s with mode := .text (c :: read) }
  | .angle =>
      if c = '!' then { s with mode := .bang }
      else if c = '/' then { s with mode := .stop [] none }
      else if c = '?' then { s with mode := .instruction false }
      else if c = '>' then s.startTag [] false
      else { s with mode := .start [c] (nextQuote none c) }
  | .start read quote =>
      if c = '>' && quote.isNone then
        match read with
        | '/' :: read => s.startTag read.reverse true
        | read => s.startTag read.reverse false
      else { s with mode := .start (c :: read) (nextQuote quote c) }
  | .stop read quote =>
      if c = '>' && quote.isNone then s.stopTag read.reverse
      else { s with mode := .stop (c :: read) (nextQuote quote c) }
  | .bang =>
      if c = '-' then { s with mode := .dash }
      else if c = '[' then { s with mode := .rawWord "CDATA[".toList }
      else if c.toLower = 'd' then { s with mode := .doctypeWord "octype".toList }
      else { s with mode := .fault }
  | .dash => { s with mode := if c = '-' then .comment 0 else .fault }
  | .comment dashes =>
      if c = '-' then { s with mode := .comment (dashes + 1) }
      else if c = '>' && 2 ≤ dashes then { s with mode := .text [] }
      else { s with mode := .comment 0 }
  | .rawWord left =>
      match left with
      | [d] => { s with mode := if c = d then .raw [] else .fault }
      | d :: left => { s with mode := if c = d then .rawWord left else .fault }
      | [] => { s with mode := .fault }
  | .raw read =>
      match c, read with
      | '>', ']' :: ']' :: read => s.piece (.raw read.reverse)
      | c, read => { s with mode := .raw (c :: read) }
  | .doctypeWord left =>
      match left with
      | [d] => { s with mode := if c.toLower = d then .doctype 0 false else .fault }
      | d :: left => { s with mode := if c.toLower = d then .doctypeWord left else .fault }
      | [] => { s with mode := .fault }
  | .doctype depth named =>
      if c = '<' then { s with mode := .doctype (depth + 1) true }
      else if c = '>' then
        match depth with
        | 0 => if named then { s.flush with mode := .text [] } else { s with mode := .fault }
        | depth + 1 => { s with mode := .doctype depth true }
      else { s with mode := .doctype depth (named || !isSpace c) }
  | .instruction question =>
      if c = '>' && question then { s with mode := .text [] }
      else { s with mode := .instruction (c = '?') }

def finish (s : Scanner) : List Token :=
  match s.mode with
  | .text [] => s.flush.tokens.reverse
  | .text read => (s.piece (.chars read.reverse)).flush.tokens.reverse
  | _ => s.flush.tokens.reverse

end Scanner

def tokens (text : List Char) : List Token :=
  let text := match text with
    | '\ufeff' :: rest => rest
    | text => text
  (text.foldl Scanner.step {}).finish

end UpdateProtocol.Markup
