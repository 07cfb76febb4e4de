import UpdateProtocol.Text.Blank
import UpdateProtocol.Text.Split

namespace UpdateProtocol.Markup

open UpdateProtocol.Text

def qualifier? (name : List Char) : Option (List Char) :=
  (splitFirst? ':' name).map Prod.fst

def localName (name : List Char) : List Char :=
  match splitFirst? ':' name with
  | some (_, after) => after
  | none => name

structure Attribute where
  key : List Char
  value : List Char
  deriving DecidableEq, Repr

namespace Attribute

inductive Item where
  | pair (a : Attribute)
  | malformed (key : Option (List Char))
  deriving DecidableEq, Repr

inductive Mode where
  | gap
  | key (read : List Char)
  | equals (key : List Char)
  | quote (key : List Char)
  | value (key : List Char) (quote : Char) (read : List Char)
  | word

structure Scan where
  mode : Mode := .gap
  items : List Item := []

def Scan.step (s : Scan) (c : Char) : Scan :=
  match s.mode with
  | .gap => if isSpace c then s else { s with mode := .key [c] }
  | .key read =>
      if c = '=' then { s with mode := .quote read.reverse }
      else if isSpace c then { s with mode := .equals read.reverse }
      else { s with mode := .key (c :: read) }
  | .equals key =>
      if c = '=' then { s with mode := .quote key }
      else if isSpace c then s
      else ⟨.key [c], .malformed none :: s.items⟩
  | .quote key =>
      if isSpace c then s
      else if c = '"' || c = '\'' then { s with mode := .value key c [] }
      else ⟨.word, .malformed (some key) :: s.items⟩
  | .value key quote read =>
      if c = quote then ⟨.gap, .pair ⟨key, read.reverse⟩ :: s.items⟩
      else { s with mode := .value key quote (c :: read) }
  | .word => if isSpace c then { s with mode := .gap } else s

def Scan.finish (s : Scan) : List Item :=
  match s.mode with
  | .gap | .word => s.items.reverse
  | .key _ | .equals _ => (.malformed none :: s.items).reverse
  | .quote key | .value key _ _ => (.malformed (some key) :: s.items).reverse

def items (text : List Char) : List Item :=
  (text.foldl Scan.step {}).finish

def strictly (seen : List (List Char)) : List Item → List Attribute × Bool
  | [] => ([], true)
  | .malformed _ :: _ => ([], false)
  | .pair a :: rest =>
      if a.key ∈ seen then ([], false)
      else
        let (more, fine) := strictly (a.key :: seen) rest
        (a :: more, fine)

def leniently (seen : List (List Char)) : List Item → List Attribute
  | [] => []
  | .malformed none :: rest => leniently seen rest
  | .malformed (some key) :: rest => leniently (key :: seen) rest
  | .pair a :: rest =>
      if a.key ∈ seen then leniently seen rest else a :: leniently (a.key :: seen) rest

def untilMalformed : List Item → List Attribute
  | .pair a :: rest => a :: untilMalformed rest
  | _ => []

end Attribute

end UpdateProtocol.Markup
