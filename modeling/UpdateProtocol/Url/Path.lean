import UpdateProtocol.Text.Percent
import UpdateProtocol.Text.Split

namespace UpdateProtocol

open UpdateProtocol.Text

def isControl (c : Char) : Bool := c.toNat < 0x20 || c.toNat = 0x7F

def escapedInFragment (c : Char) : Bool := isControl c || c ∈ " \"<>`".toList

def escapedInPath (c : Char) : Bool := escapedInFragment c || c ∈ "#?\x7b\x7d".toList

def escapedInUser (c : Char) : Bool := escapedInPath c || c ∈ "/:;=@[\\]^|".toList

def escapedInQuery (c : Char) : Bool := isControl c || c ∈ " \"#<>".toList

def escapedInWebQuery (c : Char) : Bool := escapedInQuery c || c = '\''

inductive UrlPath where
  | opaquePath (text : List Char)
  | segments (list : List (List Char))
  deriving DecidableEq, Repr

namespace UrlPath

def dots (segment : List Char) : List Char :=
  match segment with
  | '%' :: '2' :: e :: rest =>
      if e = 'e' || e = 'E' then '.' :: dots rest else '%' :: '2' :: dots (e :: rest)
  | c :: rest => c :: dots rest
  | [] => []

def isHere (segment : List Char) : Bool := dots segment = ['.']

def isAbove (segment : List Char) : Bool := dots segment = ['.', '.']

def isDrive (segment : List Char) : Bool :=
  match segment with
  | [c, ':'] => c.isAlpha
  | _ => false

def isDriveLike (segment : List Char) : Bool :=
  match segment with
  | [c, d] => c.isAlpha && (d = ':' || d = '|')
  | _ => false

def shorten (file : Bool) : List (List Char) → List (List Char)
  | [] => []
  | [only] => if file && isDrive only then [only] else []
  | _ :: rest => rest

def append (file : Bool) (done : List (List Char)) (segment : List Char) : List (List Char) :=
  match done, segment with
  | [], [c, _] => if file && isDriveLike segment then [[c, ':']] else [segment]
  | done, segment => segment :: done

def resolve (file : Bool) (done : List (List Char)) : List (List Char) → List (List Char)
  | [] => done.reverse
  | [last] =>
      if isAbove last then ([] :: shorten file done).reverse
      else if isHere last then ([] :: done).reverse
      else (append file done last).reverse
  | segment :: rest =>
      if isAbove segment then resolve file (shorten file done) rest
      else if isHere segment then resolve file done rest
      else resolve file (append file done segment) rest

def read (web file : Bool) (s : List Char) : UrlPath :=
  let isSlash (c : Char) : Bool := c = '/' || (web && c = '\\')
  match s with
  | [] => .segments (if web then [[]] else [])
  | c :: rest =>
      let s := if isSlash c then rest else c :: rest
      .segments (resolve file [] ((parts isSlash s).map (percentEncode escapedInPath)))

def readOpaque (s : List Char) : UrlPath := .opaquePath (percentEncode isControl s)

def text : UrlPath → List Char
  | .opaquePath text => text
  | .segments list => list.flatMap fun segment => '/' :: segment

end UrlPath

end UpdateProtocol
