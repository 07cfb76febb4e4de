import UpdateProtocol.Text.Digit
import UpdateProtocol.Text.Percent
import UpdateProtocol.Text.Split

namespace UpdateProtocol

open UpdateProtocol.Text

inductive UrlFault where
  | relative
  | emptyHost
  | port
  | ipv4
  | ipv6
  | domain
  | hostCharacter
  deriving DecidableEq, Repr

def UrlFault.message : UrlFault → String
  | .relative => "relative URL without a base"
  | .emptyHost => "empty host"
  | .port => "invalid port number"
  | .ipv4 => "invalid IPv4 address"
  | .ipv6 => "invalid IPv6 address"
  | .domain => "invalid international domain name"
  | .hostCharacter => "invalid domain character"

/-- How a name that is not plain ASCII is written in ASCII, if it can be. That takes the tables of
Unicode, and is left open. -/
class Idna where
  encode? : List Char → Option (List Char)

/-- Without the tables: what is in ASCII already. -/
instance (priority := low) Idna.ascii : Idna where
  encode? s := if s.all (·.toNat < 0x80) then some (s.map Char.toLower) else none

inductive Host where
  | name (text : List Char)
  | ipv4 (address : Nat)
  | ipv6 (pieces : List Nat)
  deriving DecidableEq, Repr

namespace Host

def isDigit (base : Nat) (c : Char) : Bool := (digitValue? base c).isSome

def numberOf (base : Nat) (digits : List Char) : Nat :=
  digits.foldl (fun n c => n * base + (digitValue? base c).getD 0) 0

def part? (s : List Char) : Option Nat :=
  let digitsOf (base : Nat) (digits : List Char) : Option Nat :=
    if digits.all (isDigit base) then some (numberOf base digits) else none
  match s with
  | [] => none
  | '0' :: 'x' :: digits => digitsOf 16 digits
  | '0' :: 'X' :: digits => digitsOf 16 digits
  | '0' :: d :: digits => digitsOf 8 (d :: digits)
  | digits => digitsOf 10 digits

def labels (s : List Char) : List (List Char) :=
  match (parts (· = '.') s).reverse with
  | [] :: before => before.reverse
  | all => all.reverse

def endsInNumber (s : List Char) : Bool :=
  match (labels s).getLast? with
  | none => false
  | some last => (last ≠ [] && last.all (isDigit 10)) || (part? last).isSome

def readIpv4 (s : List Char) : Except UrlFault Nat :=
  let parts := labels s
  match parts.mapM part? with
  | none => .error .ipv4
  | some numbers =>
      match numbers.reverse with
      | [] => .error .ipv4
      | last :: before =>
          let before := before.reverse
          if 3 < before.length ∨ Nat.pow 256 (4 - before.length) ≤ last ∨ before.any (255 < ·) then
            .error .ipv4
          else
            let high := before.foldl (fun n part => n * 256 + part) 0
            .ok (high * Nat.pow 256 (4 - before.length) + last)

def ipv4Text (address : Nat) : List Char :=
  let byte (k : Nat) : List Char := Nat.toDigits 10 (address / Nat.pow 256 k % 256)
  byte 3 ++ '.' :: byte 2 ++ '.' :: byte 1 ++ '.' :: byte 0

def byte? (s : List Char) : Option Nat :=
  if s = [] ∨ !s.all (isDigit 10) ∨ (s.head? = some '0' ∧ s ≠ ['0']) then none
  else if numberOf 10 s < 256 then some (numberOf 10 s) else none

def dottedPieces? (s : List Char) : Option (List Nat) :=
  match (parts (· = '.') s).mapM byte? with
  | some [a, b, c, d] => some [a * 256 + b, c * 256 + d]
  | _ => none

def piece? (s : List Char) : Option Nat :=
  if s ≠ [] ∧ s.length ≤ 4 ∧ s.all (isDigit 16) then some (numberOf 16 s) else none

def pieces? (last : Bool) : List (List Char) → Option (List Nat)
  | [] => some []
  | [group] =>
      if last && '.' ∈ group then dottedPieces? group else (piece? group).map fun n => [n]
  | group :: rest => do
      let n ← piece? group
      let more ← pieces? last rest
      some (n :: more)

def groups (s : List Char) : List (List Char) :=
  if s = [] then [] else parts (· = ':') s

def splitGap? : List Char → Option (List Char × List Char)
  | ':' :: ':' :: rest => some ([], rest)
  | c :: rest => (splitGap? rest).map fun (before, after) => (c :: before, after)
  | [] => none

def readIpv6 (s : List Char) : Except UrlFault (List Nat) :=
  let pieces := match splitGap? s with
    | none => pieces? true (groups s)
    | some (before, after) => do
        let before ← pieces? false (groups before)
        let after ← pieces? true (groups after)
        if before.length + after.length ≤ 7 then
          some (before ++ List.replicate (8 - before.length - after.length) 0 ++ after)
        else none
  match pieces with
  | some pieces => if pieces.length = 8 then .ok pieces else .error .ipv6
  | none => .error .ipv6

def longestZeros (pieces : List Nat) : Nat × Nat :=
  (List.range pieces.length).foldl
    (fun best i =>
      let run := ((pieces.drop i).takeWhile (· = 0)).length
      if best.2 < run then (i, run) else best)
    (0, 0)

def ipv6Text (pieces : List Nat) : List Char :=
  let join (pieces : List Nat) : List Char :=
    List.intercalate [':'] (pieces.map (Nat.toDigits 16))
  let (start, run) := longestZeros pieces
  if 2 ≤ run then join (pieces.take start) ++ "::".toList ++ join (pieces.drop (start + run))
  else join pieces

def text : Host → List Char
  | name text => text
  | ipv4 address => ipv4Text address
  | ipv6 pieces => '[' :: ipv6Text pieces ++ [']']

def isForbidden (c : Char) : Bool :=
  c.toNat ≤ 0x20 || 0x7F ≤ c.toNat || c ∈ "%#/:<>?@[\\]^|".toList

def isEncodedLabel (label : List Char) : Bool :=
  "xn--".toList.isPrefixOf (label.map Char.toLower)

def isPlain (s : List Char) : Bool :=
  s.all (·.toNat < 0x80) && (parts (· = '.') s).all fun label => !isEncodedLabel label

def encode? [Idna] (s : List Char) : Option (List Char) :=
  if isPlain s then some (s.map Char.toLower) else Idna.encode? s

def read [Idna] (s : List Char) : Except UrlFault Host :=
  match s with
  | '[' :: rest =>
      if rest.getLast? = some ']' then (readIpv6 rest.dropLast).map ipv6 else .error .ipv6
  | s => match percentDecode? (String.ofList s) with
    | none => .error .domain
    | some decoded => match encode? decoded.toList with
      | none => .error .domain
      | some text =>
          if text.any isForbidden then .error .domain
          else if text = [] then .error .emptyHost
          else if endsInNumber text then (readIpv4 text).map ipv4
          else .ok (name text)

def isOpaqueForbidden (c : Char) : Bool :=
  c = '\x00' || c ∈ " #/:<>?@[\\]^|".toList

def readOpaque (s : List Char) : Except UrlFault Host :=
  match s with
  | '[' :: rest =>
      if rest.getLast? = some ']' then (readIpv6 rest.dropLast).map ipv6 else .error .ipv6
  | s =>
      if s.any isOpaqueForbidden then .error .hostCharacter
      else .ok (name (percentEncode (fun c => c.toNat < 0x20 || c.toNat = 0x7F) s))

end Host

/-- What is written in ASCII stays as it is when it is written in ASCII again. -/
class LawfulIdna [Idna] : Prop where
  encode?_of_encode? {s t : List Char} : Idna.encode? s = some t → Host.encode? t = some t

end UpdateProtocol
