import UpdateProtocol.Markup.Entity
import UpdateProtocol.Markup.Malformation
import UpdateProtocol.Text.Blank

namespace UpdateProtocol.Markup

open UpdateProtocol.Text (number?)

def readText (raw : List Char) : Except Malformation String :=
  match unescape? raw with
  | some s => .ok (String.ofList s)
  | none => .error .markup

def integer? : List Char → Option Int
  | '-' :: digits => (number? 10 digits).map fun n => -(n : Int)
  | '+' :: digits => (number? 10 digits).map Int.ofNat
  | digits => (number? 10 digits).map Int.ofNat

def readInt32 (raw : List Char) : Except Malformation Int32 :=
  match integer? raw with
  | some n =>
      if Int32.minValue.toInt ≤ n ∧ n ≤ Int32.maxValue.toInt then .ok (Int32.ofInt n)
      else .error (.wrongType (String.ofList raw) "i32")
  | none => .error (.wrongType (String.ofList raw) "i32")

def natural? : List Char → Option Nat
  | '+' :: digits => number? 10 digits
  | digits => number? 10 digits

def readUInt64 (raw : List Char) : Except Malformation UInt64 :=
  match natural? raw with
  | some n =>
      if n < UInt64.size then .ok (UInt64.ofNat n)
      else .error (.wrongType (String.ofList raw) "u64")
  | none => .error (.wrongType (String.ofList raw) "u64")

def readBool (raw : List Char) : Except Malformation Bool :=
  match String.ofList raw with
  | "true" | "1" => .ok true
  | "false" | "0" => .ok false
  | text => .error (.wrongType text "a boolean")

def looseBool (text : String) : Except Malformation Bool :=
  match String.ofList (Text.trim Text.isBlank text.toList) with
  | "1" | "true" => .ok true
  | "" | "0" | "false" => .ok false
  | text => .error (.wrongBoolean text)

def readLooseBool (raw : List Char) : Except Malformation Bool := do
  looseBool (← readText raw)

structure Scalar (α : Type) where
  ofValue : List Char → Except Malformation α
  ofText : List Char → Except Malformation α
  isOptional : Bool := false

namespace Scalar

def optional {α : Type} (x : Scalar α) : Scalar α := { x with isOptional := true }

-- In the text of an element the entities are resolved before it gets here.

def text : Scalar String where
  ofValue := readText
  ofText s := .ok (String.ofList s)

def int32 : Scalar Int32 where
  ofValue := readInt32
  ofText := readInt32

def uint64 : Scalar UInt64 where
  ofValue := readUInt64
  ofText := readUInt64

def bool : Scalar Bool where
  ofValue := readBool
  ofText := readBool

def looseBool : Scalar Bool where
  ofValue := readLooseBool
  ofText s := Markup.looseBool (String.ofList s)

end Scalar

end UpdateProtocol.Markup
