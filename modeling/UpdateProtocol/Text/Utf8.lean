namespace UpdateProtocol.Text

inductive Utf8Fault where
  | wrong (length index : Nat)
  | incomplete (index : Nat)
  deriving DecidableEq, Repr

def Utf8Fault.message : Utf8Fault → String
  | .wrong length index =>
      "invalid utf-8 sequence of " ++ toString length ++ " bytes from index " ++ toString index
  | .incomplete index => "incomplete utf-8 byte sequence from index " ++ toString index

structure Utf8Pending where
  start : Nat
  taken : Nat
  left : Nat
  least : UInt8
  greatest : UInt8

def Utf8Pending.ofLead (start : Nat) (b : UInt8) : Option Utf8Pending :=
  if b < 0xC2 then none
  else if b < 0xE0 then some ⟨start, 1, 1, 0x80, 0xBF⟩
  else if b = 0xE0 then some ⟨start, 1, 2, 0xA0, 0xBF⟩
  else if b = 0xED then some ⟨start, 1, 2, 0x80, 0x9F⟩
  else if b < 0xF0 then some ⟨start, 1, 2, 0x80, 0xBF⟩
  else if b = 0xF0 then some ⟨start, 1, 3, 0x90, 0xBF⟩
  else if b < 0xF4 then some ⟨start, 1, 3, 0x80, 0xBF⟩
  else if b = 0xF4 then some ⟨start, 1, 3, 0x80, 0x8F⟩
  else none

def Utf8Pending.next (p : Utf8Pending) : Option Utf8Pending :=
  if p.left ≤ 1 then none else some ⟨p.start, p.taken + 1, p.left - 1, 0x80, 0xBF⟩

def utf8FaultFrom (index : Nat) : Option Utf8Pending → List UInt8 → Option Utf8Fault
  | none, [] => none
  | some p, [] => some (.incomplete p.start)
  | none, b :: rest =>
      if b < 0x80 then utf8FaultFrom (index + 1) none rest
      else match Utf8Pending.ofLead index b with
        | none => some (.wrong 1 index)
        | some p => utf8FaultFrom (index + 1) (some p) rest
  | some p, b :: rest =>
      if p.least ≤ b && b ≤ p.greatest then utf8FaultFrom (index + 1) p.next rest
      else some (.wrong p.taken p.start)

def utf8Fault? (bytes : List UInt8) : Option Utf8Fault :=
  utf8FaultFrom 0 none bytes

def ofUtf8 (bytes : ByteArray) : Except Utf8Fault String :=
  match String.fromUTF8? bytes with
  | some s => .ok s
  | none => .error ((utf8Fault? bytes.data.toList).getD (.incomplete bytes.size))

theorem ofUtf8_eq_ok_iff {bytes : ByteArray} {s : String} :
    ofUtf8 bytes = .ok s ↔ String.fromUTF8? bytes = some s := by
  unfold ofUtf8
  split <;> simp_all

end UpdateProtocol.Text
