import UpdateProtocol.Text.Utf8

namespace UpdateProtocol.Text

def hexByte? (b : UInt8) : Option UInt8 :=
  if 0x30 ≤ b && b ≤ 0x39 then some (b - 0x30)
  else if 0x41 ≤ b && b ≤ 0x46 then some (b - 0x37)
  else if 0x61 ≤ b && b ≤ 0x66 then some (b - 0x57)
  else none

def escape? (percent high low : UInt8) : Option UInt8 :=
  if percent = 0x25 then
    match hexByte? high, hexByte? low with
    | some h, some l => some (h * 16 + l)
    | _, _ => none
  else none

def percentDecodeBytes : List UInt8 → List UInt8
  | b :: high :: low :: rest => match escape? b high low with
    | some decoded => decoded :: percentDecodeBytes rest
    | none => b :: percentDecodeBytes (high :: low :: rest)
  | rest => rest

def percentDecode? (s : String) : Option String :=
  String.fromUTF8? ⟨(percentDecodeBytes s.toUTF8.data.toList).toArray⟩

def upperHex (n : Nat) : Char :=
  if n < 10 then Char.ofNat (48 + n) else Char.ofNat (55 + n)

def percentEncodeByte (b : UInt8) : List Char :=
  ['%', upperHex (b.toNat / 16), upperHex (b.toNat % 16)]

def percentEncode (escaped : Char → Bool) (s : List Char) : List Char :=
  s.flatMap fun c =>
    if c.toNat < 0x80 && !escaped c then [c]
    else c.toString.toUTF8.data.toList.flatMap percentEncodeByte

end UpdateProtocol.Text
