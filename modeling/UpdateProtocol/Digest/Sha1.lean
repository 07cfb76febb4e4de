import UpdateProtocol.Digest.Block

namespace UpdateProtocol.Digest

structure Sha1State where
  a : UInt32
  b : UInt32
  c : UInt32
  d : UInt32
  e : UInt32

namespace Sha1State

def initial : Sha1State :=
  ⟨0x67452301, 0xEFCDAB89, 0x98BADCFE, 0x10325476, 0xC3D2E1F0⟩

def add (s t : Sha1State) : Sha1State :=
  ⟨s.a + t.a, s.b + t.b, s.c + t.c, s.d + t.d, s.e + t.e⟩

def schedule (bytes : ByteArray) (start : Nat) : Array UInt32 :=
  Nat.fold 80
    (fun i _ words =>
      let back (k : Nat) : UInt32 := words[i - k]?.getD 0
      words.push <|
        if i < 16 then wordAt bytes (start + 4 * i)
        else rotateLeft (back 3 ^^^ back 8 ^^^ back 14 ^^^ back 16) 1)
    (Array.mkEmpty 80)

def mix (i : Nat) (s : Sha1State) : UInt32 :=
  if i < 20 then ((s.b &&& s.c) ||| (~~~s.b &&& s.d)) + 0x5A827999
  else if i < 40 then (s.b ^^^ s.c ^^^ s.d) + 0x6ED9EBA1
  else if i < 60 then ((s.b &&& s.c) ||| (s.b &&& s.d) ||| (s.c &&& s.d)) + 0x8F1BBCDC
  else (s.b ^^^ s.c ^^^ s.d) + 0xCA62C1D6

def round (i : Nat) (word : UInt32) (s : Sha1State) : Sha1State :=
  ⟨rotateLeft s.a 5 + s.mix i + s.e + word, s.a, rotateLeft s.b 30, s.c, s.d⟩

def compress (bytes : ByteArray) (start : Nat) (s : Sha1State) : Sha1State :=
  let words := schedule bytes start
  s.add (Nat.fold 80 (fun i _ t => Sha1State.round i (words[i]?.getD 0) t) s)

end Sha1State

def sha1 (message : ByteArray) : List UInt8 :=
  let s := overBlocks Sha1State.compress message .initial
  wordBytes [s.a, s.b, s.c, s.d, s.e]

end UpdateProtocol.Digest
