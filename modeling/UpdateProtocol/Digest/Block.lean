namespace UpdateProtocol.Digest

def wordAt (bytes : ByteArray) (i : Nat) : UInt32 :=
  let byte (k : Nat) : UInt32 := (bytes[i + k]?.getD 0).toUInt32
  byte 0 <<< 24 ||| byte 1 <<< 16 ||| byte 2 <<< 8 ||| byte 3

def rotateLeft (w n : UInt32) : UInt32 :=
  w <<< n ||| w >>> (32 - n)

def rotateRight (w n : UInt32) : UInt32 :=
  w >>> n ||| w <<< (32 - n)

def bigEndian (width n : Nat) : List UInt8 :=
  (List.range width).reverse.map fun k => (n / Nat.pow 256 k).toUInt8

def padded (message : ByteArray) : ByteArray :=
  let zeros := (119 - message.size % 64) % 64
  message ++
    ByteArray.mk (0x80 :: List.replicate zeros 0 ++ bigEndian 8 (message.size * 8)).toArray

def overBlocks {σ : Type} (step : ByteArray → Nat → σ → σ) (message : ByteArray) (s : σ) : σ :=
  let bytes := padded message
  Nat.fold (bytes.size / 64) (fun i _ s => step bytes (64 * i) s) s

def wordBytes (words : List UInt32) : List UInt8 :=
  words.flatMap fun w => bigEndian 4 w.toNat

end UpdateProtocol.Digest
