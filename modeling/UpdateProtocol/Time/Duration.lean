namespace UpdateProtocol

structure Duration where
  nanos : Nat
  fits : nanos < UInt64.size * 1000000000
  deriving DecidableEq, Repr

namespace Duration

def ofNanos (n : Nat) : Duration :=
  ⟨min n (UInt64.size * 1000000000 - 1), Nat.lt_of_le_of_lt (Nat.min_le_right ..) (by decide)⟩

def zero : Duration := ofNanos 0

def longest : Duration := ofNanos (UInt64.size * 1000000000 - 1)

instance : Inhabited Duration := ⟨zero⟩

def ofMillis (n : UInt64) : Duration := ofNanos (n.toNat * 1000000)

def ofSeconds (n : UInt64) : Duration := ofNanos (n.toNat * 1000000000)

def add (a b : Duration) : Duration := ofNanos (a.nanos + b.nanos)

def sub (a b : Duration) : Duration := ofNanos (a.nanos - b.nanos)

def double (a : Duration) : Duration := ofNanos (a.nanos * 2)

def half (a : Duration) : Duration := ofNanos (a.nanos / 2)

def seconds (a : Duration) : Nat := a.nanos / 1000000000

def subsecond (a : Duration) : Nat := a.nanos % 1000000000

def ticks (a : Duration) : Nat := (a.nanos + 999999) / 1000000

def fractionText (width n : Nat) : String :=
  let digits := Nat.toDigits 10 n
  let padded := List.replicate (width - digits.length) '0' ++ digits
  match (padded.reverse.dropWhile (· = '0')).reverse with
  | [] => ""
  | kept => "." ++ String.ofList kept

def text (a : Duration) : String :=
  let n := a.nanos
  if 1000000000 ≤ n then
    toString (n / 1000000000) ++ fractionText 9 (n % 1000000000) ++ "s"
  else if 1000000 ≤ n then toString (n / 1000000) ++ fractionText 6 (n % 1000000) ++ "ms"
  else if 1000 ≤ n then toString (n / 1000) ++ fractionText 3 (n % 1000) ++ "µs"
  else toString n ++ "ns"

end Duration

end UpdateProtocol
