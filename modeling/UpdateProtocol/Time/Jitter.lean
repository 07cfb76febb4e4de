import UpdateProtocol.Time.Duration

namespace UpdateProtocol.Jitter

def maxOffset (fuzz : Duration) : Nat := min fuzz.nanos (UInt64.size - 1)

def shift (base fuzz : Duration) (offset : Nat) : Duration :=
  if fuzz.nanos = 0 then base
  else (base.add (.ofNanos (min offset (maxOffset fuzz)))).sub fuzz.half

def spread {m : Type → Type} [Monad m] (draw : Nat → m Nat) (base fuzz : Duration) : m Duration :=
  if fuzz.nanos = 0 then pure base
  else do
    let offset ← draw (maxOffset fuzz)
    pure (shift base fuzz offset)

def least (base fuzz : Duration) : Duration := shift base fuzz 0

def greatest (base fuzz : Duration) : Duration := shift base fuzz (maxOffset fuzz)

def within (base fuzz lo hi : Duration) : Bool :=
  lo.nanos ≤ (least base fuzz).nanos && (greatest base fuzz).nanos ≤ hi.nanos

def ticksWithin (base fuzz lo hi : Duration) : Bool :=
  lo.ticks ≤ (least base fuzz).ticks && (greatest base fuzz).ticks ≤ hi.ticks

end UpdateProtocol.Jitter
