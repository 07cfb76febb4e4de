import UpdateProtocol.Failure
import UpdateProtocol.Time.Jitter

namespace UpdateProtocol

structure Pause where
  backoff : Duration
  left : Nat
  cause : Failure
  deriving DecidableEq, Repr

def Pause.message (p : Pause) : String :=
  "Omaha request failed, retrying in ~" ++ p.backoff.text ++ " (" ++ toString p.left ++
    " attempts left): " ++ p.cause.message

structure Timer (m : Type → Type) where
  warn : String → m Unit
  draw : Nat → m Nat
  sleep : Duration → m Unit

def Timer.pause {m : Type → Type} [Monad m] (t : Timer m) (p : Pause) : m Unit := do
  t.warn p.message
  let length ← Jitter.spread t.draw p.backoff p.backoff
  t.sleep length

namespace Retry

variable {m : Type → Type} {α : Type} [Monad m]

def loop (attempt : m (Except Failure α)) (pause : Pause → m Unit) :
    Nat → Duration → m (Except Failure α)
  | 0, _ => attempt
  | left + 1, backoff => do
      match ← attempt with
      | .ok value => pure (.ok value)
      | .error cause =>
          if cause.isTemporary then do
            pause ⟨backoff, left + 1, cause⟩
            loop attempt pause left backoff.double
          else pure (.error cause)

def run (initial : Duration) (tries : UInt32) (attempt : m (Except Failure α))
    (pause : Pause → m Unit) : m (Except Failure α) :=
  loop attempt pause (tries.toNat - 1) initial

end Retry

end UpdateProtocol
