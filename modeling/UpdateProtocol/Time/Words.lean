import UpdateProtocol.Time.Jitter

namespace UpdateProtocol

namespace Word

def sum32? (a b : UInt32) : Option UInt32 :=
  if a.toNat + b.toNat < UInt32.size then some (a + b) else none

def sum64? (a b : UInt64) : Option UInt64 :=
  if a.toNat + b.toNat < UInt64.size then some (a + b) else none

def product64? (a b : UInt64) : Option UInt64 :=
  if a.toNat * b.toNat < UInt64.size then some (a * b) else none

def difference32? (a b : UInt32) : Option UInt32 :=
  if b ≤ a then some (a - b) else none

def difference64? (a b : UInt64) : Option UInt64 :=
  if b ≤ a then some (a - b) else none

end Word

structure Duration.Words where
  seconds : UInt64
  nanos : UInt32
  nanos_lt : nanos.toNat < 1000000000
  deriving DecidableEq, Repr

namespace Duration.Words

open Word

def total (a : Words) : Nat := a.seconds.toNat * 1000000000 + a.nanos.toNat

theorem total_lt (a : Words) : a.total < UInt64.size * 1000000000 := by
  have hseconds := a.seconds.toNat_lt
  have hnanos := a.nanos_lt
  simp only [total, UInt64.size]
  omega

def duration (a : Words) : Duration := ⟨a.total, a.total_lt⟩

def zero : Words := ⟨0, 0, by decide⟩

def longest : Words := ⟨UInt64.ofNat (UInt64.size - 1), 999999999, by decide⟩

def carry? (seconds : UInt64) (nanos : UInt32) : Option Words :=
  if h : nanos.toNat < 1000000000 then some ⟨seconds, nanos, h⟩
  else do
    let seconds ← sum64? seconds (nanos / 1000000000).toUInt64
    some ⟨seconds, nanos % 1000000000, Nat.mod_lt _ (by decide)⟩

def ofNanos (n : UInt64) : Words where
  seconds := n / 1000000000
  nanos := (n % 1000000000).toUInt32
  nanos_lt := Nat.lt_of_le_of_lt (Nat.mod_le _ _) (Nat.mod_lt _ (by decide))

def add? (a b : Words) : Option Words :=
  match sum64? a.seconds b.seconds with
  | none => some longest
  | some seconds => do
      let nanos ← sum32? a.nanos b.nanos
      if nanos.toNat < 1000000000 then carry? seconds nanos
      else do
        let nanos ← difference32? nanos 1000000000
        match sum64? seconds 1 with
        | none => some longest
        | some seconds => carry? seconds nanos

def sub? (a b : Words) : Option Words :=
  match difference64? a.seconds b.seconds with
  | none => some zero
  | some seconds =>
      if b.nanos.toNat ≤ a.nanos.toNat then do
        let nanos ← difference32? a.nanos b.nanos
        carry? seconds nanos
      else match difference64? seconds 1 with
        | none => some zero
        | some seconds => do
            let lent ← sum32? a.nanos 1000000000
            let nanos ← difference32? lent b.nanos
            carry? seconds nanos

def half? (a : Words) : Option Words := do
  let odd ← product64? (a.seconds % 2) 1000000000
  let left ← sum64? odd (a.nanos % 2).toUInt64
  let nanos ← sum32? (a.nanos / 2) (left / 2).toUInt32
  carry? (a.seconds / 2) nanos

def maxOffset (fuzz : Words) : UInt64 :=
  if fuzz.total < UInt64.size then UInt64.ofNat fuzz.total else UInt64.ofNat (UInt64.size - 1)

def shift? (base fuzz : Words) (offset : UInt64) : Option Words :=
  if fuzz.seconds = 0 ∧ fuzz.nanos = 0 then some base
  else do
    let later ← base.add? (ofNanos offset)
    let half ← fuzz.half?
    later.sub? half

end Duration.Words

end UpdateProtocol
