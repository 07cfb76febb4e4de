namespace UpdateProtocol.Text

def digitValue? (base : Nat) (c : Char) : Option Nat :=
  let value :=
    if '0' ≤ c ∧ c ≤ '9' then c.toNat - 48
    else if 'a' ≤ c ∧ c ≤ 'z' then c.toNat - 87
    else if 'A' ≤ c ∧ c ≤ 'Z' then c.toNat - 55
    else base
  if value < base then some value else none

def number? (base : Nat) : List Char → Option Nat
  | [] => none
  | digits => digits.foldl
      (fun n? c => n?.bind fun n => (digitValue? base c).map (n * base + ·)) (some 0)

end UpdateProtocol.Text
