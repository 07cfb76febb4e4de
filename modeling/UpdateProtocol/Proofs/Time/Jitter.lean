import UpdateProtocol.Time.Jitter

namespace UpdateProtocol

namespace Duration

theorem ext_nanos {a b : Duration} (h : a.nanos = b.nanos) : a = b := by
  cases a
  cases b
  cases h
  rfl

theorem nanos_le_longest (a : Duration) : a.nanos ≤ longest.nanos := by
  have h := a.fits
  change a.nanos ≤ min _ _
  omega

theorem nanos_ofNanos_min (n : Nat) : (ofNanos n).nanos = min n longest.nanos := by
  change min n _ = min n (min _ _)
  omega

theorem nanos_double (a : Duration) : a.double.nanos = min (a.nanos * 2) longest.nanos :=
  nanos_ofNanos_min _

theorem nanos_half (a : Duration) : a.half.nanos = a.nanos / 2 := by
  have h := a.nanos_le_longest
  rw [half, nanos_ofNanos_min]
  omega

end Duration

namespace Jitter

theorem maxOffset_le (fuzz : Duration) : maxOffset fuzz ≤ Duration.longest.nanos := by
  have h := fuzz.nanos_le_longest
  rw [maxOffset]
  omega

theorem shift_min (base fuzz : Duration) (offset : Nat) :
    shift base fuzz (min offset (maxOffset fuzz)) = shift base fuzz offset := by
  rw [shift, shift, Nat.min_assoc, Nat.min_self]

theorem nanos_shift (base fuzz : Duration) (offset : Nat) :
    (shift base fuzz offset).nanos =
      min (base.nanos + min offset (maxOffset fuzz)) Duration.longest.nanos - fuzz.nanos / 2 := by
  have hbase := base.nanos_le_longest
  have hmax := maxOffset_le fuzz
  rw [shift]
  split
  next hzero =>
    have hnone : maxOffset fuzz = 0 := by rw [maxOffset, hzero, Nat.zero_min]
    rw [hnone, hzero]
    omega
  next =>
    rw [Duration.sub, Duration.add, Duration.nanos_ofNanos_min, Duration.nanos_ofNanos_min,
      Duration.nanos_ofNanos_min, Duration.nanos_half]
    omega

theorem nanos_shift_self_add (base : Duration) (offset : Nat) :
    (shift base base offset).nanos + base.nanos / 2 =
      min (base.nanos + min offset (maxOffset base)) Duration.longest.nanos := by
  have hbase := base.nanos_le_longest
  rw [nanos_shift]
  omega

theorem sub_le_shift (base fuzz : Duration) (offset : Nat) :
    base.nanos - fuzz.nanos / 2 ≤ (shift base fuzz offset).nanos := by
  have hbase := base.nanos_le_longest
  rw [nanos_shift]
  omega

theorem shift_le (base fuzz : Duration) (offset : Nat) :
    (shift base fuzz offset).nanos ≤
      min (base.nanos + (fuzz.nanos + 1) / 2) Duration.longest.nanos := by
  have hmax : maxOffset fuzz ≤ fuzz.nanos := Nat.min_le_left _ _
  rw [nanos_shift]
  omega

end Jitter

end UpdateProtocol
