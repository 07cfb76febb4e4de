import Mathlib.Algebra.Ring.Nat
import Mathlib.Logic.ExistsUnique
import UpdateProtocol.Proofs.Time.Jitter
import UpdateProtocol.Time.Words

namespace UpdateProtocol

namespace Word

theorem sum32?_of_lt {a b : UInt32} (h : a.toNat + b.toNat < UInt32.size) :
    ∃ c, sum32? a b = some c ∧ c.toNat = a.toNat + b.toNat :=
  ⟨a + b, if_pos h, by rw [UInt32.toNat_add, Nat.mod_eq_of_lt h]⟩

theorem sum64?_of_lt {a b : UInt64} (h : a.toNat + b.toNat < UInt64.size) :
    ∃ c, sum64? a b = some c ∧ c.toNat = a.toNat + b.toNat :=
  ⟨a + b, if_pos h, by rw [UInt64.toNat_add, Nat.mod_eq_of_lt h]⟩

theorem sum64?_of_le {a b : UInt64} (h : UInt64.size ≤ a.toNat + b.toNat) : sum64? a b = none :=
  if_neg (Nat.not_lt.2 h)

theorem product64?_of_lt {a b : UInt64} (h : a.toNat * b.toNat < UInt64.size) :
    ∃ c, product64? a b = some c ∧ c.toNat = a.toNat * b.toNat :=
  ⟨a * b, if_pos h, by rw [UInt64.toNat_mul, Nat.mod_eq_of_lt h]⟩

theorem difference32?_of_le {a b : UInt32} (h : b.toNat ≤ a.toNat) :
    ∃ c, difference32? a b = some c ∧ c.toNat + b.toNat = a.toNat := by
  have hle := UInt32.le_iff_toNat_le.2 h
  exact ⟨a - b, if_pos hle, by rw [UInt32.toNat_sub_of_le a b hle, Nat.sub_add_cancel h]⟩

theorem difference64?_of_le {a b : UInt64} (h : b.toNat ≤ a.toNat) :
    ∃ c, difference64? a b = some c ∧ c.toNat + b.toNat = a.toNat := by
  have hle := UInt64.le_iff_toNat_le.2 h
  exact ⟨a - b, if_pos hle, by rw [UInt64.toNat_sub_of_le a b hle, Nat.sub_add_cancel h]⟩

theorem difference64?_of_lt {a b : UInt64} (h : a.toNat < b.toNat) : difference64? a b = none :=
  if_neg fun hle => absurd (UInt64.le_iff_toNat_le.1 hle) (Nat.not_le.2 h)

end Word

namespace Duration.Words

open Word

variable (a b : Words)

theorem toNat_one : (1 : UInt64).toNat = 1 := by decide

theorem toNat_two : (2 : UInt64).toNat = 2 := by decide

theorem toNat_second32 : (1000000000 : UInt32).toNat = 1000000000 := by decide

theorem toNat_second64 : (1000000000 : UInt64).toNat = 1000000000 := by decide

theorem total_zero : zero.total = 0 := by decide

theorem total_longest : longest.total = Duration.longest.nanos := by decide

theorem seconds_eq : a.seconds.toNat = a.total / 1000000000 := by
  have h := a.nanos_lt
  rw [total]
  omega

theorem nanos_eq : a.nanos.toNat = a.total % 1000000000 := by
  have h := a.nanos_lt
  rw [total]
  omega

theorem carry?_of_lt (seconds : UInt64) {nanos : UInt32} (h : nanos.toNat < 1000000000) :
    ∃ d, carry? seconds nanos = some d ∧ d.total = seconds.toNat * 1000000000 + nanos.toNat :=
  ⟨⟨seconds, nanos, h⟩, dif_pos h, rfl⟩

theorem total_ofNanos (n : UInt64) : (ofNanos n).total = n.toNat := by
  rw [total, ofNanos, UInt64.toNat_div, UInt64.toNat_toUInt32, UInt64.toNat_mod, toNat_second64]
  omega

theorem longest_nanos : Duration.longest.nanos = 18446744073709551615999999999 := by decide

theorem add?_eq : ∃ d, a.add? b = some d ∧
    d.total = min (a.total + b.total) Duration.longest.nanos := by
  have ha := a.nanos_lt
  have hb := b.nanos_lt
  rw [longest_nanos, add?, total, total]
  by_cases hfits : a.seconds.toNat + b.seconds.toNat < 18446744073709551616
  · obtain ⟨seconds, hseconds, hs⟩ := sum64?_of_lt hfits
    obtain ⟨nanos, hnanos, hn⟩ := sum32?_of_lt (a := a.nanos) (b := b.nanos)
      (by rw [UInt32.size]; omega)
    simp only [hseconds, hnanos, Option.bind_eq_bind, Option.bind_some]
    split
    next hless =>
      obtain ⟨d, hd, htotal⟩ := carry?_of_lt seconds hless
      exact ⟨d, hd, by omega⟩
    next hmore =>
      obtain ⟨rest, hrest, hr⟩ := difference32?_of_le (a := nanos) (b := 1000000000)
        (by rw [toNat_second32]; omega)
      rw [toNat_second32] at hr
      rw [hrest, Option.bind_some]
      by_cases hcarry : seconds.toNat + 1 < 18446744073709551616
      · obtain ⟨seconds', hseconds', hs'⟩ := sum64?_of_lt (a := seconds) (b := 1) hcarry
        obtain ⟨d, hd, htotal⟩ := carry?_of_lt seconds' (by omega : rest.toNat < 1000000000)
        rw [toNat_one] at hs'
        rw [hseconds']
        exact ⟨d, hd, by omega⟩
      · rw [sum64?_of_le (a := seconds) (b := 1) (Nat.not_lt.1 hcarry)]
        exact ⟨longest, rfl, by rw [total_longest, longest_nanos]; omega⟩
  · rw [sum64?_of_le (Nat.not_lt.1 hfits)]
    exact ⟨longest, rfl, by rw [total_longest, longest_nanos]; omega⟩

theorem sub?_eq : ∃ d, a.sub? b = some d ∧ d.total = a.total - b.total := by
  have ha := a.nanos_lt
  have hb := b.nanos_lt
  rw [sub?, total, total]
  by_cases hfits : b.seconds.toNat ≤ a.seconds.toNat
  · obtain ⟨seconds, hseconds, hs⟩ := difference64?_of_le hfits
    rw [hseconds]
    dsimp only
    split
    next hle =>
      obtain ⟨nanos, hnanos, hn⟩ := difference32?_of_le hle
      obtain ⟨d, hd, htotal⟩ := carry?_of_lt seconds (by omega : nanos.toNat < 1000000000)
      rw [hnanos]
      exact ⟨d, hd, by omega⟩
    next hlt =>
      by_cases hborrow : 1 ≤ seconds.toNat
      · obtain ⟨seconds', hseconds', hs'⟩ := difference64?_of_le (a := seconds) (b := 1) hborrow
        obtain ⟨lent, hlent, hl⟩ := sum32?_of_lt (a := a.nanos) (b := 1000000000)
          (by rw [toNat_second32, UInt32.size]; omega)
        rw [toNat_one] at hs'
        rw [toNat_second32] at hl
        obtain ⟨nanos, hnanos, hn⟩ := difference32?_of_le (a := lent) (b := b.nanos) (by omega)
        obtain ⟨d, hd, htotal⟩ := carry?_of_lt seconds' (by omega : nanos.toNat < 1000000000)
        simp only [hseconds', hlent, hnanos, hd, Option.bind_eq_bind, Option.bind_some]
        exact ⟨d, rfl, by omega⟩
      · rw [difference64?_of_lt (a := seconds) (b := 1) (Nat.not_le.1 hborrow)]
        exact ⟨zero, rfl, by rw [total_zero]; omega⟩
  · rw [difference64?_of_lt (Nat.not_le.1 hfits)]
    exact ⟨zero, rfl, by rw [total_zero]; omega⟩

theorem half?_eq : ∃ d, a.half? = some d ∧ d.total = a.total / 2 := by
  have ha := a.nanos_lt
  have hodd : (a.seconds % 2).toNat = a.seconds.toNat % 2 := UInt64.toNat_mod ..
  have hrest : (a.nanos % 2).toUInt64.toNat = a.nanos.toNat % 2 := UInt32.toNat_toUInt64 _
  obtain ⟨odd, hproduct, ho⟩ := product64?_of_lt (a := a.seconds % 2) (b := 1000000000)
    (by rw [toNat_second64, hodd, UInt64.size]; omega)
  rw [toNat_second64, hodd] at ho
  obtain ⟨left, hsum, hl⟩ := sum64?_of_lt (a := odd) (b := (a.nanos % 2).toUInt64)
    (by rw [hrest, UInt64.size]; omega)
  rw [hrest] at hl
  have hhalf : (left / 2).toUInt32.toNat = left.toNat / 2 := by
    rw [UInt64.toNat_toUInt32, UInt64.toNat_div, toNat_two]
    omega
  have hquotient : (a.nanos / 2).toNat = a.nanos.toNat / 2 := UInt32.toNat_div ..
  obtain ⟨nanos, hnanos, hn⟩ := sum32?_of_lt (a := a.nanos / 2) (b := (left / 2).toUInt32)
    (by rw [hquotient, hhalf, UInt32.size]; omega)
  rw [hquotient, hhalf] at hn
  obtain ⟨d, hd, htotal⟩ := carry?_of_lt (a.seconds / 2) (by omega : nanos.toNat < 1000000000)
  refine ⟨d, ?_, ?_⟩
  · simp only [half?, hproduct, hsum, hnanos, hd, Option.bind_eq_bind, Option.bind_some]
  · rw [htotal, UInt64.toNat_div, toNat_two, total]
    omega

theorem maxOffset_eq : a.maxOffset.toNat = Jitter.maxOffset a.duration := by
  rw [maxOffset, Jitter.maxOffset]
  change _ = min a.total _
  split
  next h => rw [UInt64.toNat_ofNat_of_lt' h]; omega
  next h => rw [UInt64.toNat_ofNat_of_lt' (by decide)]; omega

theorem toNat_maxOffset : a.maxOffset.toNat = min a.total 18446744073709551615 := a.maxOffset_eq

theorem shift?_eq (base fuzz : Words) {offset : UInt64} (h : offset ≤ fuzz.maxOffset) :
    (base.shift? fuzz offset).map duration =
      some (Jitter.shift base.duration fuzz.duration offset.toNat) := by
  have hdrawn : min offset.toNat (Jitter.maxOffset fuzz.duration) = offset.toNat := by
    rw [← maxOffset_eq]
    exact Nat.min_eq_left (UInt64.le_iff_toNat_le.1 h)
  rw [shift?]
  split
  next hzero =>
    have hnone : fuzz.duration.nanos = 0 := by
      change fuzz.total = 0
      rw [total, hzero.1, hzero.2]
      rfl
    rw [Jitter.shift, if_pos hnone, Option.map_some]
  next =>
    obtain ⟨later, hlater, hsum⟩ := add?_eq base (ofNanos offset)
    obtain ⟨half, hhalf, hquotient⟩ := half?_eq fuzz
    obtain ⟨d, hd, hdifference⟩ := sub?_eq later half
    simp only [hlater, hhalf, hd, Option.bind_eq_bind, Option.bind_some, Option.map_some]
    refine congrArg some (ext_nanos ?_)
    rw [Jitter.nanos_shift, hdrawn]
    change d.total = min (base.total + offset.toNat) _ - fuzz.total / 2
    rw [hdifference, hsum, hquotient, total_ofNanos]

variable {base fuzz : Words}

theorem total_shift?_iff {offset : UInt64} (h : offset ≤ fuzz.maxOffset) {n : Nat} :
    (∃ d, base.shift? fuzz offset = some d ∧ d.total = n) ↔
      (Jitter.shift base.duration fuzz.duration offset.toNat).nanos = n := by
  obtain ⟨d, hd, hshift⟩ := Option.map_eq_some_iff.1 (shift?_eq base fuzz h)
  rw [← hshift, hd]
  constructor
  · rintro ⟨e, he, htotal⟩
    cases he
    exact htotal
  · exact fun htotal => ⟨d, rfl, htotal⟩

theorem nanos_shift_of_le {offset : UInt64} (h : offset ≤ fuzz.maxOffset) :
    (Jitter.shift base.duration fuzz.duration offset.toNat).nanos =
      min (base.total + offset.toNat) Duration.longest.nanos - fuzz.total / 2 := by
  rw [UInt64.le_iff_toNat_le, maxOffset_eq] at h
  rw [Jitter.nanos_shift, Nat.min_eq_left h]
  rfl

def offsetTo (base fuzz : Words) (n : Nat) : UInt64 :=
  UInt64.ofNat (n + fuzz.total / 2 - base.total)

theorem toNat_offsetTo (hfuzz : fuzz.total < UInt64.size) {n : Nat}
    (h : n ≤ base.total + (fuzz.total + 1) / 2) :
    (offsetTo base fuzz n).toNat = n + fuzz.total / 2 - base.total :=
  UInt64.toNat_ofNat_of_lt' (by omega)

theorem offsetTo_le (hfuzz : fuzz.total < UInt64.size) {n : Nat}
    (h : n ≤ base.total + (fuzz.total + 1) / 2) : offsetTo base fuzz n ≤ fuzz.maxOffset := by
  rw [UInt64.le_iff_toNat_le, toNat_offsetTo hfuzz h, maxOffset, if_pos hfuzz,
    UInt64.toNat_ofNat_of_lt' hfuzz]
  omega

/-- `offset` can be drawn for the window `fuzz`, and takes `base` to `n` nanoseconds. -/
def LeadsTo (base fuzz : Words) (n : Nat) (offset : UInt64) : Prop :=
  offset ≤ fuzz.maxOffset ∧ ∃ d, base.shift? fuzz offset = some d ∧ d.total = n

theorem leadsTo_offsetTo (hfuzz : fuzz.total < UInt64.size)
    (hroom : base.total + fuzz.total ≤ Duration.longest.nanos) {n : Nat}
    (hleast : base.total - fuzz.total / 2 ≤ n) (hmost : n ≤ base.total + (fuzz.total + 1) / 2) :
    LeadsTo base fuzz n (offsetTo base fuzz n) := by
  have hle := offsetTo_le hfuzz hmost
  refine ⟨hle, (total_shift?_iff hle).2 ?_⟩
  rw [nanos_shift_of_le hle, toNat_offsetTo hfuzz hmost]
  omega

theorem LeadsTo.eq_offsetTo (hroom : base.total + fuzz.total ≤ Duration.longest.nanos)
    (hbase : fuzz.total / 2 ≤ base.total) {n : Nat} {offset : UInt64}
    (h : LeadsTo base fuzz n offset) : offset = offsetTo base fuzz n := by
  obtain ⟨hle, hn⟩ := h
  rw [total_shift?_iff hle, nanos_shift_of_le hle] at hn
  rw [UInt64.le_iff_toNat_le, toNat_maxOffset] at hle
  have hoffset : n + fuzz.total / 2 - base.total = offset.toNat := by omega
  rw [offsetTo, hoffset, UInt64.ofNat_toNat]

structure Spreads (base fuzz : Words) : Prop where
  drawn : fuzz.maxOffset.toNat = min fuzz.total 18446744073709551615
  shifted : ∀ offset ≤ fuzz.maxOffset, ∃ d, base.shift? fuzz offset = some d ∧
    d.duration = Jitter.shift base.duration fuzz.duration offset.toNat ∧
    base.total - fuzz.total / 2 ≤ d.total ∧
    d.total ≤ min (base.total + (fuzz.total + 1) / 2) Duration.longest.nanos
  monotone : ∀ greater ≤ fuzz.maxOffset, ∀ offset ≤ greater, ∀ d e,
    base.shift? fuzz offset = some d → base.shift? fuzz greater = some e → d.total ≤ e.total
  unspread : fuzz.total = 0 → ∀ offset, base.shift? fuzz offset = some base
  covered : fuzz.total < UInt64.size → base.total + fuzz.total ≤ Duration.longest.nanos →
    ∀ n, base.total - fuzz.total / 2 ≤ n → n ≤ base.total + (fuzz.total + 1) / 2 →
      (∃ offset, LeadsTo base fuzz n offset) ∧
      (fuzz.total / 2 ≤ base.total → ∃! offset, LeadsTo base fuzz n offset)

theorem spreads (base fuzz : Words) : Spreads base fuzz where
  drawn := toNat_maxOffset fuzz
  shifted offset h := by
    obtain ⟨d, hd, hshift⟩ := Option.map_eq_some_iff.1 (shift?_eq base fuzz h)
    have htotal : d.total = (Jitter.shift base.duration fuzz.duration offset.toNat).nanos :=
      congrArg Duration.nanos hshift
    refine ⟨d, hd, hshift, ?_⟩
    rw [htotal]
    exact ⟨Jitter.sub_le_shift base.duration fuzz.duration _,
      Jitter.shift_le base.duration fuzz.duration _⟩
  monotone greater hgreater offset hle d e hd he := by
    have hoffset := UInt64.le_trans hle hgreater
    have hleast := (total_shift?_iff hoffset).1 ⟨d, hd, rfl⟩
    have hmost := (total_shift?_iff hgreater).1 ⟨e, he, rfl⟩
    rw [nanos_shift_of_le hoffset] at hleast
    rw [nanos_shift_of_le hgreater] at hmost
    have hsum := Nat.add_le_add_left (UInt64.le_iff_toNat_le.1 hle) base.total
    rw [← hleast, ← hmost]
    refine Nat.sub_le_sub_right (Nat.le_min.2 ⟨?_, Nat.min_le_right _ _⟩) _
    exact Nat.le_trans (Nat.min_le_left _ _) hsum
  unspread hzero offset := by
    have hseconds : fuzz.seconds = 0 := by
      rw [← UInt64.toNat_inj, fuzz.seconds_eq, hzero]
      rfl
    have hnanos : fuzz.nanos = 0 := by
      rw [← UInt32.toNat_inj, fuzz.nanos_eq, hzero]
      rfl
    rw [shift?, if_pos ⟨hseconds, hnanos⟩]
  covered hfuzz hroom n hleast hmost := by
    have hleads := leadsTo_offsetTo hfuzz hroom hleast hmost
    exact ⟨⟨_, hleads⟩, fun hbase => ⟨_, hleads, fun _ h => h.eq_offsetTo hroom hbase⟩⟩

end Duration.Words

end UpdateProtocol
