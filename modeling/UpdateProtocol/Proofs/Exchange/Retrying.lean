import Mathlib.Algebra.Ring.Nat
import Mathlib.Order.Bounds.Basic
import UpdateProtocol.Proofs.Exchange.Sending
import UpdateProtocol.Proofs.Time.Text

namespace UpdateProtocol

namespace Retry

section Counter

variable {m : Type → Type} [Monad m] {α : Type}

theorem toNat_pos {n : UInt32} (h : n ≠ 0) : 0 < n.toNat :=
  Nat.pos_of_ne_zero fun hzero => h (UInt32.toNat_inj.1 hzero)

theorem toNat_sub_one {n : UInt32} (h : n ≠ 0) : (n - 1).toNat = n.toNat - 1 :=
  UInt32.toNat_sub_of_le n 1 (UInt32.le_iff_toNat_le.2 (toNat_pos h))

/-- The loop with a machine word that is taken down after every failure; at zero that cannot be
done, and there is no outcome then. -/
def counted (attempt : m (Except Failure α)) (pause : Pause → m Unit) (remaining : UInt32)
    (backoff : Duration) : m (Option (Except Failure α)) := do
  match ← attempt with
  | .ok value => pure (some (.ok value))
  | .error cause =>
      if h : remaining = 0 then pure none
      else if remaining - 1 = 0 ∨ ¬ cause.isTemporary then pure (some (.error cause))
      else do
        pause ⟨backoff, (remaining - 1).toNat, cause⟩
        counted attempt pause (remaining - 1) backoff.double
termination_by remaining.toNat
decreasing_by
  rw [toNat_sub_one h]
  exact Nat.sub_one_lt_of_lt (toNat_pos h)

variable [LawfulMonad m]

theorem counted_eq_loop (attempt : m (Except Failure α)) (pause : Pause → m Unit) {left : Nat}
    {remaining : UInt32} (h : remaining.toNat = left + 1) (backoff : Duration) :
    counted attempt pause remaining backoff = some <$> loop attempt pause left backoff := by
  have hne : remaining ≠ 0 := by
    rintro rfl
    cases h
  have hnext : (remaining - 1).toNat = left := by
    rw [toNat_sub_one hne, h, Nat.add_sub_cancel]
  induction left generalizing remaining backoff with
  | zero =>
    have hlast : remaining - 1 = 0 := UInt32.toNat_inj.1 hnext
    rw [counted, loop, map_eq_pure_bind]
    congr 1
    funext outcome
    cases outcome with
    | ok value => rfl
    | error cause => simp [hne, hlast]
  | succ left ih =>
    have hmore : remaining - 1 ≠ 0 := by
      intro hzero
      rw [hzero] at hnext
      cases hnext
    rw [counted, loop, map_bind]
    congr 1
    funext outcome
    cases outcome with
    | ok value => simp
    | error cause =>
      cases htemporary : cause.isTemporary with
      | false => simp [hne, htemporary]
      | true =>
        have hlater := ih hnext backoff.double hmore (by rw [toNat_sub_one hmore, hnext]; omega)
        simp [hne, hmore, htemporary, hnext, hlater]

end Counter

inductive Deed (α : Type) where
  | attempted (outcome : Except Failure α)
  | warned (text : String)
  | slept (length : Duration)

structure Journal (α : Type) where
  attempts : Nat := 0
  pauses : Nat := 0
  deeds : List (Deed α) := []

namespace Journal

variable {α : Type}

def attempt (outcomes : Nat → Except Failure α) : StateM (Journal α) (Except Failure α) :=
  fun j => (outcomes (j.attempts + 1),
    { j with
      attempts := j.attempts + 1
      deeds := j.deeds ++ [.attempted (outcomes (j.attempts + 1))] })

def timer (offsets : Nat → Nat) : Timer (StateM (Journal α)) where
  warn text j := ((), { j with deeds := j.deeds ++ [.warned text] })
  draw most j := (min (offsets (j.pauses + 1)) most, j)
  sleep length j :=
    ((), { j with pauses := j.pauses + 1, deeds := j.deeds ++ [.slept length] })

theorem spread_run (offsets : Nat → Nat) (base fuzz : Duration) (j : Journal α) :
    (Jitter.spread (timer offsets).draw base fuzz).run j =
      (Jitter.shift base fuzz (offsets (j.pauses + 1)), j) := by
  rw [Jitter.spread]
  split
  next hzero =>
    rw [Jitter.shift, if_pos hzero]
    rfl
  next =>
    rw [← Jitter.shift_min]
    rfl

theorem pause_run (offsets : Nat → Nat) (p : Pause) (j : Journal α) :
    ((timer offsets).pause p).run j =
      ((), { j with
        pauses := j.pauses + 1
        deeds := j.deeds ++
          [.warned p.message, .slept (Jitter.shift p.backoff p.backoff (offsets (j.pauses + 1)))] }) := by
  rw [Timer.pause]
  change (Jitter.spread (timer offsets).draw p.backoff p.backoff >>= (timer offsets).sleep).run
    { j with deeds := j.deeds ++ [.warned p.message] } = _
  rw [run_bind_of_run (spread_run offsets p.backoff p.backoff _)]
  change ((), _) = ((), _)
  simp [List.append_assoc]

end Journal

section Course

variable {α : Type}

def backoff (initial : Duration) (k : Nat) : Duration := .ofNanos (initial.nanos * 2 ^ (k - 1))

theorem backoff_one (initial : Duration) : backoff initial 1 = initial := by
  apply Duration.ext_nanos
  have h := initial.nanos_le_longest
  rw [backoff, Duration.nanos_ofNanos_min, Nat.sub_self, Nat.pow_zero, Nat.mul_one]
  exact Nat.min_eq_left h

theorem double_backoff (initial : Duration) {k : Nat} (hk : 1 ≤ k) :
    (backoff initial k).double = backoff initial (k + 1) := by
  apply Duration.ext_nanos
  obtain ⟨k, rfl⟩ := Nat.exists_eq_add_of_le' hk
  have hpow : initial.nanos * 2 ^ (k + 1) = initial.nanos * 2 ^ k * 2 := by
    rw [Nat.pow_succ, Nat.mul_assoc]
  rw [Duration.nanos_double, backoff, backoff, Duration.nanos_ofNanos_min,
    Duration.nanos_ofNanos_min, Nat.add_sub_cancel, Nat.add_sub_cancel, hpow]
  omega

def turn (initial : Duration) (most : Nat) (outcomes : Nat → Except Failure α)
    (causes : Nat → Failure) (offsets : Nat → Nat) (k : Nat) : List (Deed α) :=
  [.attempted (outcomes k),
    .warned ("Omaha request failed, retrying in ~" ++ (backoff initial k).text ++ " (" ++
      toString (most - k) ++ " attempts left): " ++ (causes k).message),
    .slept (Jitter.shift (backoff initial k) (backoff initial k) (offsets k))]

structure Leads (initial : Duration) (most : Nat) (outcomes : Nat → Except Failure α)
    (causes : Nat → Failure) (offsets : Nat → Nat) (k n : Nat) (deeds : List (Deed α))
    (outcome : Except Failure α) (j : Journal α) : Prop where
  first : k ≤ n
  bounded : n ≤ most
  temporary : ∀ i, k ≤ i → i < n → IsTemporary (outcomes i)
  last : n = most ∨ ¬ IsTemporary (outcomes n)
  outcome : outcome = outcomes n
  attempts : j.attempts = n
  pauses : j.pauses = n - 1
  deeds : j.deeds = deeds ++
    (List.range' k (n - k)).flatMap (turn initial most outcomes causes offsets) ++
      [.attempted (outcomes n)]

variable {initial : Duration} {most : Nat} {outcomes : Nat → Except Failure α}
  {causes : Nat → Failure} {offsets : Nat → Nat}

theorem Leads.journal_eq {k n : Nat} {deeds : List (Deed α)} {outcome : Except Failure α}
    {j : Journal α} (h : Leads initial most outcomes causes offsets k n deeds outcome j) :
    j =
      { attempts := n
        pauses := n - 1
        deeds := deeds ++
          (List.range' k (n - k)).flatMap (turn initial most outcomes causes offsets) ++
            [.attempted (outcomes n)] } := by
  rw [← h.deeds, ← h.pauses, ← h.attempts]

theorem Leads.cons {k n : Nat} {deeds : List (Deed α)} {outcome : Except Failure α} {j : Journal α}
    (h : Leads initial most outcomes causes offsets (k + 1) n
      (deeds ++ turn initial most outcomes causes offsets k) outcome j)
    (htemporary : IsTemporary (outcomes k)) :
    Leads initial most outcomes causes offsets k n deeds outcome j where
  first := Nat.le_of_succ_le h.first
  bounded := h.bounded
  temporary i hi hn := by
    rcases Nat.eq_or_lt_of_le hi with rfl | hlt
    · exact htemporary
    · exact h.temporary i hlt hn
  last := h.last
  outcome := h.outcome
  attempts := h.attempts
  pauses := h.pauses
  deeds := by
    have hfirst := h.first
    have hrange : List.range' k (n - k) = k :: List.range' (k + 1) (n - (k + 1)) := by
      obtain ⟨d, hd⟩ : ∃ d, n - k = d + 1 := ⟨n - k - 1, by omega⟩
      rw [hd, List.range'_succ, show n - (k + 1) = d by omega]
    rw [h.deeds, hrange, List.flatMap_cons, List.append_assoc deeds]

theorem run_turn {j j' : Journal α} {cause : Failure}
    (hrun : (Journal.attempt outcomes).run j = (.error cause, j'))
    (hcause : cause = causes (j.attempts + 1)) (hpauses : j.pauses = j.attempts) :
    (((Journal.timer offsets).pause
        ⟨backoff initial (j.attempts + 1), most - (j.attempts + 1), cause⟩).run j').2 =
      { attempts := j.attempts + 1
        pauses := j.attempts + 1
        deeds := j.deeds ++ turn initial most outcomes causes offsets (j.attempts + 1) } := by
  obtain ⟨-, rfl⟩ := Prod.mk.inj hrun
  rw [Journal.pause_run, hcause]
  unfold turn Pause.message
  simp only [hpauses, List.append_assoc, List.cons_append, List.nil_append]

theorem leads_loop (hcauses : ∀ k, IsTemporary (outcomes k) → outcomes k = .error (causes k))
    (initial : Duration) (most : Nat) (offsets : Nat → Nat) (left : Nat) (start : Duration)
    (j : Journal α) :
    j.pauses = j.attempts → j.attempts + 1 + left = most →
      start = backoff initial (j.attempts + 1) →
      ∃ n, Leads initial most outcomes causes offsets (j.attempts + 1) n j.deeds
        ((loop (Journal.attempt outcomes) (Journal.timer offsets).pause left start).run j).1
        ((loop (Journal.attempt outcomes) (Journal.timer offsets).pause left start).run j).2 := by
  refine loop_induction
    (motive := fun left start j outcome j' =>
      j.pauses = j.attempts → j.attempts + 1 + left = most →
        start = backoff initial (j.attempts + 1) →
        ∃ n, Leads initial most outcomes causes offsets (j.attempts + 1) n j.deeds outcome j')
    ?last ?again left start j
  case last =>
    intro left start j outcome j' hrun hdone hpauses hmost _
    obtain ⟨rfl, rfl⟩ := Prod.mk.inj hrun
    refine ⟨j.attempts + 1, Nat.le_refl _, by omega, ?_, ?_, rfl, rfl, hpauses, by simp⟩
    · intro i hi hn
      exact absurd hn (Nat.not_lt.2 hi)
    · rcases hdone with rfl | hsettled
      · exact .inl hmost
      · exact .inr hsettled
  case again =>
    rintro left start j cause j' outcome j'' hrun htemporary hlater hpauses hmost rfl
    have houtcome : outcomes (j.attempts + 1) = .error cause := congrArg Prod.fst hrun
    have hk : IsTemporary (outcomes (j.attempts + 1)) := by
      rw [houtcome]
      exact htemporary
    have hcause : cause = causes (j.attempts + 1) :=
      Except.error.inj (houtcome.symm.trans (hcauses _ hk))
    have hleft : left + 1 = most - (j.attempts + 1) := by omega
    rw [hleft, run_turn hrun hcause hpauses] at hlater
    obtain ⟨n, hn⟩ := hlater rfl (by dsimp only; omega) (double_backoff initial (Nat.succ_pos _))
    exact ⟨n, hn.cons hk⟩

theorem exists_causes (outcomes : Nat → Except Failure α) :
    ∃ causes : Nat → Failure, ∀ k, IsTemporary (outcomes k) → outcomes k = .error (causes k) := by
  have hcause : ∀ k, ∃ cause, IsTemporary (outcomes k) → outcomes k = .error cause := by
    intro k
    cases outcomes k with
    | ok value => exact ⟨.config "", False.elim⟩
    | error cause => exact ⟨cause, fun _ => rfl⟩
  exact Classical.skolem.1 hcause

theorem toNat_max_one (n : UInt32) : (max n 1).toNat = max n.toNat 1 := by
  change (if n ≤ 1 then 1 else n).toNat = _
  split
  next h => exact (Nat.max_eq_right (UInt32.le_iff_toNat_le.1 h)).symm
  next h => exact (Nat.max_eq_left (Nat.le_of_not_le (h ∘ UInt32.le_iff_toNat_le.2))).symm

structure Account (initial : Duration) (tries : UInt32) (outcomes : Nat → Except Failure α)
    (offsets : Nat → Nat) (causes : Nat → Failure) (n : Nat) : Prop where
  last : IsLeast {k | 1 ≤ k ∧ (k = max tries.toNat 1 ∨ ¬ IsTemporary (outcomes k))} n
  failed : ∀ k, 1 ≤ k → k < n → outcomes k = .error (causes k)
  run : (Retry.run initial tries (Journal.attempt outcomes) (Journal.timer offsets).pause).run {} =
    (outcomes n,
      { attempts := n
        pauses := n - 1
        deeds := (List.range' 1 (n - 1)).flatMap
            (turn initial (max tries.toNat 1) outcomes causes offsets) ++
          [.attempted (outcomes n)] })
  counted : Retry.counted (Journal.attempt outcomes) (Journal.timer offsets).pause (max tries 1)
      initial =
    some <$> Retry.run initial tries (Journal.attempt outcomes) (Journal.timer offsets).pause
  left : ∀ k, 1 ≤ k → k < n → 1 ≤ max tries.toNat 1 - k
  named : ∀ k d, Duration.text d = (backoff initial k).text → d = backoff initial k
  backoff : ∀ k, (backoff initial k).nanos =
    min (initial.nanos * 2 ^ (k - 1)) Duration.longest.nanos
  exact : ∀ k,
    (Jitter.shift (Retry.backoff initial k) (Retry.backoff initial k) (offsets k)).nanos +
        (Retry.backoff initial k).nanos / 2 =
      min ((Retry.backoff initial k).nanos +
        min (offsets k) (Jitter.maxOffset (Retry.backoff initial k))) Duration.longest.nanos
  shortest : ∀ k, (Retry.backoff initial k).nanos - (Retry.backoff initial k).nanos / 2 ≤
    (Jitter.shift (Retry.backoff initial k) (Retry.backoff initial k) (offsets k)).nanos
  longest : ∀ k,
    (Jitter.shift (Retry.backoff initial k) (Retry.backoff initial k) (offsets k)).nanos ≤
      min ((Retry.backoff initial k).nanos + ((Retry.backoff initial k).nanos + 1) / 2)
        Duration.longest.nanos

theorem run_account (initial : Duration) (tries : UInt32) (outcomes : Nat → Except Failure α)
    (offsets : Nat → Nat) : ∃ n causes, Account initial tries outcomes offsets causes n := by
  obtain ⟨causes, hcauses⟩ := exists_causes outcomes
  have hmost : 0 + 1 + (tries.toNat - 1) = max tries.toNat 1 := by omega
  obtain ⟨n, hn⟩ := leads_loop hcauses initial _ offsets (tries.toNat - 1) initial {} rfl hmost
    (backoff_one initial).symm
  refine ⟨n, causes, ?last, ?failed, ?run, ?counted, ?left, ?named, ?backoff, ?exact, ?shortest,
    ?longest⟩
  case last =>
    refine ⟨⟨hn.first, hn.last⟩, ?_⟩
    rintro k ⟨hk, hlast⟩
    by_contra hlt
    have hlt := Nat.lt_of_not_le hlt
    rcases hlast with rfl | hsettled
    · exact absurd hn.bounded (Nat.not_le.2 hlt)
    · exact hsettled (hn.temporary k hk hlt)
  case failed =>
    intro k hk hlt
    exact hcauses k (hn.temporary k hk hlt)
  case run => exact Prod.ext hn.outcome hn.journal_eq
  case counted =>
    refine counted_eq_loop _ _ ?_ initial
    rw [toNat_max_one]
    omega
  case left =>
    intro k _ hlt
    have hbounded := hn.bounded
    omega
  case named =>
    intro k d h
    exact Duration.text_injective h
  case backoff =>
    intro k
    exact Duration.nanos_ofNanos_min _
  case exact =>
    intro k
    exact Jitter.nanos_shift_self_add _ _
  case shortest =>
    intro k
    exact Jitter.sub_le_shift _ _ _
  case longest =>
    intro k
    exact Jitter.shift_le _ _ _

theorem run_account_twice :
    let outcomes : Nat → Except Failure String
      | 1 => .error (.http ⟨503, by decide, by decide⟩)
      | 2 => .error (.transport (.bodyCut true))
      | _ => .ok "done"
    ∃ causes, Account .longest 7 outcomes id causes 3 := by
  intro outcomes
  obtain ⟨n, causes, h⟩ := run_account .longest 7 outcomes id
  have hthird : IsLeast {k | 1 ≤ k ∧ (k = max (7 : UInt32).toNat 1 ∨ ¬ IsTemporary (outcomes k))} 3 := by
    refine ⟨⟨by decide, .inr id⟩, ?_⟩
    rintro k ⟨hk, hlast⟩
    by_contra hlt
    obtain rfl | rfl : k = 1 ∨ k = 2 := by omega
    · exact hlast.resolve_left (by decide) rfl
    · exact hlast.resolve_left (by decide) rfl
  obtain rfl := h.last.unique hthird
  exact ⟨causes, h⟩

end Course

end Retry

end UpdateProtocol
