import UpdateProtocol.Proofs.Exchange.Decision
import UpdateProtocol.Proofs.Exchange.Wire

namespace UpdateProtocol

section Attempt

variable {m : Type → Type} [Monad m] [LawfulMonad m] {net : Network m} {settings : NetworkSettings}
  {text : String} {body : ByteArray}

def Url.outcome (url : Url) : Except SendFault Reply → Except Failure Response
  | .error cause => .error (.transport (.lost cause url.text))
  | .ok reply => reply.response

theorem Network.post_of_target [Idna] {url : Url} (h : Url.target text = .ok url) :
    net.post settings text body =
      url.outcome <$> net.exchange { url, timeout := settings.timeout, body } := by
  rw [post, h, map_eq_pure_bind]
  dsimp only
  congr 1
  funext outcome
  cases outcome <;> rfl

omit [LawfulMonad m] in
theorem Network.post_of_unusable [Idna] {fault : TransportFault}
    (h : Url.target text = .error fault) :
    net.post settings text body = pure (.error (.transport fault)) := by
  rw [post, h]

end Attempt

namespace Retry

theorem run_of_ok {m : Type → Type} [Monad m] [LawfulMonad m] {α : Type} (value : α)
    (initial : Duration) (tries : UInt32) (pause : Pause → m Unit) :
    run initial tries (pure (.ok value)) pause = pure (.ok value) := by
  rw [run]
  cases tries.toNat - 1 with
  | zero => rfl
  | succ left => simp [loop]

theorem map_loop {m n : Type → Type} [Monad m] [Monad n] {α : Type} (f : ∀ {β : Type}, m β → n β)
    (hpure : ∀ {β : Type} (b : β), f (pure b) = pure b)
    (hbind : ∀ {β γ : Type} (x : m β) (next : β → m γ), f (x >>= next) = f x >>= fun b => f (next b))
    (attempt : m (Except Failure α)) (pause : Pause → m Unit) (left : Nat) (backoff : Duration) :
    f (loop attempt pause left backoff) = loop (f attempt) (fun p => f (pause p)) left backoff := by
  induction left generalizing backoff with
  | zero => rfl
  | succ left ih =>
    rw [loop, loop, hbind]
    congr 1
    funext outcome
    cases outcome with
    | ok value => exact hpure _
    | error cause =>
      dsimp only
      split
      · rw [hbind, ih]
      · exact hpure _

variable {σ τ α : Type} {attempt : StateM σ (Except Failure α)} {pause : Pause → StateM σ Unit}
  {attempt' : StateM τ (Except Failure α)} {pause' : Pause → StateM τ Unit}

def IsTemporary : Except Failure α → Prop
  | .ok _ => False
  | .error cause => cause.isTemporary

theorem loop_induction {motive : Nat → Duration → σ → Except Failure α → σ → Prop}
    (last : ∀ {left backoff s outcome s'}, attempt.run s = (outcome, s') →
      (left = 0 ∨ ¬ IsTemporary outcome) → motive left backoff s outcome s')
    (again : ∀ {left backoff s cause s' outcome s''}, attempt.run s = (.error cause, s') →
      cause.isTemporary →
      motive left backoff.double ((pause ⟨backoff, left + 1, cause⟩).run s').2 outcome s'' →
      motive (left + 1) backoff s outcome s'')
    (left : Nat) (backoff : Duration) (s : σ) :
    motive left backoff s ((loop attempt pause left backoff).run s).1
      ((loop attempt pause left backoff).run s).2 := by
  induction left generalizing backoff s with
  | zero => exact last rfl (.inl rfl)
  | succ left ih =>
    cases hrun : attempt.run s with
    | mk outcome s' =>
      rw [loop, run_bind_of_run hrun]
      cases outcome with
      | ok value => exact last hrun (.inr id)
      | error cause =>
        dsimp only
        split
        · exact again hrun ‹_› (ih backoff.double _)
        · exact last hrun (.inr ‹_›)

theorem loop_related {Before After : σ → τ → Prop}
    (hattempt : ∀ s t, Before s t →
      (attempt.run s).1 = (attempt'.run t).1 ∧ After (attempt.run s).2 (attempt'.run t).2)
    (hpause : ∀ p s t, After s t → Before ((pause p).run s).2 ((pause' p).run t).2)
    (left : Nat) (backoff : Duration) {s : σ} {t : τ} (h : Before s t) :
    ((loop attempt pause left backoff).run s).1 = ((loop attempt' pause' left backoff).run t).1 ∧
      After ((loop attempt pause left backoff).run s).2
        ((loop attempt' pause' left backoff).run t).2 := by
  induction left generalizing backoff s t with
  | zero => exact hattempt s t h
  | succ left ih =>
    obtain ⟨hsame, hafter⟩ := hattempt s t h
    cases hrun : attempt.run s with
    | mk outcome s' =>
      cases hrun' : attempt'.run t with
      | mk outcome' t' =>
        rw [hrun, hrun'] at hsame hafter
        obtain rfl : outcome = outcome' := hsame
        rw [loop, loop, run_bind_of_run hrun, run_bind_of_run hrun']
        cases outcome with
        | ok value => exact ⟨rfl, hafter⟩
        | error cause =>
          dsimp only
          split
          · exact ih backoff.double (hpause _ s' t' hafter)
          · exact ⟨rfl, hafter⟩

end Retry

end UpdateProtocol
