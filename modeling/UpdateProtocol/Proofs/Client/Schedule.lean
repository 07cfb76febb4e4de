import UpdateProtocol.Proofs.Client.Registry
import UpdateProtocol.Proofs.Client.Snapshot
import UpdateProtocol.Proofs.Time.Jitter

namespace UpdateProtocol

def Answer.question? : Answer → Option Question
  | question q => some q
  | _ => none

structure Fleet where
  clients : List Client := []
  pending : List Question := []
  settled : List (Question × Except Failure Response) := []

namespace Fleet

inductive Move where
  | start (o : Origin)
  | perform (place : Nat) (op : Operation)
  | settle (place : Nat) (answer : Except Failure Response)

def move [Idna] (w : Fleet) : Move → Fleet
  | .start o => match o.client with
    | .error _ => w
    | .ok c => { w with clients := w.clients ++ [c] }
  | .perform place op => match w.clients[place]? with
    | none => w
    | some c =>
        { w with
          clients := w.clients.set place (c.perform op).1
          pending := w.pending ++ (c.perform op).2.question?.toList }
  | .settle place answer => match w.pending[place]? with
    | none => w
    | some q =>
        { w with
          pending := w.pending.eraseIdx place
          settled := w.settled ++ [(q, answer)] }

def after [Idna] (w : Fleet) (moves : List Move) : Fleet := moves.foldl move w

end Fleet

def Origin.settings : Origin → Settings
  | user _ _ _ settings | machine _ _ settings => settings

def Operation.pings : Operation → Bool
  | ask _ inquiry => inquiry.pings
  | setServerUrl _ | setVersion _ | newApp .. | rename .. | set .. => false

namespace Client

variable {c : Client}

theorem schedule_of_start [Idna] {o : Origin} (hstart : o.client = .ok c) :
    c.session.schedule = o.settings.schedule ∧ c.hasPinged = false := by
  cases o with
  | user url userId sessionId settings =>
    obtain ⟨serverUrl, -, rfl⟩ := start_eq_ok (forUser_eq_ok hstart).2
    exact ⟨rfl, rfl⟩
  | machine url identity settings =>
    obtain ⟨serverUrl, -, rfl⟩ := start_eq_ok hstart
    exact ⟨rfl, rfl⟩

def startsPing (c : Client) : Operation → Bool
  | .ask access inquiry => inquiry.pings && ((c.access? access).bind c.app?).isSome
  | .setServerUrl _ | .setVersion _ | .newApp .. | .rename .. | .set .. => false

theorem pings_of_startsPing {op : Operation} (h : c.startsPing op) : op.pings := by
  cases op with
  | ask access inquiry => exact (Bool.and_eq_true_iff.1 h).1
  | _ => cases h

theorem hasPinged_inquire (c : Client) (a : App) (inquiry : Inquiry) :
    (c.inquire a inquiry).1.hasPinged = (c.hasPinged || inquiry.pings) := by
  cases inquiry <;> simp [inquire, askUpdateCheck, askPing, askPinging, Inquiry.pings]

theorem hasPinged_perform [Idna] (c : Client) (op : Operation) :
    (c.perform op).1.hasPinged = (c.hasPinged || c.startsPing op) := by
  by_cases happs : op.isOnApps
  · obtain ⟨apps, registry, hkept⟩ := perform_of_isOnApps c happs
    have hnone : c.startsPing op = false := by cases op <;> first | rfl | cases happs
    rw [hkept, hnone, Bool.or_false]
  · cases op with
    | setServerUrl url =>
      rw [startsPing, Bool.or_false, perform]
      cases heq : c.setServerUrl url with
      | error cause => rfl
      | ok c' =>
        rw [(setServerUrl_eq_ok heq).2]
        rfl
    | setVersion version => rw [startsPing, Bool.or_false]; rfl
    | ask access inquiry =>
      rw [startsPing, perform]
      cases (c.access? access).bind c.app? with
      | none => rw [Option.isSome_none, Bool.and_false, Bool.or_false]
      | some a => rw [Option.isSome_some, Bool.and_true]; exact hasPinged_inquire c a inquiry
    | _ => exact absurd rfl happs

end Client

namespace Fleet

section Runs

variable [Idna] {w : Fleet} {i : Nat} {c : Client}

inductive Pings (i : Nat) : Fleet → List Move → Prop
  | now {w : Fleet} {c : Client} {op : Operation} {moves : List Move}
      (found : w.clients[i]? = some c) (starts : c.startsPing op) :
      Pings i w (.perform i op :: moves)
  | later {w : Fleet} {m : Move} {moves : List Move} (rest : Pings i (w.move m) moves) :
      Pings i w (m :: moves)

theorem Pings.append {moves : List Move} (h : Pings i w moves) (further : List Move) :
    Pings i w (moves ++ further) := by
  induction h with
  | now found starts => exact .now found starts
  | later _ ih => exact .later ih

theorem pings_append_iff {moves further : List Move} :
    Pings i w (moves ++ further) ↔ Pings i w moves ∨ Pings i (w.after moves) further := by
  constructor
  · intro h
    induction moves generalizing w with
    | nil => exact .inr h
    | cons m moves ih =>
      cases h with
      | now found starts => exact .inl (.now found starts)
      | later rest => exact (ih rest).imp .later id
  · rintro (h | h)
    · exact h.append further
    · induction moves generalizing w with
      | nil => exact h
      | cons m moves ih => exact .later (ih h)

theorem client_move (hc : w.clients[i]? = some c) (m : Move) :
    ((∀ op, m ≠ .perform i op) ∧ (w.move m).clients[i]? = some c) ∨
      ∃ op, m = .perform i op ∧ (w.move m).clients[i]? = some (c.perform op).1 := by
  have hlt : i < w.clients.length := (List.getElem?_eq_some_iff.1 hc).1
  cases m with
  | start o =>
    refine .inl ⟨nofun, ?_⟩
    rw [move]
    cases o.client with
    | error cause => exact hc
    | ok c' => exact (List.getElem?_append_left hlt).trans hc
  | perform place op =>
    rw [move]
    by_cases hplace : place = i
    · subst hplace
      rw [hc]
      exact .inr ⟨op, rfl, List.getElem?_set_self hlt⟩
    · refine .inl ⟨fun op' heq => hplace (Move.perform.inj heq).1, ?_⟩
      cases w.clients[place]? with
      | none => exact hc
      | some c' => exact (List.getElem?_set_ne hplace).trans hc
  | settle place answer =>
    refine .inl ⟨nofun, ?_⟩
    rw [move]
    cases w.pending[place]? <;> exact hc

theorem pings_cons_of_other {m : Move} {moves : List Move} (h : ∀ op, m ≠ .perform i op) :
    Pings i w (m :: moves) ↔ Pings i (w.move m) moves := by
  refine ⟨?_, .later⟩
  rintro (⟨-, -⟩ | rest)
  · exact absurd rfl (h _)
  · exact rest

theorem pings_cons_of_perform (hc : w.clients[i]? = some c) {op : Operation} {moves : List Move} :
    Pings i w (.perform i op :: moves) ↔
      c.startsPing op ∨ Pings i (w.move (.perform i op)) moves := by
  constructor
  · rintro (⟨found, starts⟩ | rest)
    · cases hc.symm.trans found
      exact .inl starts
    · exact .inr rest
  · rintro (starts | rest)
    · exact .now hc starts
    · exact .later rest

theorem client_after (hc : w.clients[i]? = some c) (moves : List Move) :
    ∃ d, (w.after moves).clients[i]? = some d ∧ d.session = c.session ∧
      (d.hasPinged ↔ c.hasPinged ∨ Pings i w moves) := by
  induction moves generalizing w c with
  | nil => exact ⟨c, hc, rfl, .inl, fun h => h.resolve_right nofun⟩
  | cons m moves ih =>
    obtain ⟨hother, hkept⟩ | ⟨op, rfl, hdone⟩ := client_move hc m
    · obtain ⟨d, hd, hsession, hpinged⟩ := ih hkept
      exact ⟨d, hd, hsession, by rw [hpinged, pings_cons_of_other hother]⟩
    · obtain ⟨d, hd, hsession, hpinged⟩ := ih hdone
      refine ⟨d, hd, hsession.trans (Client.session_perform c op), hpinged.trans ?_⟩
      rw [Client.hasPinged_perform, Bool.or_eq_true, or_assoc, pings_cons_of_perform hc]

theorem not_pings_of_quiet {moves : List Move}
    (h : ∀ op, .perform i op ∈ moves → op.pings = false) : ¬ Pings i w moves := by
  intro hpings
  induction hpings with
  | now found starts =>
    have hquiet := h _ List.mem_cons_self
    rw [Client.pings_of_startsPing starts] at hquiet
    cases hquiet
  | later rest ih => exact ih fun op hop => h op (List.mem_cons_of_mem _ hop)

def delay? (w : Fleet) (i offset : Nat) : Option Duration :=
  w.clients[i]?.map fun c => c.nextPing offset

theorem delay?_after (hc : w.clients[i]? = some c) (hfresh : c.hasPinged = false)
    (moves : List Move) (offset : Nat) :
    (Pings i w moves → (w.after moves).delay? i offset =
        some (Jitter.shift c.session.schedule.interval c.session.schedule.fuzz offset)) ∧
      (¬ Pings i w moves → (w.after moves).delay? i offset =
        some (Jitter.shift c.session.schedule.first c.session.schedule.fuzz offset)) := by
  obtain ⟨d, hd, hsession, hpinged⟩ := client_after hc moves
  rw [hfresh, Bool.false_eq_true, false_or] at hpinged
  rw [delay?, hd, Option.map_some, Client.nextPing, Client.pingDelay, hsession]
  constructor <;> intro h
  · rw [if_pos (hpinged.2 h)]
  · rw [if_neg (mt hpinged.1 h)]

structure Follows (s : ScheduleSettings) (i : Nat) (w : Fleet) : Prop where
  first : ∀ moves offset, ¬ Pings i w moves →
    (w.after moves).delay? i offset = some (Jitter.shift s.first s.fuzz offset)
  later : ∀ moves further offset, Pings i w moves →
    (w.after (moves ++ further)).delay? i offset = some (Jitter.shift s.interval s.fuzz offset)
  quiet : ∀ moves, (∀ op, .perform i op ∈ moves → op.pings = false) → ¬ Pings i w moves
  shared : ∀ moves c access a inquiry, (w.after moves).clients[i]? = some c →
    (c.access? access).bind c.app? = some a → inquiry.pings →
    Pings i w (moves ++ [.perform i (.ask access inquiry)])
  near : ∀ moves offset, ∃ base d, (¬ Pings i w moves → base = s.first) ∧
    (Pings i w moves → base = s.interval) ∧ (w.after moves).delay? i offset = some d ∧
    base.nanos - s.fuzz.nanos / 2 ≤ d.nanos ∧ d.nanos ≤ base.nanos + (s.fuzz.nanos + 1) / 2

theorem follows_of_fresh (hc : w.clients[i]? = some c) (hfresh : c.hasPinged = false) :
    Follows c.session.schedule i w where
  first moves offset := (delay?_after hc hfresh moves offset).2
  later moves further offset h := (delay?_after hc hfresh _ offset).1 (h.append further)
  quiet _ := not_pings_of_quiet
  shared moves d access a inquiry hd ha hpings := by
    refine pings_append_iff.2 (.inr (.now hd ?_))
    rw [Client.startsPing, hpings, ha]
    rfl
  near moves offset := by
    obtain ⟨hlater, hfirst⟩ := delay?_after hc hfresh moves offset
    have hleast (base : Duration) := Jitter.sub_le_shift base c.session.schedule.fuzz offset
    have hmost (base : Duration) := (Nat.le_min.1
      (Jitter.shift_le base c.session.schedule.fuzz offset)).1
    by_cases h : Pings i w moves
    · exact ⟨_, _, fun hnot => absurd h hnot, fun _ => rfl, hlater h, hleast _, hmost _⟩
    · exact ⟨_, _, fun _ => rfl, fun hyes => absurd hyes h, hfirst h, hleast _, hmost _⟩

theorem follows_schedule {o : Origin} (hstart : o.client = .ok c) (w : Fleet) :
    Follows o.settings.schedule w.clients.length (w.move (.start o)) := by
  obtain ⟨hschedule, hfresh⟩ := Client.schedule_of_start hstart
  rw [← hschedule]
  refine follows_of_fresh ?_ hfresh
  rw [move, hstart]
  exact List.getElem?_concat_length

end Runs

def twins : Fleet := Fleet.move { clients := [.laptop] } (.start .laptop)

def chores : List Move :=
  [.perform 1 (.newApp "a" "1"), .perform 1 (.rename "a" "b"),
    .perform 1 (.ask (.id "b") .ping), .settle 0 (.error (.config "unreachable"))]

theorem follows_schedule_twins :
    Origin.laptop.client = .ok .laptop ∧ Follows {} 1 twins ∧
      Pings 1 twins chores ∧ ¬ Pings 0 twins chores ∧ (twins.after chores).settled.length = 1 ∧
      (twins.after chores).delay? 1 0 = some (.ofSeconds 2400) ∧
      (twins.after chores).delay? 0 0 = some (.ofSeconds 120) := by
  have hstart : Origin.laptop.client = .ok .laptop := rfl
  have hpings : Pings 1 twins chores := .later (.later (.now rfl (by decide +kernel)))
  have hquiet : ¬ Pings 0 twins chores := not_pings_of_quiet fun op hop => by simp [chores] at hop
  refine ⟨hstart, follows_schedule hstart { clients := [.laptop] }, hpings, hquiet, ?_, ?_, ?_⟩
  all_goals decide +kernel

end Fleet

end UpdateProtocol
