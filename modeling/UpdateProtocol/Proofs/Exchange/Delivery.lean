import UpdateProtocol.Proofs.Exchange.Agreement
import UpdateProtocol.Proofs.Exchange.Attempts

namespace UpdateProtocol

variable {σ : Type} {u : Updater (StateM σ)} {q : Question} {url : Url} {courses : Nat → Course}

structure Question.Tells (q : Question) (e : Event) : Prop where
  protocol : q.request.protocol = protocolVersion
  apps : q.request.apps = [q.app]
  events : q.app.events = [e]
  ping : q.app.ping = none
  updateCheck : q.app.updateCheck = none

theorem Client.tells_askEvent (c : Client) (a : App) (e : Event) : (c.askEvent a e).Tells e :=
  ⟨rfl, rfl, rfl, rfl, rfl⟩

def Exchange.isEvent : Exchange → Bool
  | event _ _ => true
  | checkApp _ _ | checkUpdate _ _ | ping _ => false

def Question.telling (q : Question) (e : Event) : List Exchange :=
  [.checkApp q.app (.ok ()), .event q.app e]

namespace Question.Tells

variable {e : Event} {xs : List Exchange} {reaches : Bool} {answer : HttpAnswer}

theorem handled (hq : q.Tells e) {bs : List AppResponse} (h : HandledAll q.request.apps xs bs) :
    ∃ b, bs = [b] ∧ b.id = q.appId ∧
      ((∃ status, xs = [.checkApp q.app (.error status)] ∧ b.events = []) ∨ xs = q.telling e) := by
  obtain ⟨-, happs, hevents, hping, hcheck⟩ := hq
  have hid : q.app.id = q.appId := by
    rw [appId, happs]
    rfl
  rw [happs] at h
  cases h with
  | cons first rest =>
    cases rest
    refine ⟨_, rfl, first.id_eq.trans hid, ?_⟩
    cases first with
    | rejected => exact .inl ⟨_, rfl, rfl⟩
    | evaded => exact .inl ⟨_, rfl, rfl⟩
    | unchecked =>
      refine .inr ?_
      rw [hevents, hping]
      rfl
    | checked hsome => exact absurd hcheck hsome

theorem exchanges_cases (hq : q.Tells e) (h : q.Answered url reaches xs answer) :
    xs = [] ∨ (∃ status, xs = [.checkApp q.app (.error status)]) ∨ xs = q.telling e := by
  cases h with
  | missed => exact .inl rfl
  | rejected => exact .inl rfl
  | served _ _ hall =>
    obtain ⟨b, -, -, ⟨status, hxs, -⟩ | hxs⟩ := hq.handled hall
    · exact .inr (.inl ⟨status, hxs⟩)
    · exact .inr (.inr hxs)

theorem exchanges_ne_nil_iff (hq : q.Tells e) (h : q.Answered url reaches xs answer) :
    xs ≠ [] ↔ reaches = true ∧ q.IsServed url := by
  cases h with
  | missed => simp
  | rejected hunserved => simp [hunserved]
  | served hserved _ hall =>
    refine ⟨fun _ => ⟨rfl, hserved⟩, fun _ => ?_⟩
    obtain ⟨b, -, -, ⟨status, rfl, -⟩ | rfl⟩ := hq.handled hall
    · exact List.cons_ne_nil _ _
    · exact List.cons_ne_nil _ _

theorem countP_isEvent_le (hq : q.Tells e) (h : q.Answered url reaches xs answer) :
    xs.countP Exchange.isEvent ≤ if reaches then 1 else 0 := by
  cases h with
  | missed => exact Nat.zero_le _
  | rejected => exact Nat.zero_le _
  | served _ _ hall =>
    obtain ⟨b, -, -, ⟨status, rfl, -⟩ | rfl⟩ := hq.handled hall
    · exact Nat.zero_le _
    · exact Nat.le_refl _

end Question.Tells

theorem Failure.isTemporary_http (status : HttpStatus) :
    (Failure.http status).isTemporary = status.isTemporary := by
  rw [isTemporary, kind]
  by_cases htimeout : status.isTimeout
  · simp [htimeout, HttpStatus.isTemporary]
  · by_cases htemporary : status.isTemporary <;> simp [htimeout, htemporary]

theorem Reply.not_isTemporary_of_failure {r : Reply} (hfailure : r.status.isSuccess = false)
    (hsettled : r.status.isTemporary = false) : ¬ Retry.IsTemporary r.response := by
  rw [response_of_failure hfailure]
  change ¬ (Failure.http r.status).isTemporary
  rw [Failure.isTemporary_http, hsettled]
  exact Bool.false_ne_true

theorem AppResponse.judged_of_unacknowledged {b : AppResponse} (h : b.events = []) :
    b.judged AppResponse.eventAccepted ≠ .ok () := by
  intro hok
  rw [judged, eventAccepted, h] at hok
  split at hok <;> cases hok

namespace Question.Answered

variable {xs : List Exchange} {reaches : Bool} {answer : HttpAnswer}

theorem failure_or_document (h : q.Answered url reaches xs answer) :
    answer.status.isSuccess = false ∨ ∃ r, answer = .document r := by
  cases h with
  | missed => exact .inl rfl
  | rejected _ failure _ => exact .inl failure
  | served => exact .inr ⟨_, rfl⟩

theorem settled (h : q.Answered url reaches xs answer) {c : Course} (hc : c.IsAnswered) :
    ¬ Retry.IsTemporary (url.outcome (c.outcome answer)) := by
  obtain ⟨chunking, houtcome⟩ := c.outcome_of_answered url answer hc
  rw [houtcome]
  cases h with
  | missed => exact Reply.not_isTemporary_of_failure rfl rfl
  | rejected _ failure settled => exact Reply.not_isTemporary_of_failure failure settled
  | @served _ r _ _ _ =>
    change ¬ Retry.IsTemporary (r.received chunking)
    cases hreceived : r.received chunking with
    | ok response => exact id
    | error cause =>
      change ¬ cause.isTemporary
      rw [r.received_settled chunking hreceived]
      exact Bool.false_ne_true

theorem received_of_ok {r response : Response} {chunking : Chunking}
    (hprotocol : r.protocol = protocolVersion) (h : r.received chunking = .ok response) :
    response = r.canonical := by
  rcases Nat.lt_or_ge Document.maxSize r.encode.size with hlong | hfits
  · have hwhole : (chunking.cut r.encode).foldl (· ++ ·) ByteArray.empty = r.encode :=
      chunking.whole r.encode
    have hrest : r.encode =
        (chunking.cut r.encode).foldl (· ++ ·) ByteArray.empty ++ ByteArray.empty := by
      rw [hwhole, ByteArray.append_empty]
    have hcut : r.received chunking = .error (.document .truncated) :=
      Response.reply_of_long hrest (by rwa [hwhole])
    cases h.symm.trans hcut
  · rw [Response.received_of_fits hprotocol hfits] at h
    exact (Except.ok.inj h).symm

theorem telling_of_delivered {e : Event} (hq : q.Tells e) (h : q.Answered url reaches xs answer)
    {c : Course}
    (hok : q.judge AppResponse.eventAccepted (url.outcome (c.outcome answer)) = .ok ()) :
    c.IsAnswered ∧ xs = q.telling e := by
  cases houtcome : url.outcome (c.outcome answer) with
  | error cause =>
    rw [houtcome] at hok
    cases hok
  | ok response =>
    have hc := Course.isAnswered_of_ok h.failure_or_document houtcome
    obtain ⟨chunking, hreply⟩ := c.outcome_of_answered url answer hc
    have hresponse := hreply.symm.trans houtcome
    refine ⟨hc, ?_⟩
    cases h with
    | missed => cases (Reply.response_of_failure rfl).symm.trans hresponse
    | rejected _ failure _ => cases (Reply.response_of_failure failure).symm.trans hresponse
    | @served _ r _ protocol hall =>
      obtain rfl := received_of_ok protocol hresponse
      obtain ⟨b, happs, hid, ⟨status, -, hevents⟩ | hxs⟩ := hq.handled hall
      · have hcanonical : r.canonical.apps = [b.canonical] := by
          rw [Response.canonical, happs]
          rfl
        rw [houtcome, Question.judge_single hcanonical hid] at hok
        exact absurd hok (AppResponse.judged_of_unacknowledged hevents)
      · exact hxs

end Question.Answered

structure Delivery [Idna] (u : Updater (StateM σ)) (q : Question) (e : Event) (url : Url)
    (courses : Nat → Course) (s : σ) (attempts : List Attempt) (verdict : Except Failure Unit)
    (s' : σ) : Prop where
  run : (((q.sendEvent (line u.traced courses)).run []).run []).run s =
    (((verdict, List.replicate attempts.length (q.post url)),
      (attempts.flatMap Attempt.exchanges).map Exchange.call), s')
  dialogue : u.Dialogue q.request s (attempts.flatMap Attempt.exchanges) s'
  least : 1 ≤ attempts.length
  most : attempts.length ≤ max q.network.tries.toNat 1
  course : ∀ n a, attempts[n]? = some a → a.course = courses n
  answered : ∀ a ∈ attempts, ∃ answer,
    q.Answered url a.course.fate.reaches a.exchanges answer ∧
      a.outcome = url.outcome (a.course.outcome answer)
  exchanges : ∀ a ∈ attempts, a.exchanges = [] ∨
    (∃ status, a.exchanges = [.checkApp q.app (.error status)]) ∨
      a.exchanges = [.checkApp q.app (.ok ()), .event q.app e]
  reached : ∀ a ∈ attempts, a.exchanges ≠ [] ↔ a.course.fate.reaches = true ∧ q.IsServed url
  told : (attempts.flatMap Attempt.exchanges).countP Exchange.isEvent ≤
    attempts.countP (·.course.fate.reaches)
  toldInAll : (attempts.flatMap Attempt.exchanges).countP Exchange.isEvent ≤
    max q.network.tries.toNat 1
  again : ∀ earlier a later, attempts = earlier ++ a :: later → later ≠ [] →
    Retry.IsTemporary a.outcome
  settled : ∀ a ∈ attempts, a.course.IsAnswered → ¬ Retry.IsTemporary a.outcome
  last : ∃ earlier a, attempts = earlier ++ [a] ∧
    verdict = q.judge AppResponse.eventAccepted a.outcome ∧
    (attempts.length < max q.network.tries.toNat 1 → ¬ Retry.IsTemporary a.outcome) ∧
    (verdict = .ok () → a.course.IsAnswered ∧
      a.exchanges = [.checkApp q.app (.ok ()), .event q.app e])
  first : (courses 0).IsAnswered → attempts.length = 1 ∧
    (Exchange.checkApp q.app (.ok ()) ∈ attempts.flatMap Attempt.exchanges →
      attempts.flatMap Attempt.exchanges = [.checkApp q.app (.ok ()), .event q.app e])

namespace Sent

variable {e : Event} {left : Nat} {w w' : World σ} {attempts : List Attempt}
  {outcome : Except Failure Response}

theorem temporary_of_later (h : Sent u q url courses left w attempts outcome w')
    {before later : List Attempt} {b : Attempt} (hb : attempts = before ++ b :: later)
    (hlater : later ≠ []) : Retry.IsTemporary b.outcome := by
  obtain ⟨earlier, a, hsplit, -, htemporary, -⟩ := h.split
  have hearlier : earlier = attempts.dropLast := by rw [hsplit, List.dropLast_concat]
  apply htemporary
  rw [hearlier, hb, List.dropLast_append_of_ne_nil (List.cons_ne_nil b later),
    List.dropLast_cons_of_ne_nil hlater]
  exact List.mem_append_right _ List.mem_cons_self

theorem settled_of_isAnswered (h : Sent u q url courses left w attempts outcome w')
    {b : Attempt} (hb : b ∈ attempts) (hcourse : b.course.IsAnswered) :
    ¬ Retry.IsTemporary b.outcome := by
  obtain ⟨answer, hanswer, houtcome⟩ := h.answered b hb
  rw [houtcome]
  exact hanswer.settled hcourse

theorem told_le (h : Sent u q url courses left w attempts outcome w') (hq : q.Tells e) :
    (attempts.flatMap Attempt.exchanges).countP Exchange.isEvent ≤
      attempts.countP (·.course.fate.reaches) := by
  refine Attempt.countP_flatMap_le ?_
  intro b hb
  obtain ⟨answer, hanswer, -⟩ := h.answered b hb
  exact hq.countP_isEvent_le hanswer

theorem single_of_isAnswered (h : Sent u q url courses left w attempts outcome w')
    (hfirst : (courses w.posts.length).IsAnswered) : ∃ a, attempts = [a] := by
  cases hattempts : attempts with
  | nil => exact absurd hattempts h.ne_nil
  | cons a later =>
    have hfound : attempts[0]? = some a := by
      rw [hattempts]
      rfl
    have hcourse : a.course = courses w.posts.length := h.course_eq hfound
    have hsettled : ¬ Retry.IsTemporary a.outcome :=
      h.settled_of_isAnswered (List.mem_of_getElem? hfound) (hcourse ▸ hfirst)
    have hsplit : attempts = [] ++ a :: later := hattempts
    have hlater : later = [] := by
      by_contra hlater
      exact hsettled (h.temporary_of_later hsplit hlater)
    exact ⟨a, by rw [hlater]⟩

theorem delivery [Idna] {s : σ} (hq : q.Tells e)
    (h : Sent u q url courses (q.network.tries.toNat - 1) { state := s } attempts outcome w')
    (hrun : (World.play (q.sendEvent (line u.traced courses))).run { state := s } =
      (q.judge AppResponse.eventAccepted outcome, w')) :
    Delivery u q e url courses s attempts (q.judge AppResponse.eventAccepted outcome) w'.state := by
  have htries : q.network.tries.toNat - 1 + 1 = max q.network.tries.toNat 1 := by omega
  have hmost : attempts.length ≤ max q.network.tries.toNat 1 := htries ▸ h.length_le
  have htold := h.told_le hq
  refine ⟨?run, h.dialogue, ?least, hmost, ?course, h.answered, ?exchanges, ?reached, htold,
    (htold.trans List.countP_le_length).trans hmost, ?again, ?settled, ?last, ?first⟩
  case run =>
    have hplayed := World.run_of_play hrun
    rwa [h.posts_eq, h.calls_eq] at hplayed
  case least => exact List.length_pos_iff.2 h.ne_nil
  case course =>
    intro n b hb
    rw [h.course_eq hb, List.length_nil, Nat.zero_add]
  case exchanges =>
    intro b hb
    obtain ⟨answer, hanswered, -⟩ := h.answered b hb
    exact hq.exchanges_cases hanswered
  case reached =>
    intro b hb
    obtain ⟨answer, hanswered, -⟩ := h.answered b hb
    exact hq.exchanges_ne_nil_iff hanswered
  case again => exact fun _ _ _ => h.temporary_of_later
  case settled => exact fun _ => h.settled_of_isAnswered
  case last =>
    obtain ⟨earlier, a, hsplit, houtcome, -, hsettled⟩ := h.split
    refine ⟨earlier, a, hsplit, by rw [houtcome], fun hlt => hsettled (by omega), ?_⟩
    intro hok
    obtain ⟨answer, hanswered, hanswer⟩ := h.answered a (by simp [hsplit])
    rw [houtcome, hanswer] at hok
    exact hanswered.telling_of_delivered hq hok
  case first =>
    intro hfirst
    obtain ⟨a, rfl⟩ := h.single_of_isAnswered hfirst
    obtain ⟨answer, hanswer, -⟩ := h.answered a List.mem_cons_self
    refine ⟨rfl, ?_⟩
    rw [List.flatMap_singleton]
    intro haccepted
    rcases hq.exchanges_cases hanswer with hnone | ⟨status, hrefused⟩ | htold
    · simp [hnone] at haccepted
    · simp [hrefused] at haccepted
    · exact htold

end Sent

theorem Url.settled_of_target [Idna] {text : String} {fault : TransportFault}
    (h : Url.target text = .error fault) : (Failure.transport fault).isTemporary = false := by
  rw [target] at h
  split at h
  · cases h
    rfl
  · dsimp only at h
    split at h
    · cases h
      rfl
    · split at h <;> cases h
      rfl

theorem Retry.loop_of_settled {m : Type → Type} [Monad m] [LawfulMonad m] {α : Type}
    {cause : Failure} (h : cause.isTemporary = false) (pause : Pause → m Unit) (left : Nat)
    (backoff : Duration) :
    loop (pure (.error cause) : m (Except Failure α)) pause left backoff =
      pure (.error cause) := by
  cases left with
  | zero => rfl
  | succ left => simp [loop, h]

namespace Question

theorem sendEvent_of_unusable [Idna] {m : Type → Type} [Monad m] [LawfulMonad m] {net : Network m}
    {fault : TransportFault} (h : Url.target q.url = .error fault) :
    q.sendEvent net = pure (.error (.transport fault)) := by
  rw [sendEvent, send, Network.send, Retry.run, Network.post_of_unusable h,
    Retry.loop_of_settled (Url.settled_of_target h), pure_bind]
  rfl

theorem play_sendEvent [Idna] (u : Updater (StateM σ)) (q : Question) (courses : Nat → Course)
    (w : World σ) :
    (World.play (q.sendEvent (line u.traced courses))).run w =
      (fun out => (q.judge AppResponse.eventAccepted out.1, out.2))
        ((Retry.loop (World.play ((line u.traced courses).post q.network q.url q.request.encode))
          (fun _ => pure ()) (q.network.tries.toNat - 1) q.network.backoff).run w) := by
  have hloop : World.play ((line u.traced courses).send q.network q.url q.request) =
      Retry.loop (World.play ((line u.traced courses).post q.network q.url q.request.encode))
        (fun _ => pure ()) (q.network.tries.toNat - 1) q.network.backoff :=
    Retry.map_loop World.play World.play_pure World.play_bind _ _ _ _
  rw [← hloop]
  rfl

theorem event_delivery [Idna] (u : Updater (StateM σ)) (c : Client) (a : App) (e : Event)
    (courses : Nat → Course) (s : σ) :
    (∀ fault, Url.target c.serverUrl = .error fault →
      ((((c.askEvent a e).sendEvent (line u.traced courses)).run []).run []).run s =
        (((.error (.transport fault), []), []), s)) ∧
    ∀ url, Url.target c.serverUrl = .ok url → ∃ attempts verdict s',
      Delivery u (c.askEvent a e) e url courses s attempts verdict s' := by
  have hurl : (c.askEvent a e).url = c.serverUrl := rfl
  rw [← hurl]
  constructor
  · intro fault hfault
    rw [sendEvent_of_unusable hfault]
    rfl
  · intro url htarget
    obtain ⟨attempts, hsent⟩ := sent_loop u rfl htarget courses _ _ { state := s }
    exact ⟨attempts, _, _, hsent.delivery (c.tells_askEvent a e) (play_sendEvent u _ courses _)⟩

end Question

namespace Offer

def delays : Nat → Course
  | 0 => ⟨.unanswered .timedOut, none, trivial, by rintro _ ⟨⟩⟩
  | 1 => ⟨.answered atOnce, some ⟨504, by decide, by decide⟩, trivial, by rintro _ ⟨⟩; rfl⟩
  | _ => ⟨.answered atOnce, none, trivial, by rintro _ ⟨⟩⟩

theorem event_delivery_delays :
    let app : App := { id := "a", version := "1" }
    let q := client.askEvent app .complete
    Url.target client.serverUrl = .ok Offer.url ∧ ∃ attempts verdict s',
      Delivery Updater.counting q .complete Offer.url delays 0 attempts verdict s' ∧
        2 ≤ attempts.length := by
  intro app q
  have htarget : Url.target client.serverUrl = .ok Offer.url := by decide +kernel
  obtain ⟨attempts, verdict, s', h⟩ :=
    (Question.event_delivery Updater.counting client app .complete delays 0).2 Offer.url htarget
  refine ⟨htarget, attempts, verdict, s', h, ?_⟩
  by_contra hfew
  obtain ⟨earlier, a, hattempts, -, hsettled, -⟩ := h.last
  have hone : attempts = [a] := by
    have hlength := congrArg List.length hattempts
    rw [List.length_append, List.length_singleton] at hlength
    rw [hattempts, List.eq_nil_of_length_eq_zero (by omega : earlier.length = 0), List.nil_append]
  have hcourse : a.course = delays 0 := h.course 0 a (by rw [hone]; rfl)
  obtain ⟨answer, -, houtcome⟩ := h.answered a (by simp [hone])
  rw [hcourse] at houtcome
  refine hsettled ?_ ?_
  · rw [hone]
    exact (by decide : 1 < max (7 : UInt32).toNat 1)
  · rw [houtcome]
    rfl

end Offer

end UpdateProtocol
