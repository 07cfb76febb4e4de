import UpdateProtocol.Proofs.Exchange.Course
import UpdateProtocol.Proofs.Exchange.Dialogue

namespace UpdateProtocol

variable {σ : Type}

structure World (σ : Type) where
  posts : List Post := []
  calls : List Call := []
  state : σ

namespace World

variable {α β : Type}

def play (x : StateT (List Post) (StateT (List Call) (StateM σ)) α) : StateM (World σ) α :=
  fun w =>
    let out := ((x.run w.posts).run w.calls).run w.state
    (out.1.1.1, ⟨out.1.1.2, out.1.2, out.2⟩)

theorem play_pure (v : α) : play (σ := σ) (pure v) = pure v := rfl

theorem play_bind (x : StateT (List Post) (StateT (List Call) (StateM σ)) α)
    (next : α → StateT (List Post) (StateT (List Call) (StateM σ)) β) :
    play (x >>= next) = play x >>= fun v => play (next v) := rfl

theorem play_map (f : α → β) (x : StateT (List Post) (StateT (List Call) (StateM σ)) α) :
    play (f <$> x) = f <$> play x := rfl

theorem play_of_run {x : StateT (List Post) (StateT (List Call) (StateM σ)) α} {w w' : World σ}
    {v : α}
    (h : ((x.run w.posts).run w.calls).run w.state = (((v, w'.posts), w'.calls), w'.state)) :
    (play x).run w = (v, w') := by
  change (_, _) = (v, w')
  rw [h]

theorem run_of_play {x : StateT (List Post) (StateT (List Call) (StateM σ)) α} {w w' : World σ}
    {v : α} (h : (play x).run w = (v, w')) :
    ((x.run w.posts).run w.calls).run w.state = (((v, w'.posts), w'.calls), w'.state) := by
  obtain ⟨rfl, rfl⟩ := Prod.mk.inj h
  rfl

end World

namespace Question

def IsServed (q : Question) (url : Url) : Prop :=
  (q.post url).http.path ∈ Endpoint.routes ∧ q.request.encode.size ≤ Document.maxSize

inductive Answered (q : Question) (url : Url) : Bool → List Exchange → HttpAnswer → Prop
  | missed : Answered q url false [] .notFound
  | rejected {answer : HttpAnswer} (unserved : ¬ q.IsServed url)
      (failure : answer.status.isSuccess = false) (settled : answer.status.isTemporary = false) :
      Answered q url true [] answer
  | served {xs : List Exchange} {response : Response} (served : q.IsServed url)
      (protocol : response.protocol = "3.0")
      (handled : HandledAll q.request.apps xs response.apps) :
      Answered q url true xs (.document response)

variable {u : Updater (StateM σ)} {q : Question} {url : Url}

theorem decode_long {r : Request} (h : Document.maxSize < r.encode.size) :
    Request.decode (ContentType.ofHeader (some ContentType.xml.toUTF8)) r.encode =
      .error .truncated := by
  rw [ContentType.ofHeader_xml]
  exact (Document.selfDelimiting_text r.holds "Request" ContentType.accepted_xml _).long h

theorem serve_of_unserved {m : Type → Type} [Monad m] (u : Updater m) (h : ¬ q.IsServed url) :
    ∃ answer, Endpoint.serve u (q.post url).http = pure answer ∧
      answer.status.isSuccess = false ∧ answer.status.isTemporary = false := by
  by_cases hpath : (q.post url).http.path ∈ Endpoint.routes
  · have hlong : Document.maxSize < q.request.encode.size :=
      Nat.lt_of_not_le fun hfits => h ⟨hpath, hfits⟩
    rcases Nat.lt_or_ge Endpoint.maxBody (q.post url).http.body.size with hbody | hbody
    · exact ⟨_, Endpoint.serve_of_long u hpath rfl hbody, rfl, rfl⟩
    · exact ⟨_, Endpoint.serve_of_fault u hpath rfl hbody (decode_long hlong), rfl, rfl⟩
  · exact ⟨_, Endpoint.serve_of_unrouted u hpath, rfl, rfl⟩

theorem answered_serve (u : Updater (StateM σ)) (hprotocol : q.request.protocol = protocolVersion)
    (url : Url) (calls : List Call) (s : σ) :
    ∃ xs answer s', ((Endpoint.serve u.traced (q.post url).http).run calls).run s =
        ((answer, calls ++ xs.map Exchange.call), s') ∧
      u.Dialogue q.request s xs s' ∧ q.Answered url true xs answer := by
  by_cases h : q.IsServed url
  · obtain ⟨response, xs, s', hrun, -, hdialogue, hresponse, hhandled⟩ :=
      u.performs_respond q.request calls s
    refine ⟨xs, .document response, s', ?_, hdialogue, .served h hresponse hhandled⟩
    rw [serve_post_of_path h.1 hprotocol h.2, StateT.run_map, run_map_of_run hrun]
  · obtain ⟨answer, hserve, hfailure, hsettled⟩ := serve_of_unserved u.traced h
    refine ⟨[], answer, s, ?_, .nil s, .rejected h hfailure hsettled⟩
    rw [hserve, List.map_nil, List.append_nil]
    rfl

end Question

structure Attempt where
  course : Course
  exchanges : List Exchange
  outcome : Except Failure Response

variable {u : Updater (StateM σ)} {q : Question} {url : Url} {courses : Nat → Course}

structure Attempt.Leads (u : Updater (StateM σ)) (q : Question) (url : Url)
    (courses : Nat → Course) (a : Attempt) (w w' : World σ) : Prop where
  course : a.course = courses w.posts.length
  posts : w'.posts = w.posts ++ [q.post url]
  calls : w'.calls = w.calls ++ a.exchanges.map Exchange.call
  dialogue : u.Dialogue q.request w.state a.exchanges w'.state
  outcome : ∃ answer, q.Answered url a.course.fate.reaches a.exchanges answer ∧
    a.outcome = url.outcome (a.course.outcome answer)

theorem Attempt.leads_post [Idna] (u : Updater (StateM σ))
    (hprotocol : q.request.protocol = protocolVersion) (htarget : Url.target q.url = .ok url)
    (courses : Nat → Course) (w : World σ) :
    ∃ a w', (World.play ((line u.traced courses).post q.network q.url q.request.encode)).run w =
        (a.outcome, w') ∧
      Leads u q url courses a w w' := by
  rw [Network.post_of_target htarget, World.play_map]
  cases hreaches : (courses w.posts.length).fate.reaches with
  | true =>
    obtain ⟨xs, answer, s', hserve, hdialogue, hanswered⟩ :=
      q.answered_serve u hprotocol url w.calls w.state
    refine ⟨⟨courses w.posts.length, xs, url.outcome ((courses w.posts.length).outcome answer)⟩,
      ⟨w.posts ++ [q.post url], w.calls ++ xs.map Exchange.call, s'⟩, ?_,
      ⟨rfl, rfl, rfl, hdialogue, answer, ?_, rfl⟩⟩
    · refine run_map_of_run (World.play_of_run ?_)
      rw [line_exchange_of_reaches hreaches, StateT.run_map]
      exact run_map_of_run hserve
    · rwa [hreaches]
  | false =>
    refine ⟨⟨courses w.posts.length, [], url.outcome ((courses w.posts.length).outcome .notFound)⟩,
      ⟨w.posts ++ [q.post url], w.calls, w.state⟩, ?_,
      ⟨rfl, rfl, (List.append_nil _).symm, .nil _, .notFound, ?_, rfl⟩⟩
    · refine run_map_of_run (World.play_of_run ?_)
      rw [line_exchange_of_missed hreaches .notFound]
      rfl
    · rw [hreaches]
      exact .missed

inductive Sent (u : Updater (StateM σ)) (q : Question) (url : Url) (courses : Nat → Course) :
    Nat → World σ → List Attempt → Except Failure Response → World σ → Prop
  | last {left : Nat} {w w' : World σ} {a : Attempt} (leads : a.Leads u q url courses w w')
      (done : left = 0 ∨ ¬ Retry.IsTemporary a.outcome) : Sent u q url courses left w [a] a.outcome w'
  | again {left : Nat} {w w₁ w' : World σ} {a : Attempt} {rest : List Attempt}
      {outcome : Except Failure Response} (leads : a.Leads u q url courses w w₁)
      (temporary : Retry.IsTemporary a.outcome) (more : Sent u q url courses left w₁ rest outcome w') :
      Sent u q url courses (left + 1) w (a :: rest) outcome w'

theorem Question.sent_loop [Idna] (u : Updater (StateM σ))
    (hprotocol : q.request.protocol = protocolVersion) (htarget : Url.target q.url = .ok url)
    (courses : Nat → Course) (left : Nat) (backoff : Duration) (w : World σ) :
    ∃ attempts, Sent u q url courses left w attempts
      ((Retry.loop (World.play ((line u.traced courses).post q.network q.url q.request.encode))
        (fun _ => pure ()) left backoff).run w).1
      ((Retry.loop (World.play ((line u.traced courses).post q.network q.url q.request.encode))
        (fun _ => pure ()) left backoff).run w).2 := by
  refine Retry.loop_induction
    (motive := fun left _ w outcome w' => ∃ attempts, Sent u q url courses left w attempts outcome w')
    ?last ?again left backoff w
  case last =>
    intro left _ w outcome w' hrun hdone
    obtain ⟨a, w₁, hpost, hleads⟩ := Attempt.leads_post u hprotocol htarget courses w
    obtain ⟨rfl, rfl⟩ := Prod.mk.inj (hrun.symm.trans hpost)
    exact ⟨[a], .last hleads hdone⟩
  case again =>
    intro left _ w cause w' outcome w'' hrun htemporary hmore
    obtain ⟨a, w₁, hpost, hleads⟩ := Attempt.leads_post u hprotocol htarget courses w
    obtain ⟨hcause, rfl⟩ := Prod.mk.inj (hrun.symm.trans hpost)
    obtain ⟨rest, hrest⟩ := hmore
    have hagain : Retry.IsTemporary a.outcome := by
      rw [← hcause]
      exact htemporary
    exact ⟨a :: rest, .again hleads hagain hrest⟩

theorem Attempt.countP_flatMap_le {isOf : Exchange → Bool} {counts : Attempt → Bool}
    {attempts : List Attempt}
    (h : ∀ a ∈ attempts, a.exchanges.countP isOf ≤ if counts a then 1 else 0) :
    (attempts.flatMap Attempt.exchanges).countP isOf ≤ attempts.countP counts := by
  induction attempts with
  | nil => exact Nat.le_refl _
  | cons a rest ih =>
    obtain ⟨hfirst, hrest⟩ := List.forall_mem_cons.1 h
    have hle := ih hrest
    rw [List.flatMap_cons, List.countP_append, List.countP_cons]
    omega

namespace Sent

variable {left : Nat} {w w' : World σ} {attempts : List Attempt} {outcome : Except Failure Response}

theorem ne_nil (h : Sent u q url courses left w attempts outcome w') : attempts ≠ [] := by
  cases h <;> exact List.cons_ne_nil _ _

theorem length_le (h : Sent u q url courses left w attempts outcome w') :
    attempts.length ≤ left + 1 := by
  induction h with
  | last _ _ => exact Nat.succ_le_succ (Nat.zero_le _)
  | again _ _ _ ih => exact Nat.succ_le_succ ih

theorem posts_eq (h : Sent u q url courses left w attempts outcome w') :
    w'.posts = w.posts ++ List.replicate attempts.length (q.post url) := by
  induction h with
  | last leads _ => exact leads.posts
  | again leads _ _ ih =>
    rw [ih, leads.posts, List.append_assoc, List.length_cons, List.replicate_succ,
      List.singleton_append]

theorem calls_eq (h : Sent u q url courses left w attempts outcome w') :
    w'.calls = w.calls ++ (attempts.flatMap Attempt.exchanges).map Exchange.call := by
  induction h with
  | last leads _ => rw [leads.calls, List.flatMap_singleton]
  | again leads _ _ ih =>
    rw [ih, leads.calls, List.append_assoc, ← List.map_append, List.flatMap_cons]

theorem dialogue (h : Sent u q url courses left w attempts outcome w') :
    u.Dialogue q.request w.state (attempts.flatMap Attempt.exchanges) w'.state := by
  induction h with
  | last leads _ =>
    rw [List.flatMap_singleton]
    exact leads.dialogue
  | again leads _ _ ih =>
    rw [List.flatMap_cons]
    exact leads.dialogue.append ih

theorem course_eq (h : Sent u q url courses left w attempts outcome w') {n : Nat} {a : Attempt}
    (ha : attempts[n]? = some a) : a.course = courses (w.posts.length + n) := by
  induction h generalizing n with
  | last leads _ =>
    cases n with
    | zero =>
      cases ha
      exact leads.course
    | succ n => cases ha
  | again leads _ _ ih =>
    cases n with
    | zero =>
      cases ha
      exact leads.course
    | succ n =>
      rw [ih ha, leads.posts, List.length_append, List.length_singleton, Nat.add_assoc,
        Nat.add_comm 1]

theorem answered (h : Sent u q url courses left w attempts outcome w') :
    ∀ a ∈ attempts, ∃ answer, q.Answered url a.course.fate.reaches a.exchanges answer ∧
      a.outcome = url.outcome (a.course.outcome answer) := by
  induction h with
  | last leads _ => exact List.forall_mem_singleton.2 leads.outcome
  | again leads _ _ ih => exact List.forall_mem_cons.2 ⟨leads.outcome, ih⟩

theorem split (h : Sent u q url courses left w attempts outcome w') :
    ∃ earlier a, attempts = earlier ++ [a] ∧ outcome = a.outcome ∧
      (∀ b ∈ earlier, Retry.IsTemporary b.outcome) ∧
      (attempts.length ≤ left → ¬ Retry.IsTemporary a.outcome) := by
  induction h with
  | @last left w w' a leads done =>
    refine ⟨[], a, rfl, rfl, List.forall_mem_nil _, fun hleft => done.resolve_left ?_⟩
    exact Nat.ne_of_gt hleft
  | again leads temporary more ih =>
    obtain ⟨earlier, b, rfl, houtcome, hearlier, hlast⟩ := ih
    refine ⟨_ :: earlier, b, rfl, houtcome, List.forall_mem_cons.2 ⟨temporary, hearlier⟩, ?_⟩
    intro hleft
    exact hlast (Nat.le_of_succ_le_succ hleft)

end Sent

end UpdateProtocol
