import UpdateProtocol.Proofs.Exchange.Decision

namespace UpdateProtocol

inductive Exchange where
  | checkApp (app : AppRequest) (answer : Except AppStatus Unit)
  | checkUpdate (app : AppRequest) (answer : Except UpdateStatus Update)
  | event (app : AppRequest) (event : Event)
  | ping (app : AppRequest)

def Exchange.call : Exchange → Call
  | .checkApp app _ => .checkApp app
  | .checkUpdate app _ => .checkUpdate app
  | .event app e => .event app e
  | .ping app => .ping app

inductive UpdateResponse.Tells : Except UpdateStatus Update → UpdateResponse → Prop
  | offer (update : Update) :
      Tells (.ok update) { status := .ok, urls := update.urls, manifest := some update.manifest }
  | declined {status : UpdateStatus} (h : status ≠ .ok) :
      Tells (.error status) { status, urls := [], manifest := none }
  | evaded : Tells (.error .ok) { status := .internalError, urls := [], manifest := none }

inductive Handled (a : AppRequest) : List Exchange → AppResponse → Prop
  | rejected {status : AppStatus} (h : status ≠ .ok) :
      Handled a [.checkApp a (.error status)]
        { id := a.id, status, ping := none, updateCheck := none, events := [] }
  | evaded :
      Handled a [.checkApp a (.error .ok)]
        { id := a.id, status := .internalError, ping := none, updateCheck := none, events := [] }
  | unchecked (h : a.updateCheck = none) :
      Handled a
        (.checkApp a (.ok ()) :: (a.events.map (.event a) ++ a.ping.toList.map fun _ => .ping a))
        { id := a.id
          status := .ok
          ping := a.ping.map fun _ => ⟨"ok"⟩
          updateCheck := none
          events := a.events.map fun _ => ⟨"ok"⟩ }
  | checked {decision : Except UpdateStatus Update} {check : UpdateResponse}
      (h : a.updateCheck ≠ none) (hcheck : check.Tells decision) :
      Handled a
        (.checkApp a (.ok ()) :: .checkUpdate a decision ::
          (a.events.map (.event a) ++ a.ping.toList.map fun _ => .ping a))
        { id := a.id
          status := .ok
          ping := a.ping.map fun _ => ⟨"ok"⟩
          updateCheck := some check
          events := a.events.map fun _ => ⟨"ok"⟩ }

inductive HandledAll : List AppRequest → List Exchange → List AppResponse → Prop
  | nil : HandledAll [] [] []
  | cons {a : AppRequest} {as : List AppRequest} {xs ys : List Exchange} {b : AppResponse}
      {bs : List AppResponse} (first : Handled a xs b) (rest : HandledAll as ys bs) :
      HandledAll (a :: as) (xs ++ ys) (b :: bs)

theorem Handled.id_eq {a : AppRequest} {xs : List Exchange} {b : AppResponse}
    (h : Handled a xs b) : b.id = a.id := by
  cases h <;> rfl

theorem HandledAll.ids {as : List AppRequest} {xs : List Exchange} {bs : List AppResponse}
    (h : HandledAll as xs bs) : bs.map AppResponse.id = as.map AppRequest.id := by
  induction h with
  | nil => rfl
  | cons first _ ih => rw [List.map_cons, List.map_cons, first.id_eq, ih]

theorem UpdateResponse.tells_ofDecision (decision : Except UpdateStatus Update) :
    (ofDecision decision).Tells decision := by
  cases decision with
  | ok update => exact .offer update
  | error status =>
    cases status with
    | ok => exact .evaded
    | _ => exact .declined (by simp)

section Stateful

variable {σ : Type}

namespace Updater

def Gives (u : Updater (StateM σ)) (r : Request) (s : σ) (x : Exchange) (s' : σ) : Prop :=
  match x with
  | .checkApp a answer => (u.checkApp r a).run s = (answer, s')
  | .checkUpdate a answer => (u.checkUpdate r a).run s = (answer, s')
  | .event a e => (u.event r a e).run s = ((), s')
  | .ping a => (u.ping r a).run s = ((), s')

inductive Dialogue (u : Updater (StateM σ)) (r : Request) : σ → List Exchange → σ → Prop
  | nil (s : σ) : Dialogue u r s [] s
  | cons {s s' s'' : σ} {x : Exchange} {xs : List Exchange} (first : u.Gives r s x s')
      (rest : Dialogue u r s' xs s'') : Dialogue u r s (x :: xs) s''

variable {u : Updater (StateM σ)} {r : Request}

theorem Dialogue.append {s s' s'' : σ} {xs ys : List Exchange} (h : u.Dialogue r s xs s')
    (h' : u.Dialogue r s' ys s'') : u.Dialogue r s (xs ++ ys) s'' := by
  induction h with
  | nil => exact h'
  | cons first _ ih => exact .cons first (ih h')

theorem Dialogue.single {s s' : σ} {x : Exchange} (h : u.Gives r s x s') :
    u.Dialogue r s [x] s' :=
  .cons h (.nil s')

/-- A program that keeps a record of its calls, and the same program without it, come to the same
value through the same calls. -/
def Performs {α : Type} (u : Updater (StateM σ)) (r : Request)
    (recorded : StateT (List Call) (StateM σ) α) (plain : StateM σ α)
    (post : α → List Exchange → Prop) : Prop :=
  ∀ (calls : List Call) (s : σ), ∃ v xs s',
    (recorded.run calls).run s = ((v, calls ++ xs.map Exchange.call), s') ∧
      plain.run s = (v, s') ∧ u.Dialogue r s xs s' ∧ post v xs

namespace Performs

variable {α β : Type} {recorded : StateT (List Call) (StateM σ) α} {plain : StateM σ α}
  {post : α → List Exchange → Prop}

theorem pure {v : α} (h : post v []) : u.Performs r (Pure.pure v) (Pure.pure v) post := by
  intro calls s
  refine ⟨v, [], s, ?_, rfl, .nil s, h⟩
  rw [List.map_nil, List.append_nil]
  rfl

theorem bind {next : α → StateT (List Call) (StateM σ) β} {plainNext : α → StateM σ β}
    {post' : β → List Exchange → Prop} (h : u.Performs r recorded plain post)
    (hnext : ∀ v xs, post v xs →
      u.Performs r (next v) (plainNext v) fun w ys => post' w (xs ++ ys)) :
    u.Performs r (recorded >>= next) (plain >>= plainNext) post' := by
  intro calls s
  obtain ⟨v, xs, s', hrecorded, hplain, hxs, hpost⟩ := h calls s
  obtain ⟨w, ys, s'', hrecorded', hplain', hys, hpost'⟩ :=
    hnext v xs hpost (calls ++ xs.map Exchange.call) s'
  refine ⟨w, xs ++ ys, s'', ?_, ?_, hxs.append hys, hpost'⟩
  · rw [StateT.run_bind, run_bind_of_run hrecorded, hrecorded', List.map_append,
      List.append_assoc]
  · rw [run_bind_of_run hplain, hplain']

end Performs

variable (u r)

theorem performs_checkApp (a : AppRequest) :
    u.Performs r (u.traced.checkApp r a) (u.checkApp r a)
      fun answer xs => xs = [.checkApp a answer] :=
  fun _ _ => ⟨_, [.checkApp a _], _, rfl, rfl, .single rfl, rfl⟩

theorem performs_checkUpdate (a : AppRequest) :
    u.Performs r (u.traced.checkUpdate r a) (u.checkUpdate r a)
      fun answer xs => xs = [.checkUpdate a answer] :=
  fun _ _ => ⟨_, [.checkUpdate a _], _, rfl, rfl, .single rfl, rfl⟩

theorem performs_event (a : AppRequest) (e : Event) :
    u.Performs r (u.traced.event r a e) (u.event r a e) fun _ xs => xs = [.event a e] :=
  fun _ _ => ⟨_, [.event a e], _, rfl, rfl, .single rfl, rfl⟩

theorem performs_ping (a : AppRequest) :
    u.Performs r (u.traced.ping r a) (u.ping r a) fun _ xs => xs = [.ping a] :=
  fun _ _ => ⟨_, [.ping a], _, rfl, rfl, .single rfl, rfl⟩

theorem performs_answerUpdateCheck (a : AppRequest) :
    u.Performs r (u.traced.answerUpdateCheck r a) (u.answerUpdateCheck r a) fun check xs =>
      (a.updateCheck = none ∧ check = none ∧ xs = []) ∨
        (a.updateCheck ≠ none ∧ ∃ decision told, check = some told ∧
          told.Tells decision ∧ xs = [.checkUpdate a decision]) := by
  unfold answerUpdateCheck
  cases a.updateCheck with
  | none => exact .pure (.inl ⟨rfl, rfl, rfl⟩)
  | some check =>
    refine (u.performs_checkUpdate r a).bind ?_
    rintro decision _ rfl
    exact .pure (.inr ⟨Option.some_ne_none check, decision, _, rfl,
      UpdateResponse.tells_ofDecision decision, rfl⟩)

theorem performs_answerEvents (a : AppRequest) (events : List Event) :
    u.Performs r (u.traced.answerEvents r a events) (u.answerEvents r a events) fun acks xs =>
      acks = events.map (fun _ => ⟨"ok"⟩) ∧ xs = events.map (.event a) := by
  induction events with
  | nil => exact .pure ⟨rfl, rfl⟩
  | cons e rest ih =>
    refine (u.performs_event r a e).bind ?_
    rintro _ _ rfl
    refine ih.bind ?_
    rintro _ _ ⟨rfl, rfl⟩
    exact .pure ⟨rfl, by simp⟩

theorem performs_answerPing (a : AppRequest) :
    u.Performs r (u.traced.answerPing r a) (u.answerPing r a) fun ack xs =>
      ack = a.ping.map (fun _ => ⟨"ok"⟩) ∧ xs = a.ping.toList.map fun _ => .ping a := by
  unfold answerPing
  cases a.ping with
  | none => exact .pure ⟨rfl, rfl⟩
  | some ping =>
    refine (u.performs_ping r a).bind ?_
    rintro _ _ rfl
    exact .pure ⟨rfl, rfl⟩

theorem performs_answerApp (a : AppRequest) :
    u.Performs r (u.traced.answerApp r a) (u.answerApp r a) fun b xs => Handled a xs b := by
  refine (u.performs_checkApp r a).bind ?_
  rintro answer _ rfl
  cases answer with
  | error status =>
    refine .pure ?_
    cases status with
    | ok => exact .evaded
    | _ => exact .rejected (by simp)
  | ok _ =>
    refine (u.performs_answerUpdateCheck r a).bind ?_
    rintro check xs hcheck
    refine (u.performs_answerEvents r a a.events).bind ?_
    rintro _ _ ⟨rfl, rfl⟩
    refine (u.performs_answerPing r a).bind ?_
    rintro _ _ ⟨rfl, rfl⟩
    refine .pure ?_
    rw [List.append_nil]
    rcases hcheck with ⟨hnone, rfl, rfl⟩ | ⟨hsome, decision, told, rfl, htells, rfl⟩
    · exact .unchecked hnone
    · exact .checked hsome htells

theorem performs_answerApps (apps : List AppRequest) :
    u.Performs r (u.traced.answerApps r apps) (u.answerApps r apps) fun bs xs =>
      HandledAll apps xs bs := by
  induction apps with
  | nil => exact .pure .nil
  | cons a rest ih =>
    refine (u.performs_answerApp r a).bind ?_
    rintro b xs hfirst
    refine ih.bind ?_
    rintro bs ys hrest
    refine .pure ?_
    rw [List.append_nil]
    exact .cons hfirst hrest

theorem performs_respond :
    u.Performs r (u.traced.respond r) (u.respond r) fun response xs =>
      response.protocol = "3.0" ∧ HandledAll r.apps xs response.apps := by
  refine (u.performs_answerApps r r.apps).bind ?_
  rintro bs xs happs
  refine .pure ⟨rfl, ?_⟩
  rwa [List.append_nil]

variable {u r}

/-- Neither the request around an application nor any call before it changes what is answered. -/
structure Steady (u : Updater (StateM σ)) : Prop where
  checkApp : ∀ r r' a s s', ((u.checkApp r a).run s).1 = ((u.checkApp r' a).run s').1
  checkUpdate : ∀ r r' a s s', ((u.checkUpdate r a).run s).1 = ((u.checkUpdate r' a).run s').1

theorem Steady.decideUpdate (hu : u.Steady) (r r' : Request) (a : AppRequest) (s s' : σ) :
    ((u.decideUpdate r a).run s).1 = ((u.decideUpdate r' a).run s').1 := by
  cases hcheck : a.updateCheck with
  | none =>
    rw [Updater.decideUpdate, Updater.decideUpdate, hcheck]
    rfl
  | some check =>
    rw [decideUpdate_of_asked hcheck, decideUpdate_of_asked hcheck, hu.checkUpdate r r' a s s']

theorem Steady.decide (hu : u.Steady) (r r' : Request) (a : AppRequest) (s s' : σ) :
    ((u.decide r a).run s).1 = ((u.decide r' a).run s').1 := by
  have hanswer := hu.checkApp r r' a s s'
  cases hrun : (u.checkApp r a).run s with
  | mk answer t =>
    cases hrun' : (u.checkApp r' a).run s' with
    | mk answer' t' =>
      rw [hrun, hrun'] at hanswer
      obtain rfl : answer = answer' := hanswer
      cases answer with
      | error status => rw [decide_of_refused hrun, decide_of_refused hrun']
      | ok _ =>
        rw [decide_of_accepted hrun, decide_of_accepted hrun', hu.decideUpdate r r' a t t']

theorem run_mapM_of_const {α β : Type} {f : α → StateM σ β} {g : α → β}
    (h : ∀ a s, ((f a).run s).1 = g a) (as : List α) (s : σ) :
    ((as.mapM f).run s).1 = as.map g := by
  induction as generalizing s with
  | nil => rfl
  | cons a as ih =>
    cases hfirst : (f a).run s with
    | mk b s' =>
      cases hrest : (as.mapM f).run s' with
      | mk bs s'' =>
        have hb : b = g a := by rw [← h a s, hfirst]
        have hbs : bs = as.map g := by rw [← ih s', hrest]
        rw [List.mapM_cons, run_bind_of_run hfirst, run_bind_of_run hrest]
        change b :: bs = (a :: as).map g
        rw [List.map_cons, hb, hbs]

theorem Steady.respond_append (hu : u.Steady) {r before after : Request}
    (h : r.apps = before.apps ++ after.apps) (s s₁ s₂ : σ) :
    ((u.respond r).run s).1.apps =
      ((u.respond before).run s₁).1.apps ++ ((u.respond after).run s₂).1.apps := by
  have hdecide (r' : Request) (a : AppRequest) (s' : σ) :
      ((u.decide r' a).run s').1 = ((u.decide r a).run s).1 := hu.decide r' r a s' s
  rw [respond_apps, respond_apps, respond_apps, run_mapM_of_const (hdecide r),
    run_mapM_of_const (hdecide before), run_mapM_of_const (hdecide after), h, List.map_append,
    List.map_append]

theorem respond_contract (u : Updater (StateM σ)) (r : Request) (s : σ) :
    (∃ response exchanges s',
      ((u.traced.respond r).run []).run s = ((response, exchanges.map Exchange.call), s') ∧
        (u.respond r).run s = (response, s') ∧ u.Dialogue r s exchanges s' ∧
        response.protocol = "3.0" ∧ HandledAll r.apps exchanges response.apps ∧
        response.apps.map AppResponse.id = r.apps.map AppRequest.id) ∧
    (u.Steady → ∀ before after : List AppRequest, r.apps = before ++ after → ∀ s₁ s₂ : σ,
      ((u.respond r).run s).1.apps =
        ((u.respond { r with apps := before }).run s₁).1.apps ++
          ((u.respond { r with apps := after }).run s₂).1.apps) := by
  constructor
  · obtain ⟨response, exchanges, s', hrecorded, hplain, hdialogue, hprotocol, happs⟩ :=
      u.performs_respond r [] s
    rw [List.nil_append] at hrecorded
    exact ⟨response, exchanges, s', hrecorded, hplain, hdialogue, hprotocol, happs, happs.ids⟩
  · intro hu before after h s₁ s₂
    exact hu.respond_append h s s₁ s₂

end Updater

end Stateful

namespace Updater

def counting : Updater (StateM Nat) where
  checkApp _ a := do
    modify (· + 1)
    pure (if a.id = "" then .error .ok else .ok ())
  checkUpdate _ a := do
    modify (· + 1)
    pure (if a.version = some "1" then .ok { manifest := { version := "2" } } else .error .ok)
  event _ _ _ := modify (· + 1)
  ping _ _ := modify (· + 1)

theorem counting_steady : counting.Steady where
  checkApp _ _ _ _ _ := rfl
  checkUpdate _ _ _ _ _ := rfl

def refusedApp : AppRequest := { id := "", ping := some {}, events := [.complete] }

def askingApp : AppRequest :=
  { id := "a", version := some "1", ping := some {}, updateCheck := some {}
    events := [.downloading, .complete] }

def askingTwice : Request := { Request.new with apps := [askingApp, refusedApp, askingApp] }

theorem respond_contract_counting :
    counting.Steady ∧
      ((counting.traced.respond askingTwice).run []).run 3 =
        ((((counting.respond askingTwice).run 3).1,
          [.checkApp askingApp, .checkUpdate askingApp, .event askingApp .downloading,
            .event askingApp .complete, .ping askingApp, .checkApp refusedApp,
            .checkApp askingApp, .checkUpdate askingApp, .event askingApp .downloading,
            .event askingApp .complete, .ping askingApp]), 14) ∧
      ((counting.respond askingTwice).run 3).1.apps =
        ((counting.respond { askingTwice with apps := [askingApp] }).run 0).1.apps ++
          ((counting.respond { askingTwice with apps := [refusedApp, askingApp] }).run 7).1.apps :=
  ⟨counting_steady, rfl, (respond_contract counting askingTwice 3).2 counting_steady _ _ rfl 0 7⟩

end Updater

end UpdateProtocol
