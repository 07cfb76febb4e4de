import UpdateProtocol.Proofs.Exchange.Agreement
import UpdateProtocol.Proofs.Exchange.Screening
import UpdateProtocol.Proofs.Exchange.Sending

namespace UpdateProtocol

namespace AppResponse

inductive Acknowledges (a : AppResponse) : Except Failure Unit → Prop
  | missing (none : a.events = []) :
      Acknowledges a (.error (.invalidResponse "event status missing from response"))
  | acknowledged {k : Acknowledgement} (mem : k ∈ a.events) (status : k.status = "ok") :
      Acknowledges a (.ok ())
  | refused {k : Acknowledgement} (mem : k ∈ a.events) (none : ∀ k ∈ a.events, k.status ≠ "ok") :
      Acknowledges a (.error (.eventStatus k.status))

variable {a : AppResponse} {k : Acknowledgement} {later : List Acknowledgement}

theorem eventAccepted_of_nil (h : a.events = []) :
    a.eventAccepted = .error (.invalidResponse "event status missing from response") := by
  rw [eventAccepted, h]
  rfl

theorem eventAccepted_of_ok (h : a.events = k :: later) (hk : k.status = "ok") :
    a.eventAccepted = .ok () := by
  rw [eventAccepted, h]
  exact if_pos (Acknowledgement.isOk_iff.2 hk)

theorem eventAccepted_of_refused (h : a.events = k :: later) (hk : k.status ≠ "ok") :
    a.eventAccepted = .error (.eventStatus k.status) := by
  rw [eventAccepted, h]
  exact if_neg (hk ∘ Acknowledgement.isOk_iff.1)

theorem eventAccepted_eq_ok_iff :
    a.eventAccepted = .ok () ↔ ∃ k later, a.events = k :: later ∧ k.status = "ok" := by
  constructor
  · intro hok
    cases hevents : a.events with
    | nil => cases (eventAccepted_of_nil hevents).symm.trans hok
    | cons k later =>
      by_cases hk : k.status = "ok"
      · exact ⟨k, later, rfl, hk⟩
      · cases (eventAccepted_of_refused hevents hk).symm.trans hok
  · rintro ⟨k, later, hevents, hk⟩
    exact eventAccepted_of_ok hevents hk

theorem eventAccepted_eq_invalidResponse_iff :
    (∃ detail, a.eventAccepted = .error (.invalidResponse detail)) ↔ a.events = [] := by
  constructor
  · rintro ⟨detail, herror⟩
    cases hevents : a.events with
    | nil => rfl
    | cons k later =>
      by_cases hk : k.status = "ok"
      · cases (eventAccepted_of_ok hevents hk).symm.trans herror
      · cases (eventAccepted_of_refused hevents hk).symm.trans herror
  · intro hevents
    exact ⟨_, eventAccepted_of_nil hevents⟩

theorem acknowledges_iff :
    a.Acknowledges a.eventAccepted ↔
      ((∃ k ∈ a.events, k.status = "ok") → ∃ k later, a.events = k :: later ∧ k.status = "ok") := by
  constructor
  · rintro h ⟨k, hmem, hk⟩
    rw [← eventAccepted_eq_ok_iff]
    generalize a.eventAccepted = verdict at h
    cases h with
    | missing none =>
      rw [none] at hmem
      cases hmem
    | acknowledged => rfl
    | refused _ none => exact absurd hk (none k hmem)
  · intro h
    cases hevents : a.events with
    | nil =>
      rw [eventAccepted_of_nil hevents]
      exact .missing hevents
    | cons k later =>
      have hmem : k ∈ a.events := hevents ▸ List.mem_cons_self
      by_cases hk : k.status = "ok"
      · rw [eventAccepted_of_ok hevents hk]
        exact .acknowledged hmem hk
      · rw [eventAccepted_of_refused hevents hk]
        refine .refused hmem ?_
        intro b hb hok
        obtain ⟨first, rest, hfirst, hstatus⟩ := h ⟨b, hb, hok⟩
        obtain ⟨rfl, -⟩ := List.cons.inj (hevents.symm.trans hfirst)
        exact hk hstatus

structure Decides (a : AppResponse) (verdict : Except Failure Unit) : Prop where
  delivered : verdict = .ok () ↔ ∃ k later, a.events = k :: later ∧ k.status = "ok"
  invalid : (∃ detail, verdict = .error (.invalidResponse detail)) ↔ a.events = []
  refused : ∀ k later, a.events = k :: later → k.status ≠ "ok" →
    verdict = .error (.eventStatus k.status)

theorem decides_eventAccepted (a : AppResponse) : a.Decides a.eventAccepted where
  delivered := eventAccepted_eq_ok_iff
  invalid := eventAccepted_eq_invalidResponse_iff
  refused _ _ := eventAccepted_of_refused

end AppResponse

namespace Question

theorem judge_of_accepted {α : Type} {q : Question} {r : Response} {a : AppResponse}
    (take : AppResponse → Except Failure α) (h : r.IsFirst q.appId a) (hstatus : a.status = .ok) :
    q.judge take (.ok r) = take a := by
  rw [judge_ok, Response.accepted_of_isFirst h, if_pos (AppStatus.isOk_iff.2 hstatus)]
  rfl

theorem event_decided [Idna] {m : Type → Type} [Monad m] [LawfulMonad m] (net : Network m)
    (q : Question) :
    q.sendEvent net = q.judge AppResponse.eventAccepted <$> net.send q.network q.url q.request ∧
      ∀ (r : Response) (a : AppResponse), r.IsFirst q.appId a → a.status = .ok →
        a.Decides (q.judge AppResponse.eventAccepted (.ok r)) ∧
        (a.Acknowledges (q.judge AppResponse.eventAccepted (.ok r)) ↔
          ((∃ k ∈ a.events, k.status = "ok") →
            ∃ k later, a.events = k :: later ∧ k.status = "ok")) := by
  refine ⟨send_eq_judge net _ q, ?_⟩
  intro r a hfirst hstatus
  rw [judge_of_accepted _ hfirst hstatus]
  exact ⟨a.decides_eventAccepted, AppResponse.acknowledges_iff⟩

end Question

namespace Late

def app : AppResponse := { id := "a", status := .ok, events := [⟨"bad"⟩, .ok] }

def response : Response := { protocol := "3.0", apps := [app] }

def question : Question := Offer.client.askEvent { id := "a", version := "1" } .complete

def network : Network Id where
  exchange _ := .ok ((HttpAnswer.document response).reply Offer.atOnce.cut none)
  pause _ := ()

def verdict : Except Failure Unit := question.sendEvent network

theorem isFirst_app : response.IsFirst question.appId app :=
  ⟨rfl, [], [], rfl, List.forall_mem_nil _⟩

theorem event_decided_late :
    response.IsFirst question.appId app ∧ app.status = .ok ∧
      question.judge AppResponse.eventAccepted (.ok response) = .error (.eventStatus "bad") :=
  ⟨isFirst_app, rfl,
    ((Question.event_decided network question).2 response app isFirst_app rfl).1.refused _ _ rfl
      (by decide)⟩

theorem send_network :
    network.send question.network question.url question.request =
      (pure (.ok response) : Id (Except Failure Response)) := by
  have htarget : Url.target question.url = .ok Offer.url := by decide +kernel
  have hfits : response.encode.size ≤ Document.maxSize := by decide +kernel
  have hcanonical : response.canonical = response :=
    Response.canonical_eq_self_iff.2 (List.forall_mem_singleton.2 ⟨rfl, by rintro _ ⟨⟩⟩)
  have hreceived : response.received Offer.atOnce = .ok response := by
    rw [Response.received_of_fits rfl hfits, hcanonical]
  have hpost : network.post question.network question.url question.request.encode =
      (pure (.ok response) : Id (Except Failure Response)) := by
    rw [Network.post_of_target htarget, ← hreceived]
    rfl
  rw [Network.send, hpost, Retry.run_of_ok]

theorem not_acknowledges_refused (status : String) :
    ¬ app.Acknowledges (.error (.eventStatus status)) := by
  generalize hv : (.error (.eventStatus status) : Except Failure Unit) = verdict
  intro h
  cases h with
  | missing => cases hv
  | acknowledged => cases hv
  | refused _ none => exact none .ok (List.mem_cons_of_mem _ List.mem_cons_self) rfl

theorem acknowledged_but_refused :
    response.IsFirst question.appId app ∧ app.status = .ok ∧
      (∃ k ∈ app.events, k.status = "ok") ∧
      network.send question.network question.url question.request = .ok response ∧
      verdict = .error (.eventStatus "bad") ∧ ¬ app.Acknowledges verdict := by
  have hverdict : verdict = .error (.eventStatus "bad") := by
    rw [verdict, Question.sendEvent, Question.send, send_network]
    rfl
  refine ⟨isFirst_app, rfl, ⟨.ok, List.mem_cons_of_mem _ List.mem_cons_self, rfl⟩, send_network,
    hverdict, ?_⟩
  rw [hverdict]
  exact not_acknowledges_refused "bad"

end Late

end UpdateProtocol
