import UpdateProtocol.Proofs.Client.Registry

namespace UpdateProtocol

def Operation.isOnClient : Operation → Bool
  | setServerUrl _ | setVersion _ => true
  | newApp .. | rename .. | set .. | ask .. => false

def Operation.isOnApps : Operation → Bool
  | newApp .. | rename .. | set .. => true
  | setServerUrl _ | setVersion _ | ask .. => false

def App.Sound (a : App) : Prop := a.version ≠ "" ∧ a.track ≠ some ""

theorem Setting.sound_of_apply {s : Setting} {a a' : App} (ha : a.Sound) (h : s.apply a = .ok a') :
    a'.Sound := by
  obtain ⟨v, hv, rfl⟩ | ⟨t, ht, rfl⟩ | ⟨o, rfl⟩ := apply_eq_ok h
  · exact ⟨hv, ha.2⟩
  · exact ⟨ha.1, fun heq => ht (Option.some.inj heq)⟩
  · exact ha

namespace Client

variable {c d : Client}

def Sound (c : Client) : Prop := ∀ h a, c.app? h = some a → a.Sound

theorem Turns.sound {note : Option (Handle × Deed)} {given : Option Handle}
    (ht : Turns c d note given) (hc : c.Sound) : d.Sound := by
  intro h a ha
  by_cases hnote : ∃ deed, note = some (h, deed)
  · obtain ⟨deed, rfl⟩ := hnote
    rw [ht.app?_self] at ha
    cases ht with
    | added _ version_ne _ _ =>
      cases ha
      exact ⟨version_ne, (Option.some_ne_none "").symm⟩
    | renamed _ _ _ _ =>
      obtain ⟨a', ha', rfl⟩ := Option.map_eq_some_iff.1 ha
      exact hc h a' ha'
    | changed found change _ _ =>
      rw [Deed.apply, found, Option.bind_some, change] at ha
      cases ha
      exact Setting.sound_of_apply (hc h _ found) change
  · rw [ht.app?_other fun deed heq => hnote ⟨deed, heq⟩] at ha
    exact hc h a ha

section Run

variable [Idna]

theorem history_cons (c : Client) (op : Operation) (ops : List Operation) (h : Handle) :
    c.history (op :: ops) h =
      ((c.deed? op).toList.filter (·.1 = h)).map Prod.snd ++ (c.perform op).1.history ops h := by
  rw [history, deeds, List.filter_append, List.map_append, history]

theorem app?_perform (hc : c.Consistent) (op : Operation) (h : Handle) :
    (c.perform op).1.app? h =
      (((c.deed? op).toList.filter (·.1 = h)).map Prod.snd).foldl Deed.apply (c.app? h) := by
  have ht := perform_turns hc op
  cases hdeed : c.deed? op with
  | none => exact ht.app?_other (by simp [hdeed])
  | some note =>
    obtain ⟨h', d⟩ := note
    rw [hdeed] at ht
    by_cases hh : h' = h
    · subst hh
      rw [ht.app?_self]
      simp
    · rw [ht.app?_other (by rintro d' ⟨⟩; exact hh rfl)]
      simp [hh]

theorem app?_after (hc : c.Consistent) (ops : List Operation) (h : Handle) :
    (c.after ops).app? h = (c.history ops h).foldl Deed.apply (c.app? h) := by
  induction ops generalizing c with
  | nil => rfl
  | cons op ops ih =>
    rw [after_cons, ih ((perform_turns hc op).consistent hc), history_cons, List.foldl_append,
      app?_perform hc]

def identity (c : Client) : Session × String × String := (c.session, c.serverUrl, c.version)

theorem identity_perform_of_isOnClient {op : Operation} (hop : op.isOnClient)
    (h : c.identity = d.identity) : (c.perform op).1.identity = (d.perform op).1.identity := by
  simp only [identity, Prod.mk.injEq] at h
  obtain ⟨hsession, hurl, hversion⟩ := h
  cases op with
  | setVersion version => simp [perform, setVersion, identity, hsession, hurl]
  | setServerUrl url =>
    rw [perform, perform, setServerUrl, setServerUrl]
    cases ServerUrl.normalize url with
    | error cause => simp [Answer.ofOutcome, bind, Except.bind, identity, hsession, hurl, hversion]
    | ok serverUrl => simp [Answer.ofOutcome, bind, Except.bind, pure, Except.pure, identity,
        hsession, hversion]
  | _ => cases hop

theorem perform_of_isOnApps (c : Client) {op : Operation} (hop : op.isOnApps) :
    ∃ apps registry, (c.perform op).1 = { c with apps, registry } := by
  cases op with
  | newApp id version =>
    rw [perform]
    cases heq : c.newApp id version with
    | error cause => exact ⟨_, _, rfl⟩
    | ok v =>
      obtain ⟨-, -, -, hc'⟩ := newApp_eq_ok heq
      exact ⟨_, _, hc'⟩
  | rename id newId =>
    rw [perform]
    cases heq : c.rename id newId with
    | error cause => exact ⟨_, _, rfl⟩
    | ok c' => rcases rename_eq_ok heq with ⟨-, rfl⟩ | ⟨h, -, -, -, rfl⟩ <;> exact ⟨_, _, rfl⟩
  | set access setting =>
    rw [perform]
    cases c.access? access with
    | none => exact ⟨_, _, rfl⟩
    | some h =>
      dsimp only
      rw [change]
      cases c.app? h with
      | none => exact ⟨_, _, rfl⟩
      | some a =>
        dsimp only
        cases setting.apply a <;> exact ⟨_, _, rfl⟩
  | _ => cases hop

theorem identity_perform_of_not_isOnClient {op : Operation} (hop : op.isOnClient = false) :
    (c.perform op).1.identity = c.identity := by
  by_cases happs : op.isOnApps
  · obtain ⟨apps, registry, hkept⟩ := perform_of_isOnApps c happs
    rw [hkept]
    rfl
  · cases op with
    | ask access inquiry =>
      rw [perform]
      cases (c.access? access).bind c.app? with
      | none => rfl
      | some a => cases inquiry <;> rfl
    | setServerUrl url => cases hop
    | setVersion version => cases hop
    | _ => exact absurd rfl happs

theorem session_perform (c : Client) (op : Operation) : (c.perform op).1.session = c.session := by
  cases hop : op.isOnClient with
  | false => exact congrArg Prod.fst (identity_perform_of_not_isOnClient hop)
  | true =>
    cases op with
    | setVersion version => rfl
    | setServerUrl url =>
      rw [perform]
      cases heq : c.setServerUrl url with
      | error cause => rfl
      | ok c' =>
        rw [(setServerUrl_eq_ok heq).2]
        rfl
    | _ => cases hop

theorem session_after (c : Client) (ops : List Operation) : (c.after ops).session = c.session := by
  induction ops generalizing c with
  | nil => rfl
  | cons op ops ih => rw [after_cons, ih, session_perform]

theorem identity_after (h : c.identity = d.identity) (ops : List Operation) :
    (c.after ops).identity = (d.after (ops.filter Operation.isOnClient)).identity := by
  induction ops generalizing c d with
  | nil => exact h
  | cons op ops ih =>
    rw [after_cons]
    by_cases hop : op.isOnClient
    · rw [List.filter_cons_of_pos hop, after_cons]
      exact ih (identity_perform_of_isOnClient hop h)
    · rw [List.filter_cons_of_neg hop]
      refine ih ?_
      rw [identity_perform_of_not_isOnClient (Bool.eq_false_iff.2 hop), h]

theorem sound_after (hc : c.Consistent) (hsound : c.Sound) (ops : List Operation) :
    (c.after ops).Sound := by
  induction ops generalizing c with
  | nil => exact hsound
  | cons op ops ih =>
    have ht := perform_turns hc op
    exact ih (ht.consistent hc) (ht.sound hsound)

end Run

end Client

end UpdateProtocol
