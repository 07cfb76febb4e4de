import UpdateProtocol.Proofs.Markup.Kept

namespace UpdateProtocol.Markup

variable {σ ε ι α : Type}

def perform (steps : List (σ → Except ε σ)) (s : σ) : Except ε σ :=
  steps.foldlM (fun s step => step s) s

def Swaps (first second : σ → Except ε σ) : Prop :=
  ∀ s t u, first s = .ok t → second t = .ok u → ∃ t', second s = .ok t' ∧ first t' = .ok u

theorem perform_cons {step : σ → Except ε σ} {steps : List (σ → Except ε σ)} {s t : σ} :
    perform (step :: steps) s = .ok t ↔ ∃ u, step s = .ok u ∧ perform steps u = .ok t := by
  constructor
  · intro h
    rw [perform, List.foldlM_cons] at h
    exact ok_of_bind h
  · rintro ⟨u, hu, h⟩
    rw [perform, List.foldlM_cons, hu]
    exact h

theorem perform_append {steps more : List (σ → Except ε σ)} {s t u : σ}
    (h : perform steps s = .ok t) (hmore : perform more t = .ok u) :
    perform (steps ++ more) s = .ok u := by
  induction steps generalizing s with
  | nil =>
    cases h
    exact hmore
  | cons step steps ih =>
    obtain ⟨v, hv, h⟩ := perform_cons.1 h
    exact perform_cons.2 ⟨v, hv, ih h⟩

theorem perform_front {before after : List (σ → Except ε σ)} {step : σ → Except ε σ} {s t : σ}
    (hswaps : ∀ b ∈ before, Swaps b step) (h : perform (before ++ step :: after) s = .ok t) :
    ∃ u, step s = .ok u ∧ perform (before ++ after) u = .ok t := by
  induction before generalizing s with
  | nil => exact perform_cons.1 h
  | cons b before ih =>
    obtain ⟨hb, hbefore⟩ := List.forall_mem_cons.1 hswaps
    obtain ⟨v, hv, h⟩ := perform_cons.1 h
    obtain ⟨w, hw, h⟩ := ih hbefore h
    obtain ⟨u, hu, hback⟩ := hb s v w hv hw
    exact ⟨u, hu, perform_cons.2 ⟨w, hback, h⟩⟩

section Settle

variable (key : ι → String) (act : α → ι → σ → Except ε σ)

def steps (entries : List (String × α)) (xs : List ι) : List (σ → Except ε σ) :=
  entries.flatMap fun e => (xs.filter (key · = e.1)).map (act e.2)

def settle (entries : List (String × α)) (xs : List ι) (s : σ) : Except ε σ :=
  perform (steps key act entries xs) s

variable {key act} {entries : List (String × α)} {x : ι} {xs : List ι} {s t u : σ}

theorem settle_nil_left : settle key act [] xs s = .ok s := rfl

theorem settle_nil_right : settle key act entries [] s = .ok s := by
  have hnone : steps key act entries [] = [] := by simp [steps]
  rw [settle, hnone]
  rfl

theorem settle_concat {name : String} {v : α} (h : settle key act entries xs s = .ok t)
    (hmore : perform ((xs.filter (key · = name)).map (act v)) t = .ok u) :
    settle key act (entries ++ [(name, v)]) xs s = .ok u := by
  rw [settle, steps, List.flatMap_append, List.flatMap_singleton]
  exact perform_append h hmore

theorem steps_cons_of_ne (h : ∀ e ∈ entries, e.1 ≠ key x) :
    steps key act entries (x :: xs) = steps key act entries xs := by
  induction entries with
  | nil => rfl
  | cons e entries ih =>
    obtain ⟨he, hentries⟩ := List.forall_mem_cons.1 h
    rw [steps, List.flatMap_cons, List.filter_cons_of_neg (by simpa using Ne.symm he)]
    exact congrArg _ (ih hentries)

theorem settle_cons_unknown (h : entries.lookup (key x) = none) :
    settle key act entries (x :: xs) s = settle key act entries xs s := by
  rw [settle, steps_cons_of_ne]
  · rfl
  · intro e he hkey
    have hne := List.lookup_eq_none_iff.1 h e he
    simp [hkey] at hne

theorem settle_cons_known {v : α} (hdistinct : (entries.map Prod.fst).Nodup)
    (hswaps : entries.Pairwise fun e f => ∀ x y, Swaps (act e.2 x) (act f.2 y))
    (hv : entries.lookup (key x) = some v) (h : settle key act entries (x :: xs) s = .ok t) :
    ∃ u, act v x s = .ok u ∧ settle key act entries xs u = .ok t := by
  obtain ⟨before, after, rfl, hbefore⟩ := List.lookup_eq_some_iff.1 hv
  rw [List.map_append, List.map_cons, List.nodup_append] at hdistinct
  obtain ⟨-, hafter, -⟩ := hdistinct
  have hnotAfter : ∀ e ∈ after, e.1 ≠ key x := by
    intro e he hkey
    have hm : e.1 ∈ after.map Prod.fst := List.mem_map_of_mem he
    exact (List.nodup_cons.1 hafter).1 (hkey ▸ hm)
  have hnotBefore : ∀ e ∈ before, e.1 ≠ key x := by
    intro e he hkey
    have hne := hbefore e he
    simp [hkey] at hne
  have hsplit (xs : List ι) : steps key act (before ++ (key x, v) :: after) xs =
      steps key act before xs ++ ((xs.filter (key · = key x)).map (act v) ++
        steps key act after xs) := by simp [steps]
  rw [settle, hsplit, steps_cons_of_ne hnotBefore, steps_cons_of_ne hnotAfter,
    List.filter_cons_of_pos (by simp), List.map_cons, List.cons_append] at h
  have hbeforeSwaps : ∀ b ∈ steps key act before xs, Swaps b (act v x) := by
    intro b hb
    obtain ⟨e, he, hb⟩ := List.mem_flatMap.1 hb
    obtain ⟨y, -, rfl⟩ := List.mem_map.1 hb
    exact (List.pairwise_append.1 hswaps).2.2 e he _ (List.mem_cons_self ..) y x
  obtain ⟨u, hu, h⟩ := perform_front hbeforeSwaps h
  exact ⟨u, hu, by rw [settle, hsplit]; exact h⟩

end Settle

end UpdateProtocol.Markup
