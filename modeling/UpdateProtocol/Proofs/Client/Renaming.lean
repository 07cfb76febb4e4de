import UpdateProtocol.Proofs.Client.Registry

namespace UpdateProtocol.Client

variable {c c' c'' : Client} {id mid newId : String} {h : Handle}

structure Admits (c : Client) (id newId : String) : Prop where
  registered : (c.handle? id).isSome
  free : newId = id ∨ c.handle? newId = none

inductive Hinders (c : Client) (id newId : String) : Failure → Prop
  | taken (ne : id ≠ newId) (taken : (c.handle? newId).isSome) :
      Hinders c id newId (.config ("duplicate app " ++ Text.quoted newId))
  | missing (ne : id ≠ newId) (free : c.handle? newId = none) (missing : c.handle? id = none) :
      Hinders c id newId (.config ("missing app client " ++ Text.quoted id))

structure Moves (c c' : Client) (id newId : String) : Prop where
  admitted : c.Admits id newId
  moved : ∃ h a, c.handle? id = some h ∧ c.app? h = some a ∧
    c'.handle? newId = some h ∧ c'.app? h = some { a with id := newId }
  left : newId ≠ id → c'.handle? id = none
  handles : ∀ key, key ≠ id → key ≠ newId → c'.handle? key = c.handle? key
  apps : ∀ h, c.handle? id ≠ some h → c'.app? h = c.app? h
  rest : ∃ apps registry, c' = { c with apps, registry }

structure Heeds (c : Client) (id newId : String) (verdict : Except Failure Client) : Prop where
  granted : (∃ c', verdict = .ok c') ↔ c.Admits id newId
  moves : ∀ c', verdict = .ok c' → Moves c c' id newId

theorem rename_self (c : Client) (id : String) : c.rename id id = .ok c := if_pos rfl

theorem rename_of_taken (hne : id ≠ newId) (htaken : (c.handle? newId).isSome) :
    c.rename id newId = .error (.config ("duplicate app " ++ Text.quoted newId)) := by
  rw [rename, if_neg hne, if_pos htaken]

theorem rename_of_missing (hne : id ≠ newId) (hfree : c.handle? newId = none)
    (hmissing : c.handle? id = none) :
    c.rename id newId = .error (.config ("missing app client " ++ Text.quoted id)) := by
  rw [rename, if_neg hne, hfree, hmissing]
  rfl

theorem rename_of_free (hne : id ≠ newId) (hfree : c.handle? newId = none)
    (hfound : c.handle? id = some h) : ∃ c', c.rename id newId = .ok c' := by
  rw [rename, if_neg hne, hfree, hfound]
  exact ⟨_, rfl⟩

theorem rename_eq_ok_iff :
    (∃ c', c.rename id newId = .ok c') ↔ id = newId ∨ c.Admits id newId := by
  constructor
  · rintro ⟨c', heq⟩
    obtain ⟨hsame, -⟩ | ⟨h, -, hfree, hfound, -⟩ := rename_eq_ok heq
    · exact .inl hsame
    · exact .inr ⟨Option.isSome_iff_exists.2 ⟨h, hfound⟩, .inr hfree⟩
  · intro hgranted
    by_cases hsame : id = newId
    · subst hsame
      exact ⟨c, c.rename_self id⟩
    · have hadmits := hgranted.resolve_left hsame
      obtain ⟨h, hfound⟩ := Option.isSome_iff_exists.1 hadmits.registered
      exact rename_of_free hsame (hadmits.free.resolve_left (Ne.symm hsame)) hfound

theorem rename_eq_error_iff {cause : Failure} :
    c.rename id newId = .error cause ↔ c.Hinders id newId cause := by
  constructor
  · intro heq
    have hrefused : ¬ ∃ c', c.rename id newId = .ok c' := by rw [heq]; rintro ⟨_, ⟨⟩⟩
    rw [rename_eq_ok_iff, not_or] at hrefused
    obtain ⟨hne, hadmits⟩ := hrefused
    cases hnew : c.handle? newId with
    | some h =>
      have htaken : (c.handle? newId).isSome := Option.isSome_iff_exists.2 ⟨h, hnew⟩
      cases (rename_of_taken hne htaken).symm.trans heq
      exact .taken hne htaken
    | none =>
      have hmissing : c.handle? id = none :=
        Option.not_isSome_iff_eq_none.1 fun hfound => hadmits ⟨hfound, .inr hnew⟩
      cases (rename_of_missing hne hnew hmissing).symm.trans heq
      exact .missing hne hnew hmissing
  · rintro (⟨hne, htaken⟩ | ⟨hne, hfree, hmissing⟩)
    · exact rename_of_taken hne htaken
    · exact rename_of_missing hne hfree hmissing

theorem moves_self (hc : c.Consistent) (hfound : c.handle? id = some h) : Moves c c id id := by
  obtain ⟨a, ha, rfl⟩ := Option.map_eq_some_iff.1 (hc.handle?_eq_some_iff.1 hfound)
  exact {
    admitted := ⟨Option.isSome_iff_exists.2 ⟨h, hfound⟩, .inl rfl⟩
    moved := ⟨h, a, hfound, ha, hfound, ha⟩
    left := fun hne => absurd rfl hne
    handles := fun _ _ _ => rfl
    apps := fun _ _ => rfl
    rest := ⟨_, _, rfl⟩ }

theorem moves_of_rename (hc : c.Consistent) (heq : c.rename id newId = .ok c')
    (hfound : c.handle? id = some h) : Moves c c' id newId := by
  obtain ⟨rfl, rfl⟩ | ⟨h', hne, hfree, hfound', hc'⟩ := rename_eq_ok heq
  · exact moves_self hc hfound
  cases hfound.symm.trans hfound'
  have ht : Turns c c' (some (h, .rename newId)) none := by
    rw [hc']
    exact .renamed hfree hfound rfl rfl
  obtain ⟨a, ha, -⟩ := Option.map_eq_some_iff.1 (hc.handle?_eq_some_iff.1 hfound)
  refine ⟨⟨Option.isSome_iff_exists.2 ⟨h, hfound⟩, .inr hfree⟩, ?moved, ?left, ?handles, ?apps,
    ⟨_, _, hc'⟩⟩
  case moved =>
    refine ⟨h, a, hfound, ha, ?_, ?_⟩
    · rw [hc', handle?, Table.lookup_put, if_pos rfl]
    · rw [ht.app?_self, ha]
      rfl
  case left =>
    intro _
    rw [hc', handle?, Table.lookup_put, if_neg hne, Table.lookup_drop, if_pos rfl]
  case handles =>
    intro key hid hnew
    rw [hc', handle?, Table.lookup_put, if_neg hnew, Table.lookup_drop, if_neg hid, handle?]
  case apps =>
    intro other hother
    refine ht.app?_other ?_
    rintro d ⟨⟩
    exact hother hfound

theorem Moves.trans (hfirst : Moves c c' id mid) (hsecond : Moves c' c'' mid newId) :
    Moves c c'' id newId := by
  obtain ⟨h, a, hfound, ha, hmid, ha'⟩ := hfirst.moved
  obtain ⟨h', a', hmid', ha'', hnew, hlast⟩ := hsecond.moved
  cases hmid.symm.trans hmid'
  cases ha'.symm.trans ha''
  -- The id in the middle was free at the start, unless it is the first one.
  have hfreed {key : String} (hid : key ≠ id) (hkey : key = mid) : c.handle? key = none := by
    subst hkey
    exact hfirst.admitted.free.resolve_left hid
  refine ⟨⟨hfirst.admitted.registered, ?free⟩, ⟨h, a, hfound, ha, hnew, hlast⟩, ?left, ?handles,
    ?apps, ?rest⟩
  case free =>
    by_cases hid : newId = id
    · exact .inl hid
    by_cases hkey : newId = mid
    · exact .inr (hfreed hid hkey)
    · rw [← hfirst.handles newId hid hkey]
      exact .inr (hsecond.admitted.free.resolve_left hkey)
  case left =>
    intro hid
    by_cases hkey : id = mid
    · subst hkey
      exact hsecond.left hid
    · rw [hsecond.handles id hkey (Ne.symm hid)]
      exact hfirst.left (Ne.symm hkey)
  case handles =>
    intro key hid hkey
    by_cases hpassed : key = mid
    · rw [hfreed hid hpassed]
      subst hpassed
      exact hsecond.left (Ne.symm hkey)
    · rw [hsecond.handles key hpassed hkey, hfirst.handles key hid hpassed]
  case apps =>
    intro other hother
    have hsame : c.handle? id = c'.handle? mid := hfound.trans hmid.symm
    rw [hsecond.apps other (hsame ▸ hother), hfirst.apps other hother]
  case rest =>
    obtain ⟨_, _, rfl⟩ := hfirst.rest
    obtain ⟨apps, registry, rfl⟩ := hsecond.rest
    exact ⟨apps, registry, rfl⟩

theorem heeds_rename_iff (hc : c.Consistent) :
    c.Heeds id newId (c.rename id newId) ↔ (id = newId → (c.handle? id).isSome) := by
  constructor
  · rintro hheeds rfl
    exact (hheeds.granted.1 ⟨c, c.rename_self id⟩).registered
  · intro hfound
    have hgranted : (∃ c', c.rename id newId = .ok c') ↔ c.Admits id newId := by
      rw [rename_eq_ok_iff]
      refine ⟨fun h => h.elim (fun hsame => ⟨hfound hsame, .inl hsame.symm⟩) fun h => h, .inr⟩
    refine ⟨hgranted, fun c' heq => ?_⟩
    obtain ⟨h, hid⟩ := Option.isSome_iff_exists.1 (hgranted.1 ⟨c', heq⟩).registered
    exact moves_of_rename hc heq hid

def renameAlong (c : Client) (id : String) : List String → Except Failure Client
  | [] => .ok c
  | newId :: ids => do
    let c ← c.rename id newId
    c.renameAlong newId ids

theorem consistent_of_rename (hc : c.Consistent) (heq : c.rename id newId = .ok c') :
    c'.Consistent := by
  rcases rename_eq_ok heq with ⟨-, rfl⟩ | ⟨h, -, hfree, hfound, rfl⟩
  · exact hc
  · exact Turns.consistent (.renamed hfree hfound rfl rfl) hc

theorem moves_along (hc : c.Consistent) {ids : List String} (hfound : c.handle? id = some h)
    (heq : c.renameAlong id ids = .ok c') : Moves c c' id (ids.getLastD id) := by
  induction ids generalizing c id h with
  | nil =>
    cases heq
    exact moves_self hc hfound
  | cons newId ids ih =>
    obtain ⟨d, hfirst, hlater⟩ := ok_of_bind heq
    have hmoves := moves_of_rename hc hfirst hfound
    obtain ⟨h', a, hid, -, hnew, -⟩ := hmoves.moved
    rw [List.getLastD_cons]
    exact hmoves.trans (ih (consistent_of_rename hc hfirst) hnew hlater)

structure Renames (c : Client) : Prop where
  heeds_iff : ∀ id newId,
    c.Heeds id newId (c.rename id newId) ↔ (id = newId → (c.handle? id).isSome)
  granted : ∀ id newId, (∃ c', c.rename id newId = .ok c') ↔ id = newId ∨ c.Admits id newId
  idle : ∀ id, c.rename id id = .ok c
  refused : ∀ id newId cause, c.rename id newId = .error cause ↔ c.Hinders id newId cause
  along : ∀ id ids c', (c.handle? id).isSome → c.renameAlong id ids = .ok c' →
    Moves c c' id (ids.getLastD id)

theorem renames_after [Idna] {o : Origin} (hstart : o.client = .ok c) (ops : List Operation) :
    (c.after ops).Renames := by
  have hc := consistent_after (consistent_of_start hstart).1 ops
  refine ⟨fun _ _ => heeds_rename_iff hc, fun _ _ => rename_eq_ok_iff, rename_self _,
    fun _ _ _ => rename_eq_error_iff, ?_⟩
  intro id ids c' hfound heq
  obtain ⟨h, hid⟩ := Option.isSome_iff_exists.1 hfound
  exact moves_along hc hid heq

theorem renames_after_errands :
    Origin.laptop.client = .ok laptop ∧ (laptop.after errands).Renames ∧
      (laptop.after errands).rename "c" "a" = .error (.config "duplicate app \"a\"") ∧
      ∃ c', (laptop.after errands).renameAlong "c" ["d", "d", "e"] = .ok c' ∧
        Moves (laptop.after errands) c' "c" "e" := by
  have hstart : Origin.laptop.client = .ok laptop := rfl
  have hrenames := renames_after hstart errands
  obtain ⟨c', heq⟩ : ∃ c', (laptop.after errands).renameAlong "c" ["d", "d", "e"] = .ok c' :=
    ⟨_, rfl⟩
  exact ⟨hstart, hrenames, by decide +kernel, c', heq, hrenames.along _ _ _ (by decide +kernel) heq⟩

def leaving : List Operation := [.newApp "a" "1", .rename "a" "b"]

theorem unknown_id_granted :
    Origin.laptop.client = .ok laptop ∧ (laptop.after leaving).handle? "a" = none ∧
      (laptop.after leaving).rename "a" "a" = .ok (laptop.after leaving) ∧
      ¬ (laptop.after leaving).Heeds "a" "a" ((laptop.after leaving).rename "a" "a") := by
  have hnone : (laptop.after leaving).handle? "a" = none := by decide +kernel
  refine ⟨rfl, hnone, rename_self _ _, fun hheeds => ?_⟩
  have hfound := (hheeds.granted.1 ⟨_, rename_self _ _⟩).registered
  rw [hnone] at hfound
  cases hfound

end UpdateProtocol.Client
