import UpdateProtocol.Proofs.Client.Operation
import UpdateProtocol.Proofs.Markup.Kept
import UpdateProtocol.Proofs.Table

namespace UpdateProtocol

theorem Setting.apply_eq_ok {s : Setting} {a a' : App} (h : s.apply a = .ok a') :
    (∃ version, version ≠ "" ∧ a' = { a with version }) ∨
      (∃ track, track ≠ "" ∧ a' = { a with track := some track }) ∨
        ∃ oem, a' = { a with oem := some oem } := by
  cases s with
  | version v =>
    rw [apply, App.setVersion] at h
    split at h <;> cases h
    exact .inl ⟨v, ‹_›, rfl⟩
  | track t =>
    rw [apply, App.setTrack] at h
    split at h <;> cases h
    exact .inr (.inl ⟨t, ‹_›, rfl⟩)
  | oem o =>
    cases h
    exact .inr (.inr ⟨o, rfl⟩)

theorem Setting.id_of_apply {s : Setting} {a a' : App} (h : s.apply a = .ok a') :
    a'.id = a.id := by
  obtain ⟨v, -, rfl⟩ | ⟨t, -, rfl⟩ | ⟨o, rfl⟩ := apply_eq_ok h <;> rfl

namespace Client

variable {c c' : Client}

theorem setServerUrl_eq_ok [Idna] {url : String} (heq : c.setServerUrl url = .ok c') :
    ServerUrl.normalize url = .ok c'.serverUrl ∧ c' = { c with serverUrl := c'.serverUrl } := by
  obtain ⟨serverUrl, hurl, hc'⟩ := ok_of_bind heq
  cases hc'
  exact ⟨hurl, rfl⟩

theorem newApp_eq_ok {id version : String} {h : Handle} (heq : c.newApp id version = .ok (c', h)) :
    c.handle? id = none ∧ version ≠ "" ∧ h = ⟨c.apps.length⟩ ∧
      c' = { c with apps := c.apps ++ [{ id, version }], registry := (id, h) :: c.registry } := by
  rw [newApp] at heq
  split at heq
  · cases heq
  · split at heq
    · cases heq
    · cases heq
      exact ⟨Option.not_isSome_iff_eq_none.1 ‹_›, ‹_›, rfl, rfl⟩

theorem rename_eq_ok {id newId : String} (heq : c.rename id newId = .ok c') :
    (id = newId ∧ c' = c) ∨ ∃ h, id ≠ newId ∧ c.handle? newId = none ∧ c.handle? id = some h ∧
      c' = { c with
        apps := c.apps.modify h.place fun a => { a with id := newId }
        registry := (newId, h) :: c.registry.filter (·.1 ≠ id) } := by
  rw [rename] at heq
  split at heq
  · cases heq
    exact .inl ⟨‹_›, rfl⟩
  · split at heq
    · cases heq
    · split at heq
      · cases heq
      · cases heq
        exact .inr ⟨_, ‹_›, Option.not_isSome_iff_eq_none.1 ‹_›, ‹_›, rfl⟩

theorem change_eq_ok {h : Handle} {a : App} (ha : c.app? h = some a)
    {f : App → Except Failure App} (heq : c.change h f = .ok c') :
    ∃ a', f a = .ok a' ∧ c' = { c with apps := c.apps.set h.place a' } := by
  rw [change, ha] at heq
  dsimp only at heq
  split at heq
  · cases heq
  · cases heq
    exact ⟨_, ‹_›, rfl⟩

def id? (c : Client) (h : Handle) : Option String := (c.app? h).map App.id

structure Consistent (c : Client) : Prop where
  keys : (c.registry.map Prod.fst).Nodup
  handle?_eq_some_iff : ∀ {id h}, c.handle? id = some h ↔ c.id? h = some id
  size : c.registry.length = c.apps.length

inductive Turns (c c' : Client) : Option (Handle × Deed) → Option Handle → Prop
  | kept (apps : c'.apps = c.apps) (registry : c'.registry = c.registry) : Turns c c' none none
  | added {id version : String} (free : c.handle? id = none) (version_ne : version ≠ "")
      (apps : c'.apps = c.apps ++ [({ id, version } : App)])
      (registry : c'.registry = (id, ⟨c.apps.length⟩) :: c.registry) :
      Turns c c' (some (⟨c.apps.length⟩, .register id version)) (some ⟨c.apps.length⟩)
  | renamed {id newId : String} {h : Handle} (free : c.handle? newId = none)
      (found : c.handle? id = some h)
      (apps : c'.apps = c.apps.modify h.place fun a => { a with id := newId })
      (registry : c'.registry = (newId, h) :: c.registry.filter (·.1 ≠ id)) :
      Turns c c' (some (h, .rename newId)) none
  | changed {h : Handle} {s : Setting} {a a' : App} (found : c.app? h = some a)
      (change : s.apply a = .ok a') (apps : c'.apps = c.apps.set h.place a')
      (registry : c'.registry = c.registry) : Turns c c' (some (h, .set s)) none

theorem app?_of_access? (hc : c.Consistent) {access : Access} {h : Handle}
    (heq : c.access? access = some h) : ∃ a, c.app? h = some a := by
  cases access with
  | handle h' =>
    rw [access?] at heq
    split at heq <;> cases heq
    exact Option.isSome_iff_exists.1 ‹_›
  | id id =>
    obtain ⟨a, ha, -⟩ := Option.map_eq_some_iff.1 (hc.handle?_eq_some_iff.1 heq)
    exact ⟨a, ha⟩

theorem Turns.of_inquire (c : Client) (a : App) (inquiry : Inquiry) :
    Turns c (c.inquire a inquiry).1 none (c.inquire a inquiry).2.handle? := by
  cases inquiry <;> exact .kept rfl rfl

theorem perform_turns [Idna] (hc : c.Consistent) (op : Operation) :
    Turns c (c.perform op).1 (c.deed? op) (c.perform op).2.handle? := by
  cases op with
  | setServerUrl url =>
    rw [deed?, perform]
    cases heq : c.setServerUrl url with
    | error cause => exact .kept rfl rfl
    | ok c' =>
      rw [(setServerUrl_eq_ok heq).2]
      exact .kept rfl rfl
  | setVersion version => exact .kept rfl rfl
  | newApp id version =>
    rw [deed?, perform]
    cases heq : c.newApp id version with
    | error cause => exact .kept rfl rfl
    | ok v =>
      obtain ⟨c', h⟩ := v
      obtain ⟨hfree, hversion, rfl, rfl⟩ := newApp_eq_ok heq
      exact .added hfree hversion rfl rfl
  | rename id newId =>
    rw [deed?, perform]
    cases heq : c.rename id newId with
    | error cause => exact .kept rfl rfl
    | ok c' =>
      rcases rename_eq_ok heq with ⟨hsame, rfl⟩ | ⟨h, hne, hfree, hfound, rfl⟩
      · dsimp only
        rw [if_pos hsame]
        exact .kept rfl rfl
      · dsimp only
        rw [if_neg hne, hfound]
        exact .renamed hfree hfound rfl rfl
  | set access setting =>
    rw [deed?, perform]
    cases haccess : c.access? access with
    | none => exact .kept rfl rfl
    | some h =>
      dsimp only [Option.bind_some]
      cases heq : c.change h setting.apply with
      | error cause => exact .kept rfl rfl
      | ok c' =>
        obtain ⟨a, ha⟩ := app?_of_access? hc haccess
        obtain ⟨a', hchange, rfl⟩ := change_eq_ok ha heq
        exact .changed ha hchange rfl rfl
  | ask access inquiry =>
    rw [deed?, perform]
    cases (c.access? access).bind c.app? with
    | none => exact .kept rfl rfl
    | some a => exact .of_inquire c a inquiry

theorem place_ne {h h' : Handle} (hne : h ≠ h') : h.place ≠ h'.place := by
  intro heq
  exact hne (congrArg Handle.mk heq)

theorem Turns.app?_self {h : Handle} {d : Deed} {given : Option Handle}
    (ht : Turns c c' (some (h, d)) given) :
    c'.app? h = d.apply (c.app? h) := by
  cases ht with
  | added _ _ apps _ => rw [app?, apps, List.getElem?_concat_length, Deed.apply]
  | renamed _ _ apps _ => rw [app?, apps, List.getElem?_modify_eq, Deed.apply, app?]; rfl
  | changed found change apps _ =>
    rw [Deed.apply, found, Option.bind_some, change, app?, apps]
    exact List.getElem?_set_self (List.getElem?_eq_some_iff.1 found).1

theorem Turns.app?_other {note : Option (Handle × Deed)} {given : Option Handle}
    (ht : Turns c c' note given) {h : Handle}
    (hne : ∀ d, note ≠ some (h, d)) : c'.app? h = c.app? h := by
  have hplace {h' : Handle} {d : Deed} (heq : note = some (h', d)) : h'.place ≠ h.place := by
    apply place_ne
    rintro rfl
    exact hne d heq
  cases ht with
  | kept apps _ => rw [app?, app?, apps]
  | added _ _ apps _ =>
    have hlast : c.apps.length ≠ h.place := hplace rfl
    rw [app?, app?, apps, List.getElem?_append]
    split
    · rfl
    · rw [List.getElem?_eq_none (by simp; omega), List.getElem?_eq_none (by omega)]
  | renamed _ _ apps _ => rw [app?, app?, apps, List.getElem?_modify_ne _ _ (hplace rfl)]
  | changed _ _ apps _ => rw [app?, app?, apps, List.getElem?_set_ne (hplace rfl)]

theorem Turns.id?_eq {note : Option (Handle × Deed)} {given : Option Handle}
    (ht : Turns c c' note given) {h : Handle}
    (hid : ∀ d, note = some (h, d) → (d.apply (c.app? h)).map App.id = c.id? h) :
    c'.id? h = c.id? h := by
  by_cases hnote : ∃ d, note = some (h, d)
  · obtain ⟨d, rfl⟩ := hnote
    rw [id?, ht.app?_self, hid d rfl]
  · rw [id?, ht.app?_other fun d heq => hnote ⟨d, heq⟩, id?]

theorem Consistent.of_sameIds (hc : c.Consistent) (ids : ∀ h, c'.id? h = c.id? h)
    (registry : c'.registry = c.registry) (size : c'.apps.length = c.apps.length) :
    c'.Consistent where
  keys := by
    rw [registry]
    exact hc.keys
  handle?_eq_some_iff := by
    intro id h
    rw [ids, handle?, registry]
    exact hc.handle?_eq_some_iff
  size := by rw [registry, size, hc.size]

theorem Consistent.of_put (hc : c.Consistent) {id : String} {h : Handle}
    {rest : List (String × Handle)} (free : c.handle? id = none)
    (registry : c'.registry = (id, h) :: rest) (keys : (rest.map Prod.fst).Nodup)
    (lookup : ∀ key, rest.lookup key = if c.handle? key = some h then none else c.handle? key)
    (self : c'.id? h = some id) (other : ∀ h', h' ≠ h → c'.id? h' = c.id? h')
    (size : c'.registry.length = c'.apps.length) : c'.Consistent := by
  refine ⟨?keys, ?handles, size⟩
  case keys =>
    rw [registry, List.map_cons, List.nodup_cons, Table.mem_keys_iff, lookup, free, ite_self]
    exact ⟨Bool.false_ne_true, keys⟩
  case handles =>
    intro key h'
    have hold : c.handle? key = some h' ↔ c.id? h' = some key := hc.handle?_eq_some_iff
    rw [handle?, registry, Table.lookup_put, lookup]
    by_cases hh : h' = h
    · subst hh
      rw [self]
      grind
    · rw [other h' hh]
      grind

theorem Turns.consistent {note : Option (Handle × Deed)} {given : Option Handle}
    (ht : Turns c c' note given) (hc : c.Consistent) : c'.Consistent := by
  cases ht with
  | kept apps registry =>
    refine hc.of_sameIds (fun h => ?_) registry (by rw [apps])
    rw [id?, id?, app?, app?, apps]
  | changed found change apps registry =>
    refine hc.of_sameIds (fun h => ?_) registry (by rw [apps, List.length_set])
    refine (Turns.changed found change apps registry).id?_eq ?_
    rintro d ⟨⟩
    rw [Deed.apply, id?, found, Option.bind_some, change]
    exact congrArg some (Setting.id_of_apply change)
  | @added id version free version_ne apps registry =>
    have ht := Turns.added free version_ne apps registry
    have hnew (key : String) : c.handle? key ≠ some ⟨c.apps.length⟩ := by
      rw [ne_eq, hc.handle?_eq_some_iff, id?, app?, List.getElem?_eq_none (Nat.le_refl _)]
      rintro ⟨⟩
    refine hc.of_put free registry hc.keys (fun key => (if_neg (hnew key)).symm) ?self ?other ?size
    case self =>
      rw [id?, ht.app?_self]
      rfl
    case other => exact fun h hne => ht.id?_eq (by rintro d ⟨⟩; exact absurd rfl hne)
    case size => rw [registry, apps, List.length_cons, List.length_append, hc.size]; rfl
  | @renamed id newId h free found apps registry =>
    have ht := Turns.renamed free found apps registry
    have hid := hc.handle?_eq_some_iff.1 found
    refine hc.of_put free registry (Table.nodup_drop hc.keys) ?lookup ?self ?other ?size
    case lookup =>
      intro key
      have hleft : c.handle? key = some h ↔ key = id := by
        rw [hc.handle?_eq_some_iff, hid, Option.some.injEq, eq_comm]
      rw [Table.lookup_drop]
      exact if_congr hleft.symm rfl rfl
    case self =>
      obtain ⟨a, ha, -⟩ := Option.map_eq_some_iff.1 hid
      rw [id?, ht.app?_self, ha]
      rfl
    case other => exact fun h' hne => ht.id?_eq (by rintro d ⟨⟩; exact absurd rfl hne)
    case size =>
      have hlength := Table.length_drop hc.keys (Option.isSome_iff_exists.2 ⟨h, found⟩)
      rw [registry, apps, List.length_cons, hlength, List.length_modify, hc.size]

theorem Turns.length_eq {note : Option (Handle × Deed)} {given : Option Handle}
    (ht : Turns c c' note given) : c'.apps.length = c.apps.length + given.toList.length := by
  cases ht with
  | kept apps _ => simp [apps]
  | added _ _ apps _ => simp [apps]
  | renamed _ _ apps _ => simp [apps]
  | changed _ _ apps _ => simp [apps]

theorem Turns.given_eq {note : Option (Handle × Deed)} {h : Handle}
    (ht : Turns c c' note (some h)) : h = ⟨c.apps.length⟩ := by
  cases ht
  rfl

section

variable {h : Handle} {d : Deed} {id newId version : String}

theorem access_of_deed_set {access : Access} {setting : Setting}
    (hdeed : c.deed? (.set access setting) = some (h, d)) : c.access? access = some h := by
  obtain ⟨h', haccess, hd⟩ := Option.bind_eq_some_iff.1 hdeed
  split at hd <;> cases hd
  exact haccess

theorem access_of_deed_rename (hdeed : c.deed? (.rename id newId) = some (h, d)) :
    c.access? (.id id) = some h := by
  rw [deed?] at hdeed
  split at hdeed
  · split at hdeed
    · cases hdeed
    · obtain ⟨h', hfound, hd⟩ := Option.map_eq_some_iff.1 hdeed
      cases hd
      exact hfound
  · cases hdeed

theorem place_of_deed_newApp (hdeed : c.deed? (.newApp id version) = some (h, d)) :
    h = ⟨c.apps.length⟩ := by
  rw [deed?] at hdeed
  split at hdeed
  · cases hdeed
    exact (newApp_eq_ok ‹_›).2.2.1
  · cases hdeed

end

section Run

variable [Idna]

theorem consistent_after (hc : c.Consistent) (ops : List Operation) :
    (c.after ops).Consistent := by
  induction ops generalizing c with
  | nil => exact hc
  | cons op ops ih => exact ih ((perform_turns hc op).consistent hc)

theorem after_cons (c : Client) (op : Operation) (ops : List Operation) :
    c.after (op :: ops) = (c.perform op).1.after ops := rfl

theorem handles_cons (c : Client) (op : Operation) (ops : List Operation) :
    c.handles (op :: ops) = (c.perform op).2.handle?.toList ++ (c.perform op).1.handles ops := by
  rw [handles, answers, List.filterMap_cons]
  cases (c.perform op).2.handle? <;> rfl

theorem handles_eq (hc : c.Consistent) (ops : List Operation) :
    c.handles ops = (List.range' c.apps.length (c.handles ops).length).map Handle.mk ∧
      (c.after ops).apps.length = c.apps.length + (c.handles ops).length := by
  induction ops generalizing c with
  | nil => exact ⟨rfl, rfl⟩
  | cons op ops ih =>
    have ht := perform_turns hc op
    obtain ⟨hrange, hlength⟩ := ih (ht.consistent hc)
    rw [handles_cons, after_cons]
    cases hgiven : (c.perform op).2.handle? with
    | none =>
      rw [hgiven] at ht
      have hsize : (c.perform op).1.apps.length = c.apps.length := ht.length_eq
      rw [hsize] at hrange hlength
      exact ⟨hrange, hlength⟩
    | some h =>
      rw [hgiven] at ht
      have hsize : (c.perform op).1.apps.length = c.apps.length + 1 := ht.length_eq
      rw [hsize] at hrange hlength
      rw [ht.given_eq, Option.toList_some, List.singleton_append, List.length_cons]
      refine ⟨?_, by omega⟩
      rw [List.range'_succ, List.map_cons, ← hrange]

theorem perform_of_failed {op : Operation} {cause : Failure}
    (h : (c.perform op).2 = .failed cause) : (c.perform op).1 = c := by
  have houtcome {x : Except Failure Client} (hx : (Answer.ofOutcome c x).2 = .failed cause) :
      (Answer.ofOutcome c x).1 = c := by
    cases x with
    | error cause' => rfl
    | ok c' => cases hx
  cases op with
  | setServerUrl url => exact houtcome h
  | setVersion version => cases h
  | newApp id version =>
    rw [perform] at h ⊢
    cases heq : c.newApp id version with
    | error cause' => rfl
    | ok v =>
      rw [heq] at h
      cases h
  | rename id newId => exact houtcome h
  | set access setting =>
    rw [perform] at h ⊢
    cases haccess : c.access? access with
    | none => rfl
    | some handle =>
      rw [haccess] at h
      exact houtcome h
  | ask access inquiry =>
    rw [perform] at h ⊢
    cases happ : (c.access? access).bind c.app? with
    | none => rfl
    | some a =>
      rw [happ] at h
      cases inquiry <;> cases h

structure Registers (c : Client) (handles : List Handle) : Prop where
  keys : ∀ id h, c.access? (.id id) = some h → ∃ a, c.app? h = some a ∧ a.id = id
  current : ∀ h ∈ handles, ∃ a, c.app? h = some a ∧ c.access? (.handle h) = some h ∧
    c.access? (.id a.id) = some h
  distinct : handles.Nodup
  apart : ∀ h ∈ handles, ∀ h' ∈ handles, h ≠ h' → c.id? h ≠ c.id? h'
  set_apart : ∀ access s h, c.access? access ≠ some h →
    (c.perform (.set access s)).1.app? h = c.app? h
  rename_apart : ∀ id newId h, c.access? (.id id) ≠ some h →
    (c.perform (.rename id newId)).1.app? h = c.app? h
  newApp_apart : ∀ id version h, h ∈ handles →
    (c.perform (.newApp id version)).1.app? h = c.app? h
  count : (c.registry.map Prod.fst).Nodup ∧ c.registry.length = handles.length

theorem Registers.of_consistent (hc : c.Consistent) {handles : List Handle}
    (hhandles : handles = (List.range' 0 c.apps.length).map Handle.mk) : c.Registers handles := by
  have happ {h : Handle} (hmem : h ∈ handles) : ∃ a, c.app? h = some a := by
    rw [hhandles] at hmem
    obtain ⟨place, hplace, rfl⟩ := List.mem_map.1 hmem
    have hlt : place < c.apps.length := by
      rw [List.mem_range'_1] at hplace
      omega
    exact ⟨_, List.getElem?_eq_getElem hlt⟩
  have hapart {op : Operation} {h : Handle} (hne : ∀ d, c.deed? op ≠ some (h, d)) :=
    (perform_turns hc op).app?_other hne
  refine ⟨?keys, ?current, ?distinct, ?apart, ?set_apart, ?rename_apart, ?newApp_apart, ?count⟩
  case keys =>
    intro id h hid
    exact Option.map_eq_some_iff.1 (hc.handle?_eq_some_iff.1 hid)
  case current =>
    intro h hmem
    obtain ⟨a, ha⟩ := happ hmem
    refine ⟨a, ha, ?_, hc.handle?_eq_some_iff.2 (by rw [id?, ha, Option.map_some])⟩
    rw [access?, ha, Option.isSome_some, if_pos rfl]
  case distinct =>
    rw [hhandles]
    exact (List.nodup_range' ..).map fun _ _ heq => congrArg Handle.place heq
  case apart =>
    intro h hmem h' _ hne heq
    obtain ⟨a, ha⟩ := happ hmem
    have hid : c.id? h = some a.id := by rw [id?, ha, Option.map_some]
    have hself := hc.handle?_eq_some_iff.2 hid
    have hother := hc.handle?_eq_some_iff.2 (heq ▸ hid)
    exact hne (Option.some.inj (hself.symm.trans hother))
  case set_apart =>
    intro access setting h hne
    exact hapart fun d hdeed => hne (access_of_deed_set hdeed)
  case rename_apart =>
    intro id newId h hne
    exact hapart fun d hdeed => hne (access_of_deed_rename hdeed)
  case newApp_apart =>
    intro id version h hmem
    refine hapart fun d hdeed => ?_
    obtain ⟨a, ha⟩ := happ hmem
    obtain rfl := place_of_deed_newApp hdeed
    exact Nat.lt_irrefl _ (List.getElem?_eq_some_iff.1 ha).1
  case count =>
    refine ⟨hc.keys, ?_⟩
    rw [hhandles, List.length_map, List.length_range', hc.size]

theorem start_eq_ok {url version : String} {session : Session}
    (h : start url version session = .ok c) :
    ∃ serverUrl, ServerUrl.normalize url = .ok serverUrl ∧ c = { session, serverUrl, version } := by
  obtain ⟨serverUrl, hurl, hc⟩ := ok_of_bind h
  cases hc
  exact ⟨serverUrl, hurl, rfl⟩

theorem forUser_eq_ok {url userId sessionId : String} {settings : Settings}
    (h : forUser url userId sessionId settings = .ok c) :
    userId ≠ "" ∧ start url settings.clientVersion
      { userId, sessionId, isMachine := false
        network := settings.network, schedule := settings.schedule } = .ok c := by
  rw [forUser] at h
  split at h
  · cases h
  · exact ⟨‹_›, h⟩

end Run

end Client

theorem Origin.client_eq_ok [Idna] {o : Origin} {c : Client} (h : o.client = .ok c) :
    ∃ url version session, Client.start url version session = .ok c := by
  cases o with
  | user url userId sessionId settings => exact ⟨_, _, _, (Client.forUser_eq_ok h).2⟩
  | machine url identity settings => exact ⟨_, _, _, h⟩

namespace Client

theorem consistent_of_start [Idna] {o : Origin} {c : Client} (h : o.client = .ok c) :
    c.Consistent ∧ c.apps = [] := by
  obtain ⟨url, version, session, hstart⟩ := o.client_eq_ok h
  obtain ⟨serverUrl, -, rfl⟩ := start_eq_ok hstart
  refine ⟨⟨List.nodup_nil, ?_, rfl⟩, rfl⟩
  intro id h
  constructor <;> rintro ⟨⟩

theorem registers_after [Idna] {o : Origin} (hstart : o.client = .ok c) (ops : List Operation) :
    (c.after ops).Registers (c.handles ops) ∧
      ∀ op cause, ((c.after ops).perform op).2 = .failed cause →
        ((c.after ops).perform op).1 = c.after ops := by
  obtain ⟨hc, happs⟩ := consistent_of_start hstart
  obtain ⟨hhandles, hlength⟩ := handles_eq hc ops
  rw [happs, List.length_nil] at hhandles hlength
  rw [Nat.zero_add] at hlength
  refine ⟨.of_consistent (consistent_after hc ops) ?_, fun op cause => perform_of_failed⟩
  rwa [hlength]

end Client

def Origin.laptop : Origin :=
  .user "http://localhost:8000" "laptop" "6f1c7a52-3d0e-4b0c-9c57-0d4c5d2f8e11" {}

namespace Client

def laptop : Client where
  session :=
    { userId := "laptop", sessionId := "6f1c7a52-3d0e-4b0c-9c57-0d4c5d2f8e11"
      isMachine := false, network := {}, schedule := {} }
  serverUrl := "http://localhost:8000/v1/update/"
  version := "omaha-client"

def errands : List Operation :=
  [.newApp "a" "1", .newApp "b" "1", .rename "a" "b", .rename "a" "c", .newApp "a" "2",
    .set (.handle ⟨0⟩) (.track "beta"), .set (.id "a") (.version "")]

theorem registers_after_errands :
    Origin.laptop.client = .ok laptop ∧ laptop.handles errands = [⟨0⟩, ⟨1⟩, ⟨2⟩] ∧
      (laptop.after errands).registry.map Prod.fst = ["a", "c", "b"] ∧
      (laptop.after errands).Registers (laptop.handles errands) ∧
      ∀ op cause, ((laptop.after errands).perform op).2 = .failed cause →
        ((laptop.after errands).perform op).1 = laptop.after errands := by
  have hstart : Origin.laptop.client = .ok laptop := rfl
  refine ⟨hstart, ?_, ?_, registers_after hstart errands⟩
  · decide +kernel
  · decide +kernel

end Client

end UpdateProtocol
