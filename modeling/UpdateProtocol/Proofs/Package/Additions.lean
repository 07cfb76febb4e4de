import Mathlib.Data.List.Induction
import Mathlib.Data.List.Nodup
import UpdateProtocol.Package.Store

namespace UpdateProtocol

inductive Stage where
  | checked
  | refused
  | read (content : ByteArray)
  | failed (fault : FileFault)
  | added (content : ByteArray)

structure Addition where
  file : Location
  name : String
  stage : Stage

namespace Stage

def ofReading : Except FileFault ByteArray → Stage
  | .ok content => read content
  | .error fault => failed fault

def readings : Stage → List (Except FileFault ByteArray)
  | checked | refused => []
  | read content | added content => [.ok content]
  | failed fault => [.error fault]

end Stage

namespace Addition

def call (a : Addition) : Location × String := (a.file, a.name)

def result? (a : Addition) : Option (Except FileFault Unit) :=
  match a.stage with
  | .checked | .read _ => none
  | .refused => some (.error (.invalidName a.name))
  | .failed fault => some (.error fault)
  | .added _ => some (.ok ())

end Addition

structure Commit where
  call : Nat
  file : Location
  name : String
  content : ByteArray

def Commit.package (c : Commit) : Package := .describe c.name c.content

structure SharedStore where
  store : PackageStore
  additions : List Addition := []
  commits : List Commit := []

inductive Move where
  | add (file : Location) (name : String)
  | read (call : Nat) (found : Except FileFault ByteArray)
  | commit (call : Nat)
  | setVersion (version : String)

namespace Move

def added? : Move → Option (Location × String)
  | add file name => some (file, name)
  | _ => none

def committed? : Move → Option Nat
  | commit n => some n
  | _ => none

def version? : Move → Option String
  | setVersion version => some version
  | _ => none

def reading? (n : Nat) : Move → Option (Except FileFault ByteArray)
  | read k found => if k = n then some found else none
  | _ => none

end Move

namespace SharedStore

def empty (baseUrl : String) : SharedStore := { store := { baseUrl } }

def step (w : SharedStore) : Move → Option SharedStore
  | .add file name =>
      let stage := if PackageStore.isName name then Stage.checked else .refused
      some { w with additions := w.additions ++ [⟨file, name, stage⟩] }
  | .read n found => match w.additions[n]? with
    | some ⟨file, name, .checked⟩ =>
        some { w with additions := w.additions.set n ⟨file, name, .ofReading found⟩ }
    | _ => none
  | .commit n => match w.additions[n]? with
    | some ⟨file, name, .read content⟩ => some
        { store := w.store.commit name file content
          additions := w.additions.set n ⟨file, name, .added content⟩
          commits := w.commits ++ [⟨n, file, name, content⟩] }
    | _ => none
  | .setVersion version => some { w with store := w.store.setVersion version }

def run (w : SharedStore) (moves : List Move) : Option SharedStore :=
  moves.foldlM step w

variable {w w' w₀ : SharedStore}

def atOnce (w : SharedStore) (fs : Files) (file : Location) (name : String) : List Move :=
  let n := w.additions.length
  if PackageStore.isName name then
    match fs.read file with
    | .ok content => [.add file name, .read n (.ok content), .commit n]
    | .error fault => [.add file name, .read n (.error fault)]
  else [.add file name]

theorem run_atOnce (w : SharedStore) (fs : Files) (file : Location) (name : String) :
    ∃ w' a, w.run (w.atOnce fs file name) = some w' ∧ w'.additions = w.additions ++ [a] ∧
      a.call = (file, name) ∧ a.result? = some ((w.store.add fs file name).map fun _ => ()) ∧
      w'.store = (w.store.add fs file name).toOption.getD w.store := by
  rw [atOnce, PackageStore.add]
  by_cases hname : PackageStore.isName name
  · rw [if_pos hname, if_neg (by simp [hname])]
    cases fs.read file with
    | ok content =>
      let a : Addition := ⟨file, name, .added content⟩
      refine ⟨{ store := w.store.commit name file content
                additions := w.additions ++ [a]
                commits := w.commits ++ [⟨w.additions.length, file, name, content⟩] },
        a, ?_, rfl, rfl, rfl, rfl⟩
      simp [run, step, hname, Stage.ofReading, a]
    | error fault =>
      let a : Addition := ⟨file, name, .failed fault⟩
      refine ⟨{ w with additions := w.additions ++ [a] }, a, ?_, rfl, rfl, rfl, rfl⟩
      simp [run, step, hname, Stage.ofReading, a]
  · rw [if_neg hname, if_pos (by simp [hname])]
    let a : Addition := ⟨file, name, .refused⟩
    refine ⟨{ w with additions := w.additions ++ [a] }, a, ?_, rfl, rfl, rfl, rfl⟩
    simp [run, step, hname, a]

inductive Turn (w : SharedStore) : Move → SharedStore → Prop
  | added (file : Location) (name : String) :
      Turn w (.add file name)
        { w with
          additions := w.additions ++
            [⟨file, name, if PackageStore.isName name then .checked else .refused⟩] }
  | read {n : Nat} {file : Location} {name : String} (found : Except FileFault ByteArray)
      (h : w.additions[n]? = some ⟨file, name, .checked⟩) :
      Turn w (.read n found)
        { w with additions := w.additions.set n ⟨file, name, .ofReading found⟩ }
  | committed {n : Nat} {file : Location} {name : String} {content : ByteArray}
      (h : w.additions[n]? = some ⟨file, name, .read content⟩) :
      Turn w (.commit n)
        { store := w.store.commit name file content
          additions := w.additions.set n ⟨file, name, .added content⟩
          commits := w.commits ++ [⟨n, file, name, content⟩] }
  | versioned (version : String) :
      Turn w (.setVersion version) { w with store := w.store.setVersion version }

theorem turn_of_step {move : Move} (h : w.step move = some w') : w.Turn move w' := by
  cases move with
  | add file name =>
    cases h
    exact .added file name
  | read n found =>
    rw [step] at h
    split at h <;> cases h
    exact .read found ‹_›
  | commit n =>
    rw [step] at h
    split at h <;> cases h
    exact .committed ‹_›
  | setVersion version =>
    cases h
    exact .versioned version

theorem run_concat (w : SharedStore) (moves : List Move) (move : Move) :
    w.run (moves ++ [move]) = (w.run moves).bind fun w' => w'.step move := by
  rw [run, List.foldlM_append]
  change (w.run moves).bind _ = _
  congr 1
  funext w'
  rw [List.foldlM_cons]
  change (w'.step move).bind some = _
  rw [Option.bind_fun_some]

theorem run_induction {motive : List Move → SharedStore → Prop} (start : motive [] w₀)
    (turn : ∀ {moves w move w'}, motive moves w → Turn w move w' → motive (moves ++ [move]) w')
    {moves : List Move} (h : w₀.run moves = some w) : motive moves w := by
  induction moves using List.reverseRecOn generalizing w with
  | nil =>
    cases h
    exact start
  | append_singleton moves move ih =>
    rw [run_concat] at h
    obtain ⟨v, hrun, hstep⟩ := Option.bind_eq_some_iff.1 h
    exact turn (ih hrun) (turn_of_step hstep)

structure Traced (moves : List Move) (w : SharedStore) : Prop where
  calls : w.additions.map Addition.call = moves.filterMap Move.added?
  readings : ∀ n, moves.filterMap (Move.reading? n) =
    (w.additions[n]?.map fun a => a.stage.readings).getD []
  names : ∀ a ∈ w.additions, a.stage = .refused ∨ PackageStore.isName a.name
  committed : ∀ c, c ∈ w.commits ↔ w.additions[c.call]? = some ⟨c.file, c.name, .added c.content⟩
  order : w.commits.map Commit.call = moves.filterMap Move.committed?
  distinct : (w.commits.map Commit.call).Nodup

section

variable {l : List Addition} {n k : Nat} {a b : Addition}

theorem getElem?_concat (l : List Addition) (a : Addition) (k : Nat) :
    (l ++ [a])[k]? = if k = l.length then some a else l[k]? := by
  rw [List.getElem?_append]
  split
  · rw [if_neg (by omega)]
  · split
    · subst k
      simp
    · rw [List.getElem?_eq_none (by simp; omega), List.getElem?_eq_none (by omega)]

theorem getElem?_put (h : l[n]? = some b) (a : Addition) (k : Nat) :
    (l.set n a)[k]? = if k = n then some a else l[k]? := by
  have hlt : n < l.length := (List.getElem?_eq_some_iff.1 h).1
  rw [List.getElem?_set]
  by_cases hk : n = k
  · rw [if_pos hk, if_pos hlt, if_pos hk.symm]
  · rw [if_neg hk, if_neg (Ne.symm hk)]

theorem map_call_put (h : l[n]? = some b) (hcall : a.call = b.call) :
    (l.set n a).map Addition.call = l.map Addition.call := by
  apply List.ext_getElem?
  intro k
  rw [List.getElem?_map, List.getElem?_map, getElem?_put h]
  split
  · subst k
    rw [h, Option.map_some, Option.map_some, hcall]
  · rfl

end

section

variable {moves : List Move} {n : Nat} {file : Location} {name : String}

theorem filterMap_concat_of_none {β : Type} {f : Move → Option β} {move : Move}
    (h : f move = none) : (moves ++ [move]).filterMap f = moves.filterMap f := by
  rw [List.filterMap_append, List.filterMap_cons_none h, List.filterMap_nil, List.append_nil]

theorem Traced.calls_put (hw : w.Traced moves) {stage : Stage}
    (hn : w.additions[n]? = some ⟨file, name, stage⟩) (stage' : Stage) :
    (w.additions.set n ⟨file, name, stage'⟩).map Addition.call = moves.filterMap Move.added? := by
  have hcall : Addition.call ⟨file, name, stage'⟩ = Addition.call ⟨file, name, stage⟩ := rfl
  exact (map_call_put hn hcall).trans hw.calls

theorem Traced.names_put (hw : w.Traced moves) {stage : Stage}
    (hn : w.additions[n]? = some ⟨file, name, stage⟩) (hstage : stage ≠ .refused)
    (stage' : Stage) : ∀ a ∈ w.additions.set n ⟨file, name, stage'⟩,
      a.stage = .refused ∨ PackageStore.isName a.name := by
  intro a ha
  rcases List.mem_or_eq_of_mem_set ha with hold | rfl
  · exact hw.names a hold
  · exact .inr ((hw.names _ (List.mem_of_getElem? hn)).resolve_left hstage)

theorem Traced.add (hw : w.Traced moves) (file : Location) (name : String) {stage : Stage}
    (hreadings : stage.readings = []) (hadded : ∀ content, stage ≠ .added content)
    (hname : stage = .refused ∨ PackageStore.isName name) :
    Traced (moves ++ [.add file name])
      { w with additions := w.additions ++ [⟨file, name, stage⟩] } := by
  refine ⟨?calls, ?readings, ?names, ?committed, ?order, hw.distinct⟩
  case calls =>
    rw [List.map_append, List.filterMap_append, hw.calls]
    rfl
  case readings =>
    intro n
    rw [filterMap_concat_of_none rfl, hw.readings, getElem?_concat]
    split
    · subst n
      rw [List.getElem?_eq_none (Nat.le_refl _)]
      exact hreadings.symm
    · rfl
  case names =>
    intro a ha
    rcases List.mem_append.1 ha with hold | hnew
    · exact hw.names a hold
    · obtain rfl := List.mem_singleton.1 hnew
      exact hname
  case committed =>
    intro c
    rw [hw.committed, getElem?_concat]
    split
    · rw [List.getElem?_eq_none (by omega)]
      simp [hadded]
    · rfl
  case order => rw [filterMap_concat_of_none rfl, hw.order]

theorem Traced.read (hw : w.Traced moves) (hn : w.additions[n]? = some ⟨file, name, .checked⟩)
    (found : Except FileFault ByteArray) : Traced (moves ++ [.read n found])
      { w with additions := w.additions.set n ⟨file, name, .ofReading found⟩ } := by
  refine ⟨?calls, ?readings, hw.names_put hn Stage.noConfusion _, ?committed, ?order, hw.distinct⟩
  case calls => rw [filterMap_concat_of_none rfl, hw.calls_put hn]
  case readings =>
    intro k
    rw [List.filterMap_append, hw.readings, getElem?_put hn]
    by_cases hk : k = n
    · subst k
      rw [hn, if_pos rfl]
      cases found <;> simp [Move.reading?, Stage.readings, Stage.ofReading]
    · rw [if_neg hk]
      simp [Move.reading?, Ne.symm hk]
  case committed =>
    intro c
    rw [hw.committed, getElem?_put hn]
    split
    · rename_i heq
      rw [heq, hn]
      cases found <;> simp [Stage.ofReading]
    · rfl
  case order => rw [filterMap_concat_of_none rfl, hw.order]

theorem Traced.commit (hw : w.Traced moves) {content : ByteArray}
    (hn : w.additions[n]? = some ⟨file, name, .read content⟩) (store : PackageStore) :
    Traced (moves ++ [.commit n])
      { store
        additions := w.additions.set n ⟨file, name, .added content⟩
        commits := w.commits ++ [⟨n, file, name, content⟩] } := by
  have hfresh : n ∉ w.commits.map Commit.call := by
    intro hmem
    obtain ⟨c, hc, rfl⟩ := List.mem_map.1 hmem
    rw [(hw.committed c).1 hc] at hn
    cases hn
  refine ⟨?calls, ?readings, hw.names_put hn Stage.noConfusion _, ?committed, ?order, ?distinct⟩
  case calls => rw [filterMap_concat_of_none rfl, hw.calls_put hn]
  case readings =>
    intro k
    rw [filterMap_concat_of_none rfl, hw.readings, getElem?_put hn]
    split
    · subst k
      rw [hn]
      rfl
    · rfl
  case committed =>
    intro c
    rw [List.mem_append, List.mem_singleton, hw.committed, getElem?_put hn]
    obtain ⟨call, cfile, cname, ccontent⟩ := c
    by_cases hk : call = n
    · subst hk
      rw [hn, if_pos rfl]
      simp [eq_comm]
    · rw [if_neg hk]
      simp [hk]
  case order =>
    rw [List.map_append, List.filterMap_append, hw.order]
    rfl
  case distinct =>
    rw [List.map_append]
    exact hw.distinct.append (List.nodup_singleton n) (List.disjoint_singleton.2 hfresh)

theorem Traced.setVersion (hw : w.Traced moves) (version : String) (store : PackageStore) :
    Traced (moves ++ [.setVersion version]) { w with store } := by
  refine ⟨?calls, ?readings, hw.names, hw.committed, ?order, hw.distinct⟩
  case calls => rw [filterMap_concat_of_none rfl, hw.calls]
  case readings =>
    intro n
    rw [filterMap_concat_of_none rfl, hw.readings]
  case order => rw [filterMap_concat_of_none rfl, hw.order]

theorem Traced.turn {move : Move} (hw : w.Traced moves) (h : w.Turn move w') :
    w'.Traced (moves ++ [move]) := by
  cases h with
  | added file name =>
    split
    next hname => exact hw.add file name rfl (fun _ => Stage.noConfusion) (.inr hname)
    next => exact hw.add file name rfl (fun _ => Stage.noConfusion) (.inl rfl)
  | read found hn => exact hw.read hn found
  | committed hn => exact hw.commit hn _
  | versioned version => exact hw.setVersion version _

end

theorem traced_of_run {baseUrl : String} {moves : List Move}
    (h : (empty baseUrl).run moves = some w) : w.Traced moves := by
  refine run_induction ?_ Traced.turn h
  refine ⟨rfl, fun n => rfl, ?_, ?_, rfl, List.nodup_nil⟩
  · rintro a ⟨⟩
  · intro c
    constructor <;> rintro ⟨⟩

end SharedStore

end UpdateProtocol
