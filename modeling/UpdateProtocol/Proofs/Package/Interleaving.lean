import Mathlib.Algebra.Ring.Nat
import UpdateProtocol.Proofs.Package.Additions
import UpdateProtocol.Proofs.Table

namespace UpdateProtocol

namespace Commit

def latest : List Commit → List Commit
  | [] => []
  | c :: rest => if rest.any (·.name = c.name) then latest rest else c :: latest rest

theorem latest_concat (cs : List Commit) (c : Commit) :
    latest (cs ++ [c]) = (latest cs).filter (·.name ≠ c.name) ++ [c] := by
  induction cs with
  | nil => rfl
  | cons d rest ih =>
    rw [List.cons_append, latest, latest, List.any_append, ih]
    by_cases hrest : rest.any (·.name = d.name)
    · rw [if_pos (by rw [hrest, Bool.true_or]), if_pos hrest]
    · by_cases hc : c.name = d.name
      · rw [if_pos (by simp [hc]), if_neg hrest, List.filter_cons_of_neg (by simp [hc])]
      · rw [if_neg (by simpa [hc] using hrest), if_neg hrest,
          List.filter_cons_of_pos (by simpa using Ne.symm hc), List.cons_append]

theorem latest_sublist (cs : List Commit) : (latest cs).Sublist cs := by
  induction cs with
  | nil => exact .slnil
  | cons d rest ih =>
    rw [latest]
    split
    · exact ih.cons d
    · exact ih.cons_cons d

theorem nodup_latest (cs : List Commit) : ((latest cs).map Commit.name).Nodup := by
  induction cs with
  | nil => exact List.nodup_nil
  | cons d rest ih =>
    rw [latest]
    split
    · exact ih
    · rename_i hrest
      refine List.nodup_cons.2 ⟨?_, ih⟩
      intro hmem
      obtain ⟨c, hc, hname⟩ := List.mem_map.1 hmem
      exact hrest (List.any_eq_true.2 ⟨c, (latest_sublist rest).subset hc, decide_eq_true hname⟩)

theorem split_of_mem_latest {cs : List Commit} {c : Commit} (h : c ∈ latest cs) :
    ∃ earlier later, cs = earlier ++ c :: later ∧ ∀ c' ∈ later, c'.name ≠ c.name := by
  induction cs with
  | nil => cases h
  | cons d rest ih =>
    rw [latest] at h
    split at h
    · obtain ⟨earlier, later, rfl, hlater⟩ := ih h
      exact ⟨d :: earlier, later, rfl, hlater⟩
    · rcases List.mem_cons.1 h with rfl | h
      · rename_i hrest
        refine ⟨[], rest, rfl, ?_⟩
        intro c' hc' hname
        exact hrest (List.any_eq_true.2 ⟨c', hc', decide_eq_true hname⟩)
      · obtain ⟨earlier, later, rfl, hlater⟩ := ih h
        exact ⟨d :: earlier, later, rfl, hlater⟩

theorem find?_latest_concat (cs : List Commit) (c : Commit) (key : String) :
    (latest (cs ++ [c])).find? (·.name = key) =
      if key = c.name then some c else (latest cs).find? (·.name = key) := by
  rw [latest_concat, List.find?_append]
  by_cases hkey : key = c.name
  · subst hkey
    have hnone : ((latest cs).filter (·.name ≠ c.name)).find? (·.name = c.name) = none :=
      List.find?_eq_none.2 fun d hd => by simpa using (List.mem_filter.1 hd).2
    rw [hnone, if_pos rfl]
    simp
  · have hsame : ((latest cs).filter (·.name ≠ c.name)).find? (·.name = key) =
        (latest cs).find? (·.name = key) := by
      rw [List.find?_filter]
      congr 1
      funext d
      by_cases hd : d.name = key <;> simp [hd, hkey]
    rw [hsame, if_neg hkey]
    simp [Ne.symm hkey]

theorem find?_latest {cs : List Commit} {c : Commit} (h : c ∈ latest cs) :
    (latest cs).find? (·.name = c.name) = some c := by
  cases hfind : (latest cs).find? (·.name = c.name) with
  | none => exact absurd (decide_eq_true rfl) (List.find?_eq_none.1 hfind c h)
  | some d =>
    have hname : d.name = c.name := by simpa using List.find?_some hfind
    rw [List.inj_on_of_nodup_map (nodup_latest cs) (List.mem_of_find?_eq_some hfind) h hname]

end Commit

namespace Package

structure Describes (p : Package) (content : ByteArray) : Prop where
  size : p.size.toNat = content.size % 2 ^ 64
  hash : p.hash = some (Digest.base64 (Digest.sha1 content))
  sha256 : p.sha256 = some (Digest.base64 (Digest.sha256 content))
  required : p.required = true

theorem describes_describe (name : String) (content : ByteArray) :
    (describe name content).Describes content where
  size := UInt64.toNat_ofNat
  hash := rfl
  sha256 := rfl
  required := rfl

end Package

namespace SharedStore

variable {w w' : SharedStore} {moves : List Move} {move : Move} {baseUrl : String}

structure Stocked (baseUrl : String) (moves : List Move) (w : SharedStore) : Prop where
  baseUrl_eq : w.store.baseUrl = baseUrl
  version : w.store.version = (moves.filterMap Move.version?).getLast?
  packages : w.store.packages = (Commit.latest w.commits).map Commit.package
  files : ∀ name, w.store.file? name =
    ((Commit.latest w.commits).find? (·.name = name)).map Commit.file
  keys : (w.store.files.map Prod.fst).Nodup

theorem Stocked.of_same (hw : w.Stocked baseUrl moves) (hstore : w'.store = w.store)
    (hcommits : w'.commits = w.commits) (hmove : move.version? = none) :
    w'.Stocked baseUrl (moves ++ [move]) := by
  obtain ⟨hbase, hversion, hpackages, hfiles, hkeys⟩ := hw
  rw [← hstore] at hbase hversion hpackages hfiles hkeys
  rw [← hcommits] at hpackages hfiles
  refine ⟨hbase, ?_, hpackages, hfiles, hkeys⟩
  rw [hversion, List.filterMap_append]
  simp [hmove]

theorem Stocked.turn (hw : w.Stocked baseUrl moves) (h : w.Turn move w') :
    w'.Stocked baseUrl (moves ++ [move]) := by
  cases h with
  | added file name => exact hw.of_same rfl rfl rfl
  | read found hn => exact hw.of_same rfl rfl rfl
  | @committed n file name content hn =>
    refine ⟨hw.baseUrl_eq, ?version, ?packages, ?files, ?keys⟩
    case version =>
      rw [List.filterMap_append]
      exact hw.version.trans (by simp [Move.version?])
    case packages =>
      rw [Commit.latest_concat, List.map_append]
      change w.store.packages.filter _ ++ _ = _
      rw [hw.packages, List.filter_map]
      rfl
    case files =>
      intro key
      have hold : w.store.files.lookup key = _ := hw.files key
      change ((name, file) :: w.store.files.filter _).lookup key = _
      rw [Table.lookup_put, Table.lookup_drop, hold, Commit.find?_latest_concat]
      by_cases hkey : key = name
      · rw [if_pos hkey, if_pos hkey, Option.map_some]
      · rw [if_neg hkey, if_neg hkey, if_neg hkey]
    case keys =>
      change (((name, file) :: w.store.files.filter _).map Prod.fst).Nodup
      rw [List.map_cons, List.nodup_cons, Table.mem_keys_iff, Table.lookup_drop, if_pos rfl]
      exact ⟨by simp, Table.nodup_drop hw.keys⟩
  | versioned version =>
    refine ⟨hw.baseUrl_eq, ?_, hw.packages, hw.files, hw.keys⟩
    rw [List.filterMap_append]
    simp [PackageStore.setVersion, Move.version?]

theorem stocked_of_run (h : (empty baseUrl).run moves = some w) : w.Stocked baseUrl moves :=
  run_induction ⟨rfl, rfl, rfl, fun _ => rfl, List.nodup_nil⟩ Stocked.turn h

end SharedStore

namespace PackageStore

theorem isName_iff {name : String} :
    isName name ↔ name ≠ "" ∧ '/' ∉ name.toList ∧ '\\' ∉ name.toList := by
  rw [isName, Bool.and_eq_true, List.all_eq_true, decide_eq_true_iff]
  refine and_congr_right fun _ => ?_
  constructor
  · intro h
    exact ⟨fun hc => by simpa using h _ hc, fun hc => by simpa using h _ hc⟩
  · rintro ⟨hslash, hback⟩ c hc
    rw [Bool.and_eq_true, decide_eq_true_iff, decide_eq_true_iff]
    exact ⟨fun heq => hslash (heq ▸ hc), fun heq => hback (heq ▸ hc)⟩

structure Holds (s : PackageStore) (commits : List Commit) : Prop where
  packages : s.packages = (Commit.latest commits).map Commit.package
  distinct : (s.packages.map Package.name).Nodup
  named : ∀ p ∈ s.packages, p.name ≠ "" ∧ '/' ∉ p.name.toList ∧ '\\' ∉ p.name.toList
  keys : (s.files.map Prod.fst).Nodup ∧
    ∀ name, name ∈ s.files.map Prod.fst ↔ name ∈ s.packages.map Package.name
  origin : ∀ p ∈ s.packages, ∃ earlier c later, commits = earlier ++ c :: later ∧
    (∀ c' ∈ later, c'.name ≠ c.name) ∧
    p.name = c.name ∧ p.Describes c.content ∧ s.file? p.name = some c.file

end PackageStore

namespace SharedStore

theorem holds_of_run (h : (empty baseUrl).run moves = some w) : w.store.Holds w.commits := by
  have htraced := traced_of_run h
  have hstocked := stocked_of_run h
  have hnames : w.store.packages.map Package.name = (Commit.latest w.commits).map Commit.name := by
    rw [hstocked.packages, List.map_map]
    rfl
  refine ⟨hstocked.packages, ?distinct, ?named, ⟨hstocked.keys, ?keys⟩, ?origin⟩
  case distinct =>
    rw [hnames]
    exact Commit.nodup_latest w.commits
  case named =>
    intro p hp
    rw [hstocked.packages] at hp
    obtain ⟨c, hc, rfl⟩ := List.mem_map.1 hp
    have hadded := (htraced.committed c).1 ((Commit.latest_sublist w.commits).subset hc)
    have hname := htraced.names _ (List.mem_of_getElem? hadded)
    exact PackageStore.isName_iff.1 (hname.resolve_left Stage.noConfusion)
  case keys =>
    intro name
    have hfile : w.store.files.lookup name = _ := hstocked.files name
    rw [Table.mem_keys_iff, hfile, hnames, Option.isSome_map, List.find?_isSome]
    simp
  case origin =>
    intro p hp
    rw [hstocked.packages] at hp
    obtain ⟨c, hc, rfl⟩ := List.mem_map.1 hp
    obtain ⟨earlier, later, hsplit, hlater⟩ := Commit.split_of_mem_latest hc
    have hdescribes := Package.describes_describe c.name c.content
    refine ⟨earlier, c, later, hsplit, hlater, rfl, hdescribes, (hstocked.files c.name).trans ?_⟩
    rw [Commit.find?_latest hc, Option.map_some]

theorem run_consistent (h : (empty baseUrl).run moves = some w) :
    w.Traced moves ∧ w.store.Holds w.commits ∧
      (∀ n a fault, w.additions[n]? = some a → a.result? = some (.error fault) →
        .commit n ∉ moves) ∧
      (∀ move w', w.step move = some w' → (∀ n, move ≠ .commit n) →
        (∀ version, move ≠ .setVersion version) → w'.store = w.store) ∧
      ∀ (r : Request) (a : AppRequest),
        ((w.store.updater (m := Id)).checkUpdate r a).run =
          match (moves.filterMap Move.version?).getLast? with
          | none => .error .noUpdate
          | some version => .ok
              { urls := [⟨baseUrl⟩]
                manifest :=
                  { version
                    packages := w.store.packages
                    actions :=
                      [{ event := "postinstall"
                         sha256 := w.store.packages.head?.bind Package.sha256 }] } } := by
  refine ⟨traced_of_run h, holds_of_run h, ?failed, ?unchanged, ?offer⟩
  case failed =>
    intro n a fault ha hresult hcommit
    have hn : n ∈ w.commits.map Commit.call := by
      rw [(traced_of_run h).order]
      exact List.mem_filterMap.2 ⟨_, hcommit, rfl⟩
    obtain ⟨c, hc, rfl⟩ := List.mem_map.1 hn
    rw [((traced_of_run h).committed c).1 hc] at ha
    cases ha
    cases hresult
  case unchanged =>
    intro move w' hstep hcommit hversion
    cases turn_of_step hstep with
    | added file name => rfl
    | read found hn => rfl
    | committed hn => exact absurd rfl (hcommit _)
    | versioned version => exact absurd rfl (hversion version)
  case offer =>
    intro r a
    have hstocked := stocked_of_run h
    rw [← hstocked.version, ← hstocked.baseUrl_eq]
    rfl

def overtaken : List Move :=
  [.add ["one"] "p", .add ["two"] "p", .add ["three"] "q", .add ["four"] "../r",
    .add ["five"] "s", .read 1 (.ok "2".toUTF8), .read 0 (.ok "1".toUTF8), .commit 1,
    .read 4 (.error .notFound), .read 2 (.ok .empty), .setVersion "7", .commit 2, .commit 0]

theorem run_consistent_overtaken :
    ∃ w, (empty "http://localhost/packages/").run overtaken = some w ∧
      w.commits.map Commit.call = [1, 2, 0] ∧
      w.store.packages.map (fun p => (p.name, p.size, p.hash, p.sha256)) =
        [("q", 0, some "2jmj7l5rSw0yVb/vlWAYkK/YBwk=",
            some "47DEQpj8HBSa+/TImW+5JCeuQeRkm5NMpJWZG3hSuFU="),
          ("p", 1, some "NWoZK3kTsExUV00Ywo1G5jlUKKs=",
            some "a4ayc/80/OGda4BO/1o/V0etpOqiLx1JwB5S3beHW0s=")] ∧
      w.store.file? "p" = some ["one"] ∧ w.Traced overtaken ∧ w.store.Holds w.commits ∧
      Move.commit 4 ∉ overtaken := by
  let outcome := (empty "http://localhost/packages/").run overtaken
  obtain ⟨w, hw⟩ : ∃ w, outcome = some w := Option.isSome_iff_exists.1 (by decide +kernel)
  have hcommits : outcome.map (fun w => w.commits.map Commit.call) = some [1, 2, 0] := by
    decide +kernel
  have hpackages :
      outcome.map (fun w => w.store.packages.map fun p => (p.name, p.size, p.hash, p.sha256)) =
        some [("q", 0, some "2jmj7l5rSw0yVb/vlWAYkK/YBwk=",
            some "47DEQpj8HBSa+/TImW+5JCeuQeRkm5NMpJWZG3hSuFU="),
          ("p", 1, some "NWoZK3kTsExUV00Ywo1G5jlUKKs=",
            some "a4ayc/80/OGda4BO/1o/V0etpOqiLx1JwB5S3beHW0s=")] := by decide +kernel
  have hfile : outcome.map (fun w => w.store.file? "p") = some (some ["one"]) := by decide +kernel
  have hlost : outcome.map (fun w => w.additions[4]?.bind Addition.result?) =
      some (some (.error .notFound)) := by decide +kernel
  rw [hw] at hcommits hpackages hfile hlost
  obtain ⟨a, ha, hresult⟩ := Option.bind_eq_some_iff.1 (Option.some.inj hlost)
  obtain ⟨htraced, hholds, hfailed, -, -⟩ := run_consistent hw
  exact ⟨w, hw, Option.some.inj hcommits, Option.some.inj hpackages, Option.some.inj hfile,
    htraced, hholds, hfailed 4 a _ ha hresult⟩

end SharedStore

end UpdateProtocol
