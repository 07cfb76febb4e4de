import UpdateProtocol.Package.Download
import UpdateProtocol.Proofs.Exchange.Serving
import UpdateProtocol.Proofs.Package.Interleaving
import UpdateProtocol.Proofs.Url.Address

namespace UpdateProtocol

open UpdateProtocol.Text

namespace HttpRequest

def get (url : Url) : HttpRequest where
  method := "GET"
  target := String.ofList (url.path.text ++ match url.query with
    | some query => '?' :: query
    | none => [])

theorem path_get {url : Url} {path : List Char} (htext : url.path.text = path)
    (hpath : path.all (fun c => c ≠ '?' && c ≠ '#') = true) :
    (get url).path = String.ofList path := by
  rw [HttpRequest.path, get, String.toList_ofList, htext,
    List.takeWhile_append_of_pos (List.all_eq_true.1 hpath)]
  split <;> simp

end HttpRequest

namespace UrlPath

variable {core segment : List Char}

theorem resolve_packages (segment : List Char) :
    resolve false [] ["packages".toList, segment] =
      if isAbove segment then [[]]
      else if isHere segment then ["packages".toList, []]
      else ["packages".toList, segment] := by
  have hfirst : resolve false [] ["packages".toList, segment] =
      resolve false ["packages".toList] [segment] := rfl
  rw [hfirst, resolve]
  rfl

theorem text_read_packages (h : ∀ c ∈ core, c ∉ ['/', '\\']) :
    (read true false ("/packages/".toList ++ core)).text =
      if isAbove (percentEncode escapedInPath core) then ['/']
      else if isHere (percentEncode escapedInPath core) then "/packages/".toList
      else "/packages/".toList ++ percentEncode escapedInPath core := by
  have hcore : parts (fun c => decide (c = '/') || (true && decide (c = '\\'))) core = [core] :=
    parts_of_none fun c hc => by simpa using h c hc
  have hparts : parts (fun c => decide (c = '/') || (true && decide (c = '\\')))
      ("packages".toList ++ '/' :: core) = ["packages".toList, core] := by
    rw [parts_append_cons _ _ rfl, hcore]
    rfl
  have hread : read true false ("/packages/".toList ++ core) =
      .segments (resolve false [] ["packages".toList, percentEncode escapedInPath core]) := by
    change UrlPath.segments (resolve false [] ((parts _ ("packages".toList ++ '/' :: core)).map _)) =
      _
    rw [hparts]
    rfl
  rw [hread, resolve_packages]
  split
  · rfl
  · split
    · rfl
    · exact congrArg ("/packages/".toList ++ ·) (List.append_nil _)

end UrlPath

namespace PackageStore

variable {s : PackageStore} {fs : Files} {name : String} {url : Url}

theorem segment?_packages {segment : List Char} (hne : segment ≠ []) (hslash : '/' ∉ segment) :
    segment? (String.ofList ("/packages/".toList ++ segment)) = some (String.ofList segment) := by
  have hprefix : packagesPath.toList.isPrefixOf ("/packages/".toList ++ segment) = true :=
    List.isPrefixOf_iff_prefix.2 (List.prefix_append _ _)
  have hdrop : ("/packages/".toList ++ segment).drop packagesPath.length = segment :=
    List.drop_left' (by decide)
  rw [segment?, String.toList_ofList, if_pos hprefix, hdrop]
  exact if_neg (not_or.2 ⟨hne, hslash⟩)

theorem pathPart_of_isName (hname : isName name = true) :
    ∀ c ∈ Url.pathPart name.toList, c ∉ ['/', '\\'] := by
  intro c hc hmem
  obtain ⟨-, hslash, hback⟩ := isName_iff.1 hname
  have hc := (Url.pathPart_sublist _).subset hc
  rw [List.mem_pair] at hmem
  rcases hmem with rfl | rfl
  · exact hslash hc
  · exact hback hc

theorem encodedName_unmarked (hname : isName name = true) :
    ∀ c ∈ encodedName name, c ∉ ['/', '?', '#'] := by
  intro c hc
  rcases mem_percentEncode hc with ⟨hc, -, hkept⟩ | hdigit
  · have hslash := pathPart_of_isName hname c hc
    simp only [List.mem_cons, List.not_mem_nil, or_false, not_or] at hslash ⊢
    refine ⟨hslash.1, ?_, ?_⟩ <;> rintro rfl <;> cases hkept
  · have hall : "%0123456789ABCDEF".toList.all (fun c => decide (c ∉ ['/', '?', '#'])) = true := by
      decide
    simpa using List.all_eq_true.1 hall c hdigit

theorem serve_get (hname : isName name = true)
    (hpath : url.path = .read true false ("/packages/".toList ++ Url.pathPart name.toList)) :
    s.serve fs (.get url) =
      if UrlPath.isAbove (encodedName name) then .methodNotAllowed "POST"
      else if UrlPath.isHere (encodedName name) || (encodedName name).isEmpty then .notFound
      else s.serveDownload fs "GET" (String.ofList (encodedName name)) := by
  have htext := UrlPath.text_read_packages (pathPart_of_isName hname)
  rw [← hpath, ← encodedName] at htext
  have hmarks := encodedName_unmarked hname
  have hunrouted (h : url.path.text = "/packages/".toList) : s.serve fs (.get url) = .notFound := by
    have hfolder : (HttpRequest.get url).path = "/packages/" :=
      (HttpRequest.path_get h (by decide)).trans String.ofList_toList
    have hnone : segment? "/packages/" = none := by decide
    rw [serve, hfolder, hnone]
    dsimp only
    rw [Endpoint.serve_of_unrouted _ (by rw [hfolder]; decide)]
    rfl
  split at htext
  next habove =>
    have hroot : (HttpRequest.get url).path = "/" := HttpRequest.path_get htext (by decide)
    have hnone : segment? "/" = none := by decide
    rw [if_pos habove, serve, hroot, hnone]
    dsimp only
    rw [Endpoint.serve_of_unposted _ (by rw [hroot]; decide)
      (by decide : "GET" ≠ "POST")]
    rfl
  next habove =>
    rw [if_neg habove]
    split at htext
    next hhere => rw [if_pos (by rw [hhere, Bool.true_or]), hunrouted htext]
    next hhere =>
      by_cases hempty : encodedName name = []
      · rw [hempty, List.append_nil] at htext
        rw [if_pos (by simp [hempty]), hunrouted htext]
      · have hsegment : (HttpRequest.get url).path =
            String.ofList ("/packages/".toList ++ encodedName name) := by
          refine HttpRequest.path_get htext ?_
          rw [List.all_append, Bool.and_eq_true, List.all_eq_true (l := encodedName name)]
          refine ⟨by decide, fun c hc => ?_⟩
          simpa using mt (List.mem_cons_of_mem '/') (hmarks c hc)
        have hslash : '/' ∉ encodedName name := fun hc => hmarks '/' hc List.mem_cons_self
        rw [if_neg (by simp [hhere, hempty]), serve, hsegment, segment?_packages hempty hslash]
        rfl

theorem serve_get_plain (hname : isName name = true)
    (hpath : url.path = .read true false ("/packages/".toList ++ Url.pathPart name.toList))
    (hplain : IsPlain name) : s.serve fs (.get url) = s.download fs name := by
  obtain ⟨hdecode, hhere, habove⟩ := isPlain_iff.1 hplain
  have hne : (encodedName name).isEmpty = false := by
    rw [Bool.eq_false_iff]
    intro hempty
    rw [List.isEmpty_iff.1 hempty] at hdecode
    obtain rfl : "" = name := Option.some.inj hdecode
    exact (isName_iff.1 hname).1 rfl
  rw [serve_get hname hpath, habove, hhere, hne, serveDownload, hdecode]
  rfl

theorem name_of_serve_get (hname : isName name = true)
    (hpath : url.path = .read true false ("/packages/".toList ++ Url.pathPart name.toList))
    (hplain : ¬IsPlain name) (hok : (s.serve fs (.get url)).status = .ok) :
    ∃ other, other ≠ name ∧ s.serve fs (.get url) = s.download fs other := by
  rw [serve_get hname hpath] at hok ⊢
  split at hok
  · cases hok
  · split at hok
    · cases hok
    next habove hhere =>
      rw [if_neg habove, if_neg hhere]
      cases hdecode : percentDecode? (String.ofList (encodedName name)) with
      | none =>
        rw [serveDownload, hdecode] at hok
        cases hok
      | some other =>
        refine ⟨other, ?_, ?_⟩
        · rintro rfl
          rw [Bool.or_eq_true, not_or] at hhere
          exact hplain (isPlain_iff.2 ⟨hdecode, Bool.eq_false_iff.2 hhere.1,
            Bool.eq_false_iff.2 habove⟩)
        · rw [serveDownload, hdecode]
          rfl

def Sends (s : PackageStore) (fs : Files) (url : Url) (p : Package) : Prop :=
  (s.serve fs (.get url)).status = .ok ∧ p.Describes (s.serve fs (.get url)).body

end PackageStore

namespace SharedStore

variable {w : SharedStore} {moves : List Move} {host : String} {a : Authority} {fs : Files}

theorem download_latest {baseUrl : String} (hstocked : w.Stocked baseUrl moves) {c : Commit}
    (hc : c ∈ Commit.latest w.commits) (hfile : fs.read c.file = .ok c.content) :
    w.store.download fs c.name = .packageContent c.content := by
  rw [PackageStore.download, hstocked.files, Commit.find?_latest hc]
  dsimp only [Option.map_some]
  rw [hfile]

theorem exists_of_download {baseUrl : String} (hstocked : w.Stocked baseUrl moves) {name : String}
    (hok : (w.store.download fs name).status = .ok) :
    ∃ c ∈ Commit.latest w.commits, c.name = name := by
  rw [PackageStore.download, hstocked.files] at hok
  cases hfind : (Commit.latest w.commits).find? (·.name = name) with
  | none =>
    rw [hfind] at hok
    cases hok
  | some c =>
    exact ⟨c, List.mem_of_find?_eq_some hfind, by simpa using List.find?_some hfind⟩

theorem parse_advertised [Idna] (hbound : Url.IsBound host a) (name : String) : ∃ url,
    Url.parse (PackageStore.baseUrlAt host ++ name) = .ok url ∧ url.authority = some a ∧
      url.path = .read true false ("/packages/".toList ++ Url.pathPart name.toList) := by
  have htext : PackageStore.baseUrlAt host ++ name = String.ofList
      ("http://".toList ++ host.toList ++ '/' :: "packages/".toList ++ name.toList) := by
    rw [← String.toList_inj, String.toList_ofList, PackageStore.baseUrlAt, String.toList_append,
      String.toList_append, String.toList_append]
    rfl
  rw [htext]
  exact Url.parse_append hbound (by decide) _

theorem advertised_download [Idna] (hrun : (empty (PackageStore.baseUrlAt host)).run moves = some w)
    (hbound : Url.IsBound host a)
    (hfiles : ∀ c ∈ Commit.latest w.commits, fs.read c.file = .ok c.content)
    {r : Request} {app : AppRequest} {update : Update}
    (hoffer : ((w.store.updater (m := Id)).checkUpdate r app).run = .ok update) :
    update.urls = [⟨PackageStore.baseUrlAt host⟩] ∧
    ∀ p ∈ update.manifest.packages, ∃ url,
      Url.parse (PackageStore.baseUrlAt host ++ p.name) = .ok url ∧ url.authority = some a ∧
      (IsPlain p.name → w.store.Sends fs url p) ∧
      (¬IsPlain p.name → (w.store.serve fs (.get url)).status = .ok →
        ∃ q ∈ update.manifest.packages, q.name ≠ p.name ∧ w.store.Sends fs url q) := by
  have hstocked := stocked_of_run hrun
  have hholds := holds_of_run hrun
  obtain ⟨hurls, hpackages⟩ : update.urls = [⟨w.store.baseUrl⟩] ∧
      update.manifest.packages = w.store.packages := by
    change w.store.offer = .ok update at hoffer
    rw [PackageStore.offer] at hoffer
    split at hoffer
    · cases hoffer
    · cases hoffer
      exact ⟨rfl, rfl⟩
  rw [hurls, hstocked.baseUrl_eq, hpackages]
  refine ⟨rfl, fun p hp => ?_⟩
  obtain ⟨url, hparse, hauthority, hpath⟩ := parse_advertised hbound p.name
  have hname : PackageStore.isName p.name = true := PackageStore.isName_iff.2 (hholds.named p hp)
  rw [hstocked.packages] at hp
  obtain ⟨c, hc, rfl⟩ := List.mem_map.1 hp
  refine ⟨url, hparse, hauthority, fun hplain => ?_, fun hplain hok => ?_⟩
  · have hserve := (PackageStore.serve_get_plain hname hpath hplain).trans
      (download_latest hstocked hc (hfiles c hc))
    rw [PackageStore.Sends, hserve]
    exact ⟨rfl, Package.describes_describe c.name c.content⟩
  · obtain ⟨other, hother, hserve⟩ := PackageStore.name_of_serve_get hname hpath hplain hok
    obtain ⟨d, hd, rfl⟩ := exists_of_download hstocked (hserve ▸ hok)
    rw [download_latest hstocked hd (hfiles d hd)] at hserve
    refine ⟨d.package, ?_, hother, ?_⟩
    · rw [hstocked.packages]
      exact List.mem_map_of_mem hd
    · rw [PackageStore.Sends, hserve]
      exact ⟨rfl, Package.describes_describe d.name d.content⟩

def soleAddition (name : String) : List Move :=
  [.add ["file"] name, .read 0 (.ok "1".toUTF8), .commit 0, .setVersion "7"]

def soleStore (name : String) : SharedStore where
  store :=
    { baseUrl := PackageStore.baseUrlAt "127.0.0.1:8080"
      version := some "7"
      packages := [.describe name "1".toUTF8]
      files := [(name, ["file"])] }
  additions := [⟨["file"], name, .added "1".toUTF8⟩]
  commits := [⟨0, ["file"], name, "1".toUTF8⟩]

def soleUpdate (name : String) : Update where
  urls := [⟨PackageStore.baseUrlAt "127.0.0.1:8080"⟩]
  manifest :=
    { version := "7"
      packages := [.describe name "1".toUTF8]
      actions :=
        [{ event := "postinstall", sha256 := (Package.describe name "1".toUTF8).sha256 }] }

def soleFile : Files := [(["file"], .file "1".toUTF8)]

theorem run_soleAddition {name : String} (hname : PackageStore.isName name = true) :
    (empty (PackageStore.baseUrlAt "127.0.0.1:8080")).run (soleAddition name) =
      some (soleStore name) := by
  simp only [run, soleAddition, List.foldlM_cons, step, hname]
  rfl

theorem isBound_local : Url.IsBound "127.0.0.1:8080"
    { host := .ipv4 0x7F000001, port := some 8080 } := by
  have hsocket : Authority.ipv4Socket 0x7F000001 8080 = "127.0.0.1:8080" := by decide
  exact hsocket ▸ Authority.isBound_ipv4Socket (by decide) (by decide)

theorem read_soleFile : soleFile.read ["file"] = .ok "1".toUTF8 := by rfl

theorem advertised_download_sole : IsPlain "é 1%.gz" ∧ ∃ url,
    Url.parse (PackageStore.baseUrlAt "127.0.0.1:8080" ++ "é 1%.gz") = .ok url ∧
      (soleStore "é 1%.gz").store.Sends soleFile url (.describe "é 1%.gz" "1".toUTF8) := by
  have hplain : IsPlain "é 1%.gz" :=
    isPlain_iff.2 ⟨by decide +kernel, by decide +kernel, by decide +kernel⟩
  obtain ⟨-, hall⟩ := advertised_download (run_soleAddition (by decide)) isBound_local
    (fun c hc => by
      obtain rfl := List.mem_singleton.1 hc
      exact read_soleFile)
    (rfl : (((soleStore "é 1%.gz").store.updater (m := Id)).checkUpdate .new { id := "a" }).run =
      .ok (soleUpdate "é 1%.gz"))
  obtain ⟨url, hparse, -, hsends, -⟩ := hall _ List.mem_cons_self
  exact ⟨hplain, url, hparse, hsends hplain⟩

theorem question_mark_lost :
    (empty (PackageStore.baseUrlAt "127.0.0.1:8080")).run (soleAddition "a?b") =
        some (soleStore "a?b") ∧
      soleFile.read ["file"] = .ok "1".toUTF8 ∧
      (((soleStore "a?b").store.updater (m := Id)).checkUpdate .new { id := "a" }).run =
        .ok (soleUpdate "a?b") ∧
      .describe "a?b" "1".toUTF8 ∈ (soleUpdate "a?b").manifest.packages ∧
      ∃ url, Url.parse (PackageStore.baseUrlAt "127.0.0.1:8080" ++ "a?b") = .ok url ∧
        ((soleStore "a?b").store.serve soleFile (.get url)).status = .notFound := by
  refine ⟨run_soleAddition (by decide), read_soleFile, rfl, List.mem_cons_self,
    { scheme := "http".toList
      authority := some { host := .ipv4 0x7F000001, port := some 8080 }
      path := .segments ["packages".toList, ['a']]
      query := some ['b'] }, by decide +kernel, by decide +kernel⟩

end SharedStore

end UpdateProtocol
