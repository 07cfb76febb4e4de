import UpdateProtocol.Client.Exchange
import UpdateProtocol.Http.Endpoint
import UpdateProtocol.Proofs.Document.RoundTrip

namespace UpdateProtocol

structure Chunking where
  cut : ByteArray → List ByteArray
  whole : ∀ body, (cut body).foldl (· ++ ·) .empty = body

/-- What becomes of a post: the first two never reach the server, the others do. -/
inductive Fate where
  | lost (cause : SendFault)
  | refused (status : HttpStatus) (h : status.isSuccess = false)
  | unanswered (cause : SendFault)
  | brokenOff (chunks : ByteArray → List ByteArray) (timedOut : Bool)
  | answered (chunking : Chunking)

def Post.target (p : Post) : String :=
  String.ofList (p.url.path.text ++ match p.url.query with
    | some query => '?' :: query
    | none => [])

def Post.http (p : Post) : HttpRequest where
  target := p.target
  contentType := some p.contentType.toUTF8
  body := p.body

def HttpAnswer.reply (a : HttpAnswer) (chunks : ByteArray → List ByteArray)
    (fault : Option TransportFault) : Reply where
  status := a.status
  contentType := a.contentType.map String.toUTF8
  chunks := chunks a.body
  fault := fault

variable {m : Type → Type} [Monad m]

def wire (u : Updater m) (schedule : Nat → Fate) : Network (StateT (List Post) m) where
  exchange p := do
    let posts ← get
    set (posts ++ [p])
    match schedule posts.length with
    | .lost cause => pure (.error cause)
    | .refused status _ => pure (.ok { status })
    | .unanswered cause => do
        let _ ← liftM (Endpoint.serve u p.http)
        pure (.error cause)
    | .brokenOff chunks timedOut => do
        let answer ← liftM (Endpoint.serve u p.http)
        pure (.ok (answer.reply chunks (some (.bodyCut timedOut))))
    | .answered chunking => do
        let answer ← liftM (Endpoint.serve u p.http)
        pure (.ok (answer.reply chunking.cut none))
  pause _ := pure ()

namespace Reply

theorem size_le_foldl (chunks : List ByteArray) (done : ByteArray) :
    done.size ≤ (chunks.foldl (· ++ ·) done).size := by
  induction chunks generalizing done with
  | nil => exact Nat.le_refl _
  | cons chunk rest ih =>
    have hrest := ih (done ++ chunk)
    rw [ByteArray.size_append] at hrest
    rw [List.foldl_cons]
    omega

theorem foldl_append (chunks : List ByteArray) (done : ByteArray) :
    chunks.foldl (· ++ ·) done = done ++ chunks.foldl (· ++ ·) .empty := by
  induction chunks generalizing done with
  | nil => exact ByteArray.append_empty.symm
  | cons chunk rest ih =>
    rw [List.foldl_cons, List.foldl_cons, ih, ih (.empty ++ chunk), ByteArray.empty_append,
      ByteArray.append_assoc]

theorem receive_eq {fault : Option TransportFault} {done : ByteArray} (chunks : List ByteArray)
    (h : done.size ≤ Document.maxSize) :
    receive fault done chunks =
      if (chunks.foldl (· ++ ·) done).size ≤ Document.maxSize then
        match fault with
        | none => .ok (chunks.foldl (· ++ ·) done)
        | some fault => .error fault
      else .ok ((chunks.foldl (· ++ ·) done).extract 0 (Document.maxSize + 1)) := by
  induction chunks generalizing done with
  | nil =>
    rw [List.foldl_nil, if_pos h]
    rfl
  | cons chunk rest ih =>
    rw [List.foldl_cons, receive]
    by_cases hfits : (done ++ chunk).size ≤ Document.maxSize
    · have hchunk : chunk.extract 0 (Document.maxSize + 1 - done.size) = chunk := by
        rw [ByteArray.size_append] at hfits
        exact Document.extract_of_le (by omega)
      rw [hchunk, if_neg (by omega), ih hfits]
    · have hcut : (rest.foldl (· ++ ·) (done ++ chunk)).extract 0 (Document.maxSize + 1) =
          done ++ chunk.extract 0 (Document.maxSize + 1 - done.size) := by
        rw [foldl_append, Document.extract_append_of_le (by omega), ByteArray.extract_append,
          Document.extract_of_le (by omega), Nat.zero_sub]
      have hall := size_le_foldl rest (done ++ chunk)
      have hlong : Document.maxSize <
          (done ++ chunk.extract 0 (Document.maxSize + 1 - done.size)).size := by
        rw [ByteArray.size_append] at hfits ⊢
        rw [ByteArray.size_extract]
        omega
      rw [if_pos hlong, if_neg (by omega), hcut]

theorem receive_none_ok (chunks : List ByteArray) :
    ∃ body, receive none .empty chunks = .ok body := by
  rw [receive_eq chunks (Nat.zero_le _)]
  split
  · exact ⟨_, rfl⟩
  · exact ⟨_, rfl⟩

theorem receive_of_fits {chunks : List ByteArray}
    (h : (chunks.foldl (· ++ ·) ByteArray.empty).size ≤ Document.maxSize) :
    receive none .empty chunks = .ok (chunks.foldl (· ++ ·) .empty) := by
  rw [receive_eq chunks (Nat.zero_le _), if_pos h]

theorem response_of_receive {r : Reply} {body : ByteArray} (hstatus : r.status.isSuccess = true)
    (h : receive r.fault .empty r.chunks = .ok body) :
    r.response =
      (Response.decode (ContentType.ofHeader r.contentType) body).mapError .document := by
  rw [response, if_pos hstatus, h]
  dsimp only
  cases Response.decode (ContentType.ofHeader r.contentType) body <;> rfl

end Reply

namespace ContentType

theorem ofHeader_xml : ofHeader (some xml.toUTF8) = xml := by decide +kernel

theorem accepted_xml : accepted xml = true := by decide +kernel

end ContentType

namespace Endpoint

variable [LawfulMonad m]

theorem serve_of_decode (u : Updater m) {r : HttpRequest} {request : Request}
    (hpath : r.path ∈ routes) (hmethod : r.method = "POST") (hsize : r.body.size ≤ maxBody)
    (hdecode : Request.decode (ContentType.ofHeader r.contentType) r.body = .ok request) :
    serve u r = HttpAnswer.document <$> u.respond request := by
  rw [serve, if_pos hpath, handle, if_neg (by simp [hmethod]), if_neg (by omega), hdecode]
  simp

omit [LawfulMonad m] in
theorem serve_of_fault (u : Updater m) {r : HttpRequest} {fault : DocumentFault}
    (hpath : r.path ∈ routes) (hmethod : r.method = "POST") (hsize : r.body.size ≤ maxBody)
    (hdecode : Request.decode (ContentType.ofHeader r.contentType) r.body = .error fault) :
    serve u r = pure (.badRequest fault) := by
  rw [serve, if_pos hpath, handle, if_neg (by simp [hmethod]), if_neg (by omega), hdecode]

omit [LawfulMonad m] in
theorem serve_of_long (u : Updater m) {r : HttpRequest} (hpath : r.path ∈ routes)
    (hmethod : r.method = "POST") (hsize : maxBody < r.body.size) :
    serve u r = pure .tooLarge := by
  rw [serve, if_pos hpath, handle, if_neg (by simp [hmethod]), if_pos hsize]

omit [LawfulMonad m] in
theorem serve_of_unrouted (u : Updater m) {r : HttpRequest} (hpath : r.path ∉ routes) :
    serve u r = pure .notFound := by
  rw [serve, if_neg hpath]

end Endpoint

namespace Post

theorem path_http {p : Post} (h : String.ofList p.url.path.text ∈ Endpoint.routes) :
    p.http.path ∈ Endpoint.routes := by
  have hplain : ∀ s : List Char, String.ofList s ∈ Endpoint.routes →
      s.all (fun c => c ≠ '?' && c ≠ '#') = true := by
    intro s hs
    simp only [Endpoint.routes, List.mem_cons, List.not_mem_nil, or_false] at hs
    have hlist : s = (String.ofList s).toList := String.toList_ofList.symm
    rw [hlist]
    rcases hs with hs | hs | hs <;> rw [hs] <;> decide
  have hpath : p.http.path = String.ofList p.url.path.text := by
    rw [HttpRequest.path, http, target, String.toList_ofList,
      List.takeWhile_append_of_pos (List.all_eq_true.1 (hplain _ h))]
    split <;> simp
  rwa [hpath]

end Post

namespace Response

def received (chunking : Chunking) (r : Response) : Except Failure Response :=
  ((HttpAnswer.document r).reply chunking.cut none).response

theorem received_eq {r : Response} {chunking : Chunking} {body : ByteArray}
    (h : Reply.receive none .empty (chunking.cut r.encode) = .ok body) :
    r.received chunking = (decode ContentType.xml body).mapError .document := by
  have hreceive : Reply.receive ((HttpAnswer.document r).reply chunking.cut none).fault .empty
      ((HttpAnswer.document r).reply chunking.cut none).chunks = .ok body := h
  rw [received, Reply.response_of_receive rfl hreceive]
  congr 2
  exact ContentType.ofHeader_xml

theorem received_of_fits {r : Response} (hprotocol : r.protocol = protocolVersion)
    (hsize : r.encode.size ≤ Document.maxSize) (chunking : Chunking) :
    r.received chunking = .ok r.canonical := by
  have hwhole : (chunking.cut r.encode).foldl (· ++ ·) .empty = r.encode := chunking.whole _
  have hreceive : Reply.receive none .empty (chunking.cut r.encode) = .ok r.encode := by
    rw [Reply.receive_of_fits (by rwa [hwhole]), hwhole]
  rw [received_eq hreceive, decode_written hprotocol ContentType.accepted_xml hsize]
  rfl

theorem received_settled (chunking : Chunking) (r : Response) {cause : Failure}
    (h : r.received chunking = .error cause) : cause.isTemporary = false := by
  obtain ⟨body, hbody⟩ := Reply.receive_none_ok (chunking.cut r.encode)
  rw [received_eq hbody] at h
  cases hdecode : decode ContentType.xml body with
  | ok v =>
    rw [hdecode] at h
    cases h
  | error fault =>
    rw [hdecode] at h
    cases h
    rfl

end Response

namespace Retry

variable {α β τ : Type} [LawfulMonad m]

theorem run_of_settled {attempt : StateT τ m (Except Failure α)} {pause : Pause → StateT τ m Unit}
    {t t' : τ} {x : m β} {outcome : β → Except Failure α}
    (hsettled : ∀ b cause, outcome b = .error cause → cause.isTemporary = false)
    (h : attempt.run t = (fun b => (outcome b, t')) <$> x) (initial : Duration) (tries : UInt32) :
    (run initial tries attempt pause).run t = (fun b => (outcome b, t')) <$> x := by
  rw [run]
  cases tries.toNat - 1 with
  | zero => exact h
  | succ left =>
    rw [loop, StateT.run_bind, h, bind_map_left, map_eq_pure_bind]
    congr 1
    funext b
    cases hb : outcome b with
    | ok value => simp
    | error cause => simp [hsettled b cause hb]

end Retry

section Wire

variable [LawfulMonad m] {u : Updater m} {schedule : Nat → Fate} {posts : List Post}

theorem wire_exchange_of_answered {chunking : Chunking} {p : Post}
    (hfate : schedule posts.length = .answered chunking) :
    ((wire u schedule).exchange p).run posts =
      (fun answer => (.ok (answer.reply chunking.cut none), posts ++ [p])) <$>
        Endpoint.serve u p.http := by
  simp [wire, hfate]

def Question.post (q : Question) (url : Url) : Post where
  url := url
  timeout := q.network.timeout
  body := q.request.encode

theorem Question.serve_post_of_path {q : Question} {url : Url}
    (hpath : (q.post url).http.path ∈ Endpoint.routes)
    (hprotocol : q.request.protocol = protocolVersion)
    (hsize : q.request.encode.size ≤ Document.maxSize) :
    Endpoint.serve u (q.post url).http = HttpAnswer.document <$> u.respond q.request := by
  have hfits : (q.post url).http.body.size ≤ Endpoint.maxBody :=
    Nat.le_trans hsize (by decide)
  refine Endpoint.serve_of_decode u hpath rfl hfits ?_
  change Request.decode (ContentType.ofHeader (some ContentType.xml.toUTF8)) q.request.encode = _
  rw [ContentType.ofHeader_xml]
  exact Request.decode_of_read
    (Document.read_text q.request.holds "Request" ContentType.accepted_xml hsize) hprotocol

theorem Question.serve_post {q : Question} {url : Url}
    (hroute : String.ofList url.path.text ∈ Endpoint.routes)
    (hprotocol : q.request.protocol = protocolVersion)
    (hsize : q.request.encode.size ≤ Document.maxSize) :
    Endpoint.serve u (q.post url).http = HttpAnswer.document <$> u.respond q.request :=
  serve_post_of_path (Post.path_http hroute) hprotocol hsize

theorem Question.send_of_answered [Idna] {q : Question} {url : Url} {chunking : Chunking} {α : Type}
    (htarget : Url.target q.url = .ok url)
    (hroute : String.ofList url.path.text ∈ Endpoint.routes)
    (hfate : schedule 0 = .answered chunking)
    (hprotocol : q.request.protocol = protocolVersion)
    (hsize : q.request.encode.size ≤ Document.maxSize)
    (take : AppResponse → Except Failure α) :
    (q.send (wire u schedule) take).run [] =
      (fun r => (q.judge take (r.received chunking), [q.post url])) <$> u.respond q.request := by
  have hpost : ((wire u schedule).post q.network q.url q.request.encode).run [] =
      (fun r => (r.received chunking, [q.post url])) <$> u.respond q.request := by
    rw [Network.post, htarget]
    change ((wire u schedule).exchange (q.post url) >>= _).run [] = _
    rw [StateT.run_bind, wire_exchange_of_answered hfate, serve_post hroute hprotocol hsize]
    simp [Response.received]
  rw [send, Network.send, StateT.run_bind,
    Retry.run_of_settled (fun r cause => Response.received_settled chunking r) hpost]
  simp

end Wire

end UpdateProtocol
