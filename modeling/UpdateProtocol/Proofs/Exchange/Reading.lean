import UpdateProtocol.Proofs.Exchange.Course

namespace UpdateProtocol

open UpdateProtocol.Markup

theorem Document.read_extract {σ : Type} {sch : Schema σ} {item contentType : String}
    {body : ByteArray} (h : maxSize < body.size) :
    read sch item contentType (body.extract 0 (maxSize + 1)) = read sch item contentType body := by
  have hkept : (body.extract 0 (maxSize + 1)).extract 0 maxSize = body.extract 0 maxSize := by
    rw [ByteArray.extract_extract]
    congr 1
  have hsize : (body.extract 0 (maxSize + 1)).size > maxSize := by
    rw [ByteArray.size_extract]
    omega
  simp only [read, hkept, if_pos hsize, if_pos h]

theorem Response.decode_extract {contentType : String} {body : ByteArray}
    (h : Document.maxSize < body.size) :
    decode contentType (body.extract 0 (Document.maxSize + 1)) = decode contentType body := by
  rw [decode, decode, Document.read_extract h]

namespace Reply

def body (r : Reply) : ByteArray := r.chunks.foldl (· ++ ·) .empty

def decoded (r : Reply) (body : ByteArray) : Except Failure Response :=
  (Response.decode (ContentType.ofHeader r.contentType) body).mapError .document

/-- How chunks are read, with all that the buffer holds on the way. Before a chunk is added, the
room for it is a number that brings the buffer to one byte more than a document may have. -/
inductive Reads (fault : Option TransportFault) :
    ByteArray → List ByteArray → List ByteArray → Except TransportFault ByteArray → Prop
  | ended {done : ByteArray} (sound : fault = none) : Reads fault done [] [done] (.ok done)
  | failed {done : ByteArray} {cause : TransportFault} (broken : fault = some cause) :
      Reads fault done [] [done] (.error cause)
  | full {done chunk next : ByteArray} {rest : List ByteArray} {room : Nat}
      (left : done.size + room = Document.maxSize + 1) (added : next = done ++ chunk.extract 0 room)
      (long : Document.maxSize < next.size) : Reads fault done (chunk :: rest) [done, next] (.ok next)
  | more {done chunk next : ByteArray} {rest buffers : List ByteArray} {room : Nat}
      {outcome : Except TransportFault ByteArray} (left : done.size + room = Document.maxSize + 1)
      (added : next = done ++ chunk.extract 0 room) (fits : next.size ≤ Document.maxSize)
      (later : Reads fault next rest buffers outcome) :
      Reads fault done (chunk :: rest) (done :: buffers) outcome

variable {fault : Option TransportFault} {done : ByteArray} {chunks buffers : List ByteArray}
  {outcome : Except TransportFault ByteArray}

theorem size_next_le {chunk : ByteArray} {room : Nat} (h : done.size + room = Document.maxSize + 1) :
    (done ++ chunk.extract 0 room).size ≤ Document.maxSize + 1 := by
  rw [ByteArray.size_append, ByteArray.size_extract]
  omega

theorem Reads.size_le (h : Reads fault done chunks buffers outcome)
    (hdone : done.size ≤ Document.maxSize + 1) :
    ∀ buffer ∈ buffers, buffer.size ≤ Document.maxSize + 1 := by
  induction h with
  | ended _ => simpa using hdone
  | failed _ => simpa using hdone
  | full left added _ =>
    subst added
    exact List.forall_mem_cons.2 ⟨hdone, List.forall_mem_singleton.2 (size_next_le left)⟩
  | more left added _ _ ih =>
    subst added
    exact List.forall_mem_cons.2 ⟨hdone, ih (size_next_le left)⟩

theorem reads_receive (fault : Option TransportFault) (chunks : List ByteArray)
    (hdone : done.size ≤ Document.maxSize) :
    ∃ buffers, Reads fault done chunks buffers (receive fault done chunks) := by
  induction chunks generalizing done with
  | nil =>
    cases fault with
    | none => exact ⟨[done], .ended rfl⟩
    | some cause => exact ⟨[done], .failed rfl⟩
  | cons chunk rest ih =>
    have hroom : done.size + (Document.maxSize + 1 - done.size) = Document.maxSize + 1 := by omega
    rw [receive]
    split
    next hlong => exact ⟨_, .full hroom rfl hlong⟩
    next hfits =>
      obtain ⟨buffers, hlater⟩ := ih (Nat.le_of_not_lt hfits)
      exact ⟨done :: buffers, .more hroom rfl (Nat.le_of_not_lt hfits) hlater⟩

variable {r : Reply}

theorem response_of_long (hstatus : r.status.isSuccess = true)
    (hlong : Document.maxSize < r.body.size) : r.response = r.decoded r.body := by
  have hreceive : receive r.fault .empty r.chunks =
      .ok (r.body.extract 0 (Document.maxSize + 1)) :=
    (receive_eq r.chunks (Nat.zero_le _)).trans (if_neg (Nat.not_le.2 hlong))
  rw [response_of_receive hstatus hreceive, Response.decode_extract hlong]
  rfl

theorem response_of_whole (hstatus : r.status.isSuccess = true) (hfault : r.fault = none) :
    r.response = r.decoded r.body := by
  rcases Nat.lt_or_ge Document.maxSize r.body.size with hlong | hfits
  · exact response_of_long hstatus hlong
  · refine response_of_receive hstatus ?_
    rw [hfault]
    exact receive_of_fits hfits

theorem response_of_broken {cause : TransportFault} (hstatus : r.status.isSuccess = true)
    (hfault : r.fault = some cause) (hfits : r.body.size ≤ Document.maxSize) :
    r.response = .error (.transport cause) := by
  refine response_of_cut hstatus ?_
  rw [receive_eq r.chunks (Nat.zero_le _), hfault]
  exact if_pos hfits

theorem response_congr {r r' : Reply} (hstatus : r.status = r'.status)
    (htype : r.contentType = r'.contentType) (hfault : r.fault = r'.fault)
    (hbody : r.body = r'.body) : r.response = r'.response := by
  have hreceive : receive r.fault .empty r.chunks = receive r'.fault .empty r'.chunks := by
    rw [receive_eq r.chunks (Nat.zero_le _), receive_eq r'.chunks (Nat.zero_le _), hfault]
    change r.chunks.foldl (· ++ ·) .empty = r'.chunks.foldl (· ++ ·) .empty at hbody
    rw [hbody]
  rw [response, response, hstatus, htype, hreceive]

structure Understood (r : Reply) (outcome : Except Failure Response) : Prop where
  failure : r.status.isSuccess = false → outcome = .error (.http r.status)
  whole : r.status.isSuccess = true → r.fault = none → outcome = r.decoded r.body
  broken : r.status.isSuccess = true → ∀ cause, r.fault = some cause →
    r.body.size ≤ Document.maxSize → outcome = .error (.transport cause)
  overlong : r.status.isSuccess = true → ∀ cause, r.fault = some cause →
    Document.maxSize < r.body.size → outcome = r.decoded r.body
  bounded : r.status.isSuccess = true → ∃ buffers received,
    Reads r.fault .empty r.chunks buffers received ∧
      (∀ buffer ∈ buffers, buffer.size ≤ Document.maxSize + 1) ∧
      outcome = (received.mapError Failure.transport).bind r.decoded

theorem understood_response (r : Reply) : r.Understood r.response where
  failure := response_of_failure
  whole := response_of_whole
  broken hstatus _ hfault := response_of_broken hstatus hfault
  overlong hstatus _ _ := response_of_long hstatus
  bounded hstatus := by
    have hempty : ByteArray.empty.size ≤ Document.maxSize := Nat.zero_le _
    obtain ⟨buffers, hreads⟩ := reads_receive r.fault r.chunks hempty
    refine ⟨buffers, _, hreads, hreads.size_le (Nat.zero_le _), ?_⟩
    cases hreceive : receive r.fault .empty r.chunks with
    | ok body => exact response_of_receive hstatus hreceive
    | error cause => exact response_of_cut hstatus hreceive

end Reply

theorem Network.post_understood [Idna] {m : Type → Type} [Monad m] [LawfulMonad m] (net : Network m)
    (settings : NetworkSettings) {text : String} {url : Url} (htarget : Url.target text = .ok url)
    (body : ByteArray) :
    net.post settings text body =
        url.outcome <$> net.exchange { url, timeout := settings.timeout, body } ∧
      (∀ r : Reply, r.Understood (url.outcome (.ok r))) ∧
      ∀ r r' : Reply, r.status = r'.status → r.contentType = r'.contentType → r.fault = r'.fault →
        r.body = r'.body → url.outcome (.ok r) = url.outcome (.ok r') :=
  ⟨post_of_target htarget, Reply.understood_response, fun _ _ => Reply.response_congr⟩

namespace Reply

def blank : Reply where
  status := .ok
  chunks := [⟨Array.replicate Document.maxSize 0x20⟩, .empty, ⟨#[0x20, 0x20]⟩]
  fault := some (.bodyCut true)

theorem data_body_blank : blank.body.data = Array.replicate (Document.maxSize + 2) 0x20 := by
  have hrest : (#[0x20, 0x20] : Array UInt8) = Array.replicate 2 0x20 := rfl
  simp [body, blank, ByteArray.data_append, hrest]

theorem decoded_blank : blank.decoded blank.body = .error (.document .empty) := by
  have hblank : (blank.body.extract 0 Document.maxSize).data.all Document.isBlankByte = true := by
    rw [ByteArray.data_extract, data_body_blank, Array.extract_replicate, Array.all_replicate]
    simp [Document.isBlankByte]
  have haccepted : ContentType.accepted "" = true := by decide +kernel
  have hread : Response.decode "" blank.body = .error .empty := by
    simp only [Response.decode, Document.read, haccepted, hblank]
    rfl
  change (Response.decode "" blank.body).mapError _ = _
  rw [hread]
  rfl

end Reply

theorem Network.post_understood_blank :
    let net : Network Id := ⟨fun _ => .ok .blank, fun _ => ()⟩
    let url : Url :=
      { scheme := "http".toList
        authority := some { host := .name "a".toList }
        path := .segments [[]] }
    Url.target "http://a/" = .ok url ∧
      net.post {} "http://a/" .empty = .error (.document .empty) := by
  intro net url
  have htarget : Url.target "http://a/" = .ok url := by decide +kernel
  have hlong : Document.maxSize < Reply.blank.body.size := by
    rw [← ByteArray.size_data, Reply.data_body_blank, Array.size_replicate]
    omega
  obtain ⟨hpost, hunderstood, -⟩ := net.post_understood {} htarget .empty
  refine ⟨htarget, hpost.trans ?_⟩
  exact ((hunderstood .blank).overlong rfl _ rfl hlong).trans Reply.decoded_blank

end UpdateProtocol
