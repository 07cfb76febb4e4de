import UpdateProtocol.Proofs.Document.Cut
import UpdateProtocol.Proofs.Exchange.Sending

namespace UpdateProtocol

namespace Fate

def reaches : Fate → Bool
  | lost _ | refused _ _ => false
  | unanswered _ | brokenOff _ _ | answered _ => true

def outcome (answer : HttpAnswer) : Fate → Except SendFault Reply
  | lost cause | unanswered cause => .error cause
  | refused status _ => .ok { status }
  | brokenOff chunks timedOut => .ok (answer.reply chunks (some (.bodyCut timedOut)))
  | answered chunking => .ok (answer.reply chunking.cut none)

def IsAnswered : Fate → Prop
  | answered _ => True
  | lost _ | refused _ _ | unanswered _ | brokenOff _ _ => False

def Begins : Fate → Prop
  | brokenOff chunks _ => ∀ body, ∃ rest, body = (chunks body).foldl (· ++ ·) .empty ++ rest
  | lost _ | refused _ _ | unanswered _ | answered _ => True

end Fate

structure Course where
  fate : Fate
  overruled : Option HttpStatus := none
  begins : fate.Begins
  failure : ∀ status, overruled = some status → status.isSuccess = false

namespace Course

def outcome (c : Course) (answer : HttpAnswer) : Except SendFault Reply :=
  match c.overruled with
  | some status => .ok { status }
  | none => c.fate.outcome answer

def IsAnswered (c : Course) : Prop := c.overruled = none ∧ c.fate.IsAnswered

end Course

variable {m : Type → Type} [Monad m]

def line (u : Updater m) (courses : Nat → Course) : Network (StateT (List Post) m) where
  exchange p := do
    let posts ← get
    let outcome ← (wire u fun n => (courses n).fate).exchange p
    match (courses posts.length).overruled with
    | some status => pure (.ok { status })
    | none => pure outcome
  pause _ := pure ()

section Exchange

variable [LawfulMonad m] {u : Updater m} {courses : Nat → Course} {posts : List Post} {p : Post}

theorem line_exchange_of_reaches (h : (courses posts.length).fate.reaches) :
    ((line u courses).exchange p).run posts =
      (fun answer => ((courses posts.length).outcome answer, posts ++ [p])) <$>
        Endpoint.serve u p.http := by
  cases hfate : (courses posts.length).fate with
  | lost cause => simp [hfate, Fate.reaches] at h
  | refused status hstatus => simp [hfate, Fate.reaches] at h
  | _ => cases hover : (courses posts.length).overruled <;>
      simp [line, wire, hfate, hover, Course.outcome, Fate.outcome]

theorem line_exchange_of_missed (h : (courses posts.length).fate.reaches = false)
    (answer : HttpAnswer) :
    ((line u courses).exchange p).run posts =
      pure ((courses posts.length).outcome answer, posts ++ [p]) := by
  cases hfate : (courses posts.length).fate with
  | lost cause => cases hover : (courses posts.length).overruled <;>
      simp [line, wire, hfate, hover, Course.outcome, Fate.outcome]
  | refused status hstatus => cases hover : (courses posts.length).overruled <;>
      simp [line, wire, hfate, hover, Course.outcome, Fate.outcome]
  | _ => simp [hfate, Fate.reaches] at h

end Exchange

namespace Reply

theorem response_of_failure {r : Reply} (h : r.status.isSuccess = false) :
    r.response = .error (.http r.status) := by
  rw [response, if_neg (by simp [h])]

theorem response_of_cut {r : Reply} {fault : TransportFault} (hstatus : r.status.isSuccess = true)
    (h : receive r.fault .empty r.chunks = .error fault) :
    r.response = .error (.transport fault) := by
  rw [response, if_pos hstatus, h]

end Reply

namespace Response

theorem decode_cut {r : Response} (h : Document.maxSize < r.encode.size) :
    decode ContentType.xml (r.encode.extract 0 (Document.maxSize + 1)) = .error .truncated := by
  have hcut : Document.SelfDelimiting (decode ContentType.xml) r.encode :=
    Document.selfDelimiting_text r.holds "Response" ContentType.accepted_xml _
  rcases Nat.lt_or_ge (Document.maxSize + 1) r.encode.size with hlt | hge
  · exact hcut.cutLong _ hlt (Nat.lt_succ_self _)
  · rw [Document.extract_of_le hge]
    exact hcut.long h

variable {r : Response} {chunks : ByteArray → List ByteArray} {rest : ByteArray}

theorem reply_of_long {fault : Option TransportFault}
    (hrest : r.encode = (chunks r.encode).foldl (· ++ ·) ByteArray.empty ++ rest)
    (hlong : Document.maxSize < ((chunks r.encode).foldl (· ++ ·) ByteArray.empty).size) :
    ((HttpAnswer.document r).reply chunks fault).response = .error (.document .truncated) := by
  have hsize : Document.maxSize < r.encode.size := by
    rw [hrest, ByteArray.size_append]
    omega
  have hreceive : Reply.receive fault .empty (chunks r.encode) =
      .ok (r.encode.extract 0 (Document.maxSize + 1)) := by
    have hkept : r.encode.extract 0 (Document.maxSize + 1) =
        ((chunks r.encode).foldl (· ++ ·) ByteArray.empty).extract 0 (Document.maxSize + 1) :=
      (congrArg (·.extract 0 (Document.maxSize + 1)) hrest).trans
        (Document.extract_append_of_le (by omega))
    rw [Reply.receive_eq _ (Nat.zero_le _), if_neg (by omega), hkept]
  have hcut : decode (ContentType.ofHeader (some ContentType.xml.toUTF8))
      (r.encode.extract 0 (Document.maxSize + 1)) = .error .truncated := by
    rw [ContentType.ofHeader_xml, decode_cut hsize]
  refine (Reply.response_of_receive rfl hreceive).trans ?_
  change (decode (ContentType.ofHeader (some ContentType.xml.toUTF8)) _).mapError _ = _
  rw [hcut]
  rfl

theorem reply_of_broken {fault : TransportFault}
    (hfits : ((chunks r.encode).foldl (· ++ ·) ByteArray.empty).size ≤ Document.maxSize) :
    ((HttpAnswer.document r).reply chunks (some fault)).response = .error (.transport fault) := by
  have hreceive : Reply.receive (some fault) .empty (chunks r.encode) = .error fault := by
    rw [Reply.receive_eq _ (Nat.zero_le _), if_pos hfits]
  exact Reply.response_of_cut rfl hreceive

end Response

namespace Course

variable {url : Url} {c : Course} {answer : HttpAnswer} {response : Response}

theorem outcome_of_answered (c : Course) (url : Url) (answer : HttpAnswer) (h : c.IsAnswered) :
    ∃ chunking : Chunking,
      url.outcome (c.outcome answer) = (answer.reply chunking.cut none).response := by
  obtain ⟨fate, overruled, begins, failure⟩ := c
  obtain ⟨rfl, hfate⟩ := h
  cases fate with
  | answered chunking => exact ⟨chunking, rfl⟩
  | _ => cases hfate

theorem response_of_brokenOff {chunks : ByteArray → List ByteArray} {fault : TransportFault}
    (hbegins : ∀ body, ∃ rest, body = (chunks body).foldl (· ++ ·) ByteArray.empty ++ rest)
    (hanswer : answer.status.isSuccess = false ∨ ∃ r, answer = .document r) :
    (answer.reply chunks (some fault)).response ≠ .ok response := by
  intro hok
  rcases hanswer with hstatus | ⟨r, rfl⟩
  · cases (Reply.response_of_failure hstatus).symm.trans hok
  · obtain ⟨rest, hrest⟩ := hbegins r.encode
    rcases Nat.lt_or_ge Document.maxSize
      ((chunks r.encode).foldl (· ++ ·) ByteArray.empty).size with hlong | hfits
    · cases (Response.reply_of_long hrest hlong).symm.trans hok
    · cases (Response.reply_of_broken hfits).symm.trans hok

theorem isAnswered_of_ok (hanswer : answer.status.isSuccess = false ∨ ∃ r, answer = .document r)
    (h : url.outcome (c.outcome answer) = .ok response) : c.IsAnswered := by
  obtain ⟨fate, overruled, begins, failure⟩ := c
  cases overruled with
  | some status =>
    have hfailed : ({ status } : Reply).response = .error (.http status) :=
      Reply.response_of_failure (failure status rfl)
    cases hfailed.symm.trans h
  | none =>
    cases fate with
    | lost cause => cases h
    | unanswered cause => cases h
    | refused status hstatus =>
      have hfailed : ({ status } : Reply).response = .error (.http status) :=
        Reply.response_of_failure hstatus
      cases hfailed.symm.trans h
    | brokenOff chunks timedOut => exact absurd h (response_of_brokenOff begins hanswer)
    | answered chunking => exact ⟨rfl, trivial⟩

end Course

end UpdateProtocol
