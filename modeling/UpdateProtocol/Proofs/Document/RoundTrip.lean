import UpdateProtocol.Proofs.Document.Bytes
import UpdateProtocol.Proofs.Document.Request
import UpdateProtocol.Proofs.Document.Response

namespace UpdateProtocol

namespace Request

theorem decode_of_read {contentType : String} {body : ByteArray} {r : Request}
    (hread : Document.read schema "Request" contentType body = .ok r)
    (hprotocol : r.protocol = protocolVersion) : decode contentType body = .ok r := by
  rw [decode, hread]
  change (Document.checkProtocol r.protocol).bind _ = _
  rw [Document.checkProtocol_of_eq hprotocol]
  rfl

theorem decode_encode {r : Request} (hprotocol : r.protocol = "3.0") {contentType : String}
    (haccepted : ContentType.accepted contentType = true)
    (hsize : r.encode.size ≤ Document.maxSize) : decode contentType r.encode = .ok r :=
  decode_of_read (Document.read_text r.holds "Request" haccepted hsize) hprotocol

def awkward : Request where
  protocol := "3.0"
  version := some ""
  isMachine := true
  userId := some "\"<&>'\t\n"
  os := some {}
  apps :=
    [{ id := "", ping := some {}, updateCheck := some {}, events := [.complete, .installed] },
      { id := "]]>", deltaOk := true, ping := some { active := some (-1) } }]

theorem decode_encode_awkward :
    awkward.protocol = "3.0" ∧ ContentType.accepted " TEXT/xml " = true ∧
      awkward.encode.size ≤ Document.maxSize ∧
      decode " TEXT/xml " awkward.encode = .ok awkward := by
  have haccepted : ContentType.accepted " TEXT/xml " = true := by decide +kernel
  have hsize : awkward.encode.size ≤ Document.maxSize := by decide +kernel
  exact ⟨rfl, haccepted, hsize, decode_encode rfl haccepted hsize⟩

end Request

namespace Response

theorem decode_of_read {contentType : String} {body : ByteArray} {r : Response}
    (hread : Document.read schema "Response" contentType body = .ok r)
    (hprotocol : r.protocol = protocolVersion) : decode contentType body = .ok r := by
  rw [decode, hread]
  change (Document.checkProtocol r.protocol).bind _ = _
  rw [Document.checkProtocol_of_eq hprotocol]
  rfl

theorem decode_written {r : Response} (hprotocol : r.protocol = protocolVersion)
    {contentType : String} (haccepted : ContentType.accepted contentType = true)
    (hsize : r.encode.size ≤ Document.maxSize) :
    decode contentType r.encode = .ok r.canonical :=
  decode_of_read (Document.read_text r.holds "Response" haccepted hsize) hprotocol

theorem read_of_decode {contentType : String} {body : ByteArray} {r : Response}
    (h : decode contentType body = .ok r) :
    Document.read schema "Response" contentType body = .ok r ∧ r.protocol = protocolVersion := by
  obtain ⟨v, hread, h⟩ := ok_of_bind h
  obtain ⟨_, hprotocol, h⟩ := ok_of_bind h
  cases h
  rw [Document.checkProtocol] at hprotocol
  split at hprotocol
  · exact ⟨hread, ‹_›⟩
  · cases hprotocol

theorem isCanonical_of_decode {contentType : String} {body : ByteArray} {r : Response}
    (h : decode contentType body = .ok r) : r.IsCanonical :=
  Document.read_keeps schema_keeps (read_of_decode h).1

theorem decode_recode {contentType : String} {body : ByteArray} {r : Response}
    (h : decode contentType body = .ok r) {other : String}
    (haccepted : ContentType.accepted other = true) (hsize : r.encode.size ≤ Document.maxSize) :
    decode other r.encode = .ok r := by
  have hcanonical : r.canonical = r := canonical_eq_self_iff.2 (isCanonical_of_decode h)
  rw [decode_written (read_of_decode h).2 haccepted hsize, hcanonical]

theorem recode_idempotent :
    (∀ (r : Response) (contentType : String), r.protocol = "3.0" →
      ContentType.accepted contentType = true → r.encode.size ≤ Document.maxSize →
        decode contentType r.encode = .ok r.canonical) ∧
    ∀ (contentType : String) (body : ByteArray) (r : Response),
      decode contentType body = .ok r →
        r.canonical = r ∧ r.protocol = "3.0" ∧
          ∀ other : String, ContentType.accepted other = true →
            r.encode.size ≤ Document.maxSize →
              decode other r.encode = .ok r ∧
                (decode other r.encode).map encode = .ok r.encode := by
  constructor
  · intro r contentType hprotocol haccepted hsize
    exact decode_written hprotocol haccepted hsize
  · intro contentType body r h
    refine ⟨canonical_eq_self_iff.2 (isCanonical_of_decode h), (read_of_decode h).2, ?_⟩
    intro other haccepted hsize
    have hagain := decode_recode h haccepted hsize
    refine ⟨hagain, ?_⟩
    rw [hagain]
    rfl

def awkward : Response where
  protocol := "3.0"
  server := some ""
  dayStart := some { elapsedSeconds := 18446744073709551615 }
  apps :=
    [{ id := "\"<&>"
       status := .other "ok"
       updateCheck := some
         { status := .other "noupdate"
           manifest := some { version := "1\n2", packages := [{ name := "", required := true }] } }
       events := [⟨""⟩, .ok] }]

theorem recode_idempotent_awkward :
    (awkward.encode.size ≤ Document.maxSize ∧
      decode "" awkward.encode = .ok awkward.canonical ∧ awkward.canonical ≠ awkward) ∧
    ∃ r : Response,
      decode "text/xml" "<r protocol='3.0'><app appid='&#x31;' status='ok'/></r>".toUTF8 = .ok r ∧
        r.canonical = r ∧ r.encode.size ≤ Document.maxSize ∧
          decode "application/xml" r.encode = .ok r := by
  have hsize : awkward.encode.size ≤ Document.maxSize := by decide +kernel
  have hread :
      decode "text/xml" "<r protocol='3.0'><app appid='&#x31;' status='ok'/></r>".toUTF8 =
        .ok { protocol := "3.0", apps := [{ id := "1", status := .ok }] } := by decide +kernel
  obtain ⟨hcanonical, -, hagain⟩ := recode_idempotent.2 _ _ _ hread
  refine ⟨⟨hsize, recode_idempotent.1 _ _ rfl (by decide +kernel) hsize, by decide⟩, _, hread,
    hcanonical, by decide +kernel, ?_⟩
  exact (hagain "application/xml" (by decide +kernel) (by decide +kernel)).1

end Response

end UpdateProtocol
