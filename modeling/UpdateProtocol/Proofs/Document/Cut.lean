import UpdateProtocol.Proofs.Document.RoundTrip
import UpdateProtocol.Proofs.Markup.Cut

namespace UpdateProtocol

open UpdateProtocol.Markup

theorem Text.ofUtf8_of_valid {bytes : ByteArray} (h : bytes.IsValidUTF8) :
    ofUtf8 bytes = .ok (String.fromUTF8 bytes h) := by
  rw [ofUtf8_eq_ok_iff, String.fromUTF8?, dif_pos h]

theorem Text.ofUtf8_of_invalid {bytes : ByteArray} (h : ¬ bytes.IsValidUTF8) :
    ∃ fault, ofUtf8 bytes = .error fault := by
  cases hs : ofUtf8 bytes with
  | error fault => exact ⟨fault, rfl⟩
  | ok s =>
    rw [ofUtf8_eq_ok_iff, String.fromUTF8?, dif_neg h] at hs
    cases hs

theorem Text.utf8Encode_toList_fromUTF8 {bytes : ByteArray} (h : bytes.IsValidUTF8) :
    (String.fromUTF8 bytes h).toList.utf8Encode = bytes := by
  rw [String.utf8Encode_toList]
  rfl

theorem Text.utf8Encode_toList (s : String) : s.toList.utf8Encode = s.toUTF8 := by
  rw [String.utf8Encode_toList, String.toUTF8_eq_toByteArray]

theorem Text.prefix_of_cut {s : String} {n : Nat} (hn : n < s.toUTF8.size)
    (h : (s.toUTF8.extract 0 n).IsValidUTF8) :
    (String.fromUTF8 _ h).toList <+: s.toList ∧ (String.fromUTF8 _ h).toList ≠ s.toList := by
  constructor
  · refine List.isPrefix_of_utf8Encode_append_eq_utf8Encode
      (s.toUTF8.extract n s.toUTF8.size) ?_
    rw [utf8Encode_toList_fromUTF8, utf8Encode_toList,
      ← ByteArray.extract_eq_extract_append_extract n (Nat.zero_le _) hn.le,
      ByteArray.extract_zero_size]
  · intro he
    have hsize := congrArg (fun l => l.utf8Encode.size) he
    rw [utf8Encode_toList_fromUTF8, utf8Encode_toList, ByteArray.size_extract] at hsize
    omega

theorem Text.exists_tail {s : String} {more : ByteArray} (h : (s.toUTF8 ++ more).IsValidUTF8) :
    ∃ tail, (String.fromUTF8 _ h).toList = s.toList ++ tail := by
  have hstart : s.toList <+: (String.fromUTF8 _ h).toList := by
    refine List.isPrefix_of_utf8Encode_append_eq_utf8Encode more ?_
    rw [utf8Encode_toList_fromUTF8, utf8Encode_toList]
  obtain ⟨tail, htail⟩ := hstart
  exact ⟨tail, htail.symm⟩

namespace Document

/-- A body that ends where its document ends: cut anywhere before, it is refused, and anything may
follow it that is text as far as it is looked at. -/
structure SelfDelimiting {α : Type} (decode : ByteArray → Except DocumentFault α)
    (body : ByteArray) : Prop where
  none : decode (body.extract 0 0) = .error .empty
  cut : ∀ n, 0 < n → n < body.size → n ≤ maxSize →
    ∃ cause, decode (body.extract 0 n) = .error (.malformed cause)
  cutLong : ∀ n, n < body.size → maxSize < n → decode (body.extract 0 n) = .error .truncated
  long : maxSize < body.size → decode body = .error .truncated
  tail : body.size ≤ maxSize → ∀ more,
    ((body ++ more).extract 0 (min (body ++ more).size maxSize)).IsValidUTF8 →
      decode (body ++ more) = decode body
  tailNoText : body.size ≤ maxSize → ∀ more,
    ¬ ((body ++ more).extract 0 (min (body ++ more).size maxSize)).IsValidUTF8 →
      ((body ++ more).size ≤ maxSize →
          ∃ cause, decode (body ++ more) = .error (.malformed cause)) ∧
        (maxSize < (body ++ more).size → decode (body ++ more) = .error .truncated)

theorem extract_min (body : ByteArray) :
    body.extract 0 (min body.size maxSize) = body.extract 0 maxSize := by
  rw [ByteArray.ext_iff, ByteArray.data_extract, ByteArray.data_extract]
  refine Array.extract_eq_extract_right.2 ?_
  change min _ body.size - 0 = min _ body.size - 0
  omega

theorem text_head (root : Element) : ∃ bytes, (text root).toUTF8.data.toList = 0x3C :: bytes := by
  obtain ⟨front, hfront⟩ : ∃ front, (text root).toList = '<' :: front := by
    rw [text, String.toList_append]
    exact ⟨_, rfl⟩
  refine ⟨front.utf8Encode.data.toList, ?_⟩
  rw [String.toUTF8_eq_toByteArray, ← String.utf8Encode_toList, hfront, List.utf8Encode_cons,
    ByteArray.data_append, Array.toList_append, List.utf8Encode_singleton, List.data_toByteArray]
  rfl

theorem not_blank_of_head {body : ByteArray} {bytes : List UInt8}
    (h : body.data.toList = 0x3C :: bytes) {n : Nat} (hn : 0 < n) :
    (body.extract 0 n).data.all isBlankByte = false := by
  obtain ⟨n, rfl⟩ := Nat.exists_eq_succ_of_ne_zero (Nat.pos_iff_ne_zero.1 hn)
  rw [ByteArray.data_extract, ← Array.all_toList, Array.toList_extract, h]
  rfl

section Read

variable {σ : Type} {sch : Schema σ} {root : Element} {v : σ}

theorem readMarkup_of_invalid {bytes : ByteArray} (h : ¬ bytes.IsValidUTF8) (sch : Schema σ)
    (item : String) : ∃ cause, readMarkup sch item bytes = .error cause := by
  obtain ⟨fault, hfault⟩ := Text.ofUtf8_of_invalid h
  exact ⟨.encoding fault, by rw [readMarkup, hfault]⟩

theorem scan_declaration :
    declaration.toList.foldl Scanner.step {} = ⟨.text ['\n'], [], [], []⟩ := by
  rfl

theorem text_toList (root : Element) :
    (text root).toList =
      declaration.toList ++ (Content.element root.tag root.children .broken).write := by
  rw [text, String.toList_append, String.toList_ofList]

theorem readMarkup_of_cut (h : root.Holds sch v) (item : String) {n : Nat}
    (hn : n < (text root).toUTF8.size) :
    ∃ cause, readMarkup sch item ((text root).toUTF8.extract 0 n) = .error cause := by
  by_cases hvalid : ((text root).toUTF8.extract 0 n).IsValidUTF8
  · obtain ⟨hstart, hne⟩ := Text.prefix_of_cut hn hvalid
    rw [text_toList] at hstart hne
    rw [readMarkup, Text.ofUtf8_of_valid hvalid]
    exact Schema.readDocument_of_cut scan_declaration (List.cons_ne_nil '\n' []) (by rfl) h.tag
      h.children hstart hne
  · exact readMarkup_of_invalid hvalid sch item

theorem readMarkup_of_tail (h : root.Holds sch v) (item : String) {more : ByteArray}
    (hvalid : ((text root).toUTF8 ++ more).IsValidUTF8) :
    readMarkup sch item ((text root).toUTF8 ++ more) = .ok v := by
  obtain ⟨tail, htail⟩ := Text.exists_tail hvalid
  obtain ⟨rest, hparse⟩ := Content.parse_document_append scan_declaration (List.cons_ne_nil '\n' [])
    (by rfl) h.tag h.children tail
  rw [readMarkup, Text.ofUtf8_of_valid hvalid]
  change sch.readDocument item (Content.parse (String.fromUTF8 _ hvalid).toList) = .ok v
  rw [htail, text_toList]
  exact (congrArg (sch.readDocument item) hparse).trans h.read

variable {item contentType : String}

theorem read_of_error (hct : ContentType.accepted contentType = true) {body : ByteArray}
    (hblank : (body.extract 0 maxSize).data.all isBlankByte = false)
    (h : ∃ cause, readMarkup sch item (body.extract 0 maxSize) = .error cause) :
    (body.size ≤ maxSize → ∃ cause, read sch item contentType body = .error (.malformed cause)) ∧
      (maxSize < body.size → read sch item contentType body = .error .truncated) := by
  obtain ⟨cause, hcause⟩ := h
  constructor
  · intro hsize
    refine ⟨cause, ?_⟩
    simp only [read, hct, hblank, hcause, if_neg (Nat.not_lt.2 hsize)]
    rfl
  · intro hsize
    simp only [read, hct, hblank, hcause, if_pos hsize]
    rfl

theorem read_of_ok (hct : ContentType.accepted contentType = true) {body : ByteArray}
    (hblank : (body.extract 0 maxSize).data.all isBlankByte = false)
    (h : readMarkup sch item (body.extract 0 maxSize) = .ok v) :
    read sch item contentType body = .ok v := by
  simp only [read, hct, hblank, h]
  rfl

theorem read_of_empty (hct : ContentType.accepted contentType = true) :
    read sch item contentType .empty = .error .empty := by
  have hempty : ByteArray.empty.extract 0 maxSize = .empty := extract_of_fits (Nat.zero_le _)
  have hblank : ByteArray.empty.data.all isBlankByte = true := Array.all_empty
  simp only [read, hct, hempty, hblank]
  rfl

theorem read_of_cut (h : root.Holds sch v) (hct : ContentType.accepted contentType = true)
    {n : Nat} (hn : 0 < n) (hlt : n < (text root).toUTF8.size) :
    (n ≤ maxSize → ∃ cause, read sch item contentType ((text root).toUTF8.extract 0 n) =
        .error (.malformed cause)) ∧
      (maxSize < n → read sch item contentType ((text root).toUTF8.extract 0 n) =
        .error .truncated) := by
  obtain ⟨bytes, hbytes⟩ := text_head root
  have hpos : 0 < maxSize := by decide
  have hsize : ((text root).toUTF8.extract 0 n).size = n := by
    rw [ByteArray.size_extract]
    omega
  have hblank : (((text root).toUTF8.extract 0 n).extract 0 maxSize).data.all isBlankByte =
      false := by
    rw [ByteArray.extract_extract]
    exact not_blank_of_head hbytes (by omega)
  have hcut : ∃ cause, readMarkup sch item
      (((text root).toUTF8.extract 0 n).extract 0 maxSize) = .error cause := by
    rw [ByteArray.extract_extract]
    exact readMarkup_of_cut h item (by omega)
  obtain ⟨hfits, hlong⟩ := read_of_error hct hblank hcut
  rw [hsize] at hfits hlong
  exact ⟨hfits, hlong⟩

theorem selfDelimiting_text {α : Type} (h : root.Holds sch v) (item : String)
    (hct : ContentType.accepted contentType = true) (next : σ → Except DocumentFault α) :
    SelfDelimiting (fun body => read sch item contentType body >>= next)
      (text root).toUTF8 := by
  obtain ⟨bytes, hbytes⟩ := text_head root
  have hpos : 0 < maxSize := by decide
  have hblank (more : ByteArray) :
      (((text root).toUTF8 ++ more).extract 0 maxSize).data.all isBlankByte = false :=
    not_blank_of_head
      (by rw [ByteArray.data_append, Array.toList_append, hbytes, List.cons_append]) hpos
  have herror {body : ByteArray} {fault : DocumentFault}
      (hread : read sch item contentType body = .error fault) :
      (read sch item contentType body >>= next) = .error fault := by
    rw [hread]
    rfl
  refine ⟨?none, ?cut, ?cutLong, ?long, ?tail, ?tailNoText⟩
  case none =>
    apply herror
    rw [ByteArray.extract_same]
    exact read_of_empty hct
  case cut =>
    intro n hn hlt hle
    obtain ⟨cause, hread⟩ := (read_of_cut h hct hn hlt).1 hle
    exact ⟨cause, herror hread⟩
  case cutLong =>
    intro n hlt hle
    exact herror ((read_of_cut h hct (hpos.trans hle) hlt).2 hle)
  case long =>
    intro hlong
    have hread := read_of_error hct (not_blank_of_head hbytes hpos)
      (readMarkup_of_cut h item hlong)
    exact herror (hread.2 hlong)
  case tail =>
    intro hsize more hvalid
    rw [extract_min, ByteArray.extract_append, extract_of_fits hsize] at hvalid
    have hread : read sch item contentType ((text root).toUTF8 ++ more) = .ok v := by
      refine read_of_ok hct (hblank more) ?_
      rw [ByteArray.extract_append, extract_of_fits hsize]
      exact readMarkup_of_tail h item hvalid
    rw [hread, read_text h item hct hsize]
  case tailNoText =>
    intro hsize more hinvalid
    rw [extract_min] at hinvalid
    obtain ⟨hfits, hlong⟩ := read_of_error hct (hblank more)
      (readMarkup_of_invalid hinvalid sch item)
    refine ⟨fun hle => ?_, fun hlt => herror (hlong hlt)⟩
    obtain ⟨cause, hread⟩ := hfits hle
    exact ⟨cause, herror hread⟩

end Read

theorem selfDelimiting_encode {contentType : String}
    (haccepted : ContentType.accepted contentType = true) :
    (∀ r : Request, SelfDelimiting (Request.decode contentType) r.encode) ∧
      ∀ r : Response, SelfDelimiting (Response.decode contentType) r.encode := by
  constructor
  · intro r
    exact selfDelimiting_text r.holds "Request" haccepted _
  · intro r
    exact selfDelimiting_text r.holds "Response" haccepted _

theorem selfDelimiting_encode_awkward :
    ContentType.accepted "text/xml" = true ∧
      (∃ cause, Request.decode "text/xml" (Request.awkward.encode.extract 0 100) =
        .error (.malformed cause)) ∧
      Request.decode "text/xml" (Request.awkward.encode ++ " <app>&".toUTF8) =
        Request.decode "text/xml" Request.awkward.encode := by
  have haccepted : ContentType.accepted "text/xml" = true := by decide +kernel
  have hrequest := (selfDelimiting_encode haccepted).1 Request.awkward
  have hfits : (Request.awkward.encode ++ " <app>&".toUTF8).size ≤ maxSize := by decide +kernel
  refine ⟨haccepted, ?_, ?_⟩
  · exact hrequest.cut 100 (by decide) (by decide +kernel) (by decide)
  · refine hrequest.tail (by decide +kernel) _ ?_
    rw [extract_min, extract_of_fits hfits]
    exact .append (String.isValidUTF8 _) (String.isValidUTF8 _)

end Document

end UpdateProtocol
