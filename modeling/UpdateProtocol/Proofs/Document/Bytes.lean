import UpdateProtocol.Document
import UpdateProtocol.Proofs.Document.Layout
import UpdateProtocol.Proofs.Markup.Kept
import UpdateProtocol.Proofs.Text.Utf8

namespace UpdateProtocol

open UpdateProtocol.Markup

namespace Document

theorem extract_of_le {body : ByteArray} {n : Nat} (h : body.size ≤ n) :
    body.extract 0 n = body := by
  rw [ByteArray.ext_iff, ByteArray.data_extract]
  exact Array.extract_eq_self_of_le h

theorem extract_append_of_le {body more : ByteArray} {n : Nat} (h : n ≤ body.size) :
    (body ++ more).extract 0 n = body.extract 0 n := by
  rw [ByteArray.extract_append, Nat.zero_sub, Nat.sub_eq_zero_of_le h, ByteArray.extract_same,
    ByteArray.append_empty]

theorem extract_of_fits {body : ByteArray} (h : body.size ≤ maxSize) :
    body.extract 0 maxSize = body := extract_of_le h

theorem angle_mem_text (root : Element) : '<' ∈ (text root).toList := by
  rw [text, String.toList_append]
  exact List.mem_append_left _ (by decide)

theorem parse_text {root : Element} (ht : root.tag.IsWritten) (hc : root.children.IsWritten) :
    Content.parse (text root).toList = .element root.tag root.children .broken := by
  have hscan : declaration.toList.foldl Scanner.step {} = ⟨.text ['\n'], [], [], []⟩ := by rfl
  rw [text, String.toList_append, String.toList_ofList]
  exact parse_document hscan (List.cons_ne_nil '\n' []) (by rfl) ht hc

theorem not_blank_of_angle {s : String} (h : '<' ∈ s.toList) :
    s.toUTF8.data.all isBlankByte = false := by
  obtain ⟨front, back, hs⟩ := List.append_of_mem h
  have hangle : (String.utf8EncodeChar '<').all isBlankByte = false := by decide
  rw [String.toUTF8_eq_toByteArray, ← String.utf8Encode_toList, hs, List.utf8Encode_append,
    List.utf8Encode_cons, List.utf8Encode_singleton, ByteArray.data_append, ByteArray.data_append,
    Array.all_append, Array.all_append, List.data_toByteArray]
  simp only [List.all_toArray, hangle, Bool.false_and, Bool.and_false]

theorem read_toUTF8 {σ : Type} {sch : Schema σ} {item contentType : String}
    (hct : ContentType.accepted contentType = true) {s : String} (hangle : '<' ∈ s.toList)
    (hsize : s.toUTF8.size ≤ maxSize) {v : σ}
    (h : sch.readDocument item (Content.parse s.toList) = .ok v) :
    read sch item contentType s.toUTF8 = .ok v := by
  have hmarkup : readMarkup sch item s.toUTF8 = .ok v := by
    rw [readMarkup, Text.ofUtf8_toUTF8]
    exact h
  simp only [read, hct, extract_of_fits hsize, not_blank_of_angle hangle, hmarkup]
  rfl

theorem read_text {σ : Type} {sch : Schema σ} {root : Element} {v : σ} (h : root.Holds sch v)
    (item : String) {contentType : String} (hct : ContentType.accepted contentType = true)
    (hsize : (text root).toUTF8.size ≤ maxSize) :
    read sch item contentType (text root).toUTF8 = .ok v := by
  refine read_toUTF8 hct (angle_mem_text root) hsize ?_
  rw [parse_text h.tag h.children]
  exact h.read

theorem readMarkup_of_read {σ : Type} {sch : Schema σ} {item contentType : String}
    {body : ByteArray} {v : σ} (h : read sch item contentType body = .ok v) :
    readMarkup sch item (body.extract 0 maxSize) = .ok v := by
  simp only [read] at h
  split at h
  · cases h
  · split at h
    · cases h
    · cases hm : readMarkup sch item (body.extract 0 maxSize) with
      | error cause =>
        rw [hm] at h
        cases h
      | ok record =>
        rw [hm] at h
        cases h
        rfl

theorem read_keeps {σ : Type} {sch : Schema σ} {P : σ → Prop} (hk : sch.Keeps P) {item : String}
    {contentType : String} {body : ByteArray} {v : σ}
    (h : read sch item contentType body = .ok v) : P v := by
  have hm := readMarkup_of_read h
  rw [readMarkup] at hm
  split at hm
  · cases hm
  · exact Schema.readDocument_keeps hk hm

theorem checkProtocol_of_eq {version : String} (h : version = protocolVersion) :
    checkProtocol version = .ok () := by
  rw [checkProtocol, if_pos h]

end Document

end UpdateProtocol
