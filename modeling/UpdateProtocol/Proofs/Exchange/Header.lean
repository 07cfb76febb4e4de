import UpdateProtocol.Proofs.Document.ContentType
import UpdateProtocol.Proofs.Exchange.Sending
import UpdateProtocol.Proofs.Exchange.Serving
import UpdateProtocol.Proofs.Text.Utf8

namespace UpdateProtocol.ContentType

open UpdateProtocol.Text

def IsHeader (header : ByteArray) : Prop :=
  ∀ b ∈ header.data.toList, b = 0x09 ∨ (0x20 ≤ b ∧ b ≤ 0x7E) ∨ 0x80 ≤ b

def IsVisible (header : ByteArray) : Prop :=
  ∀ b ∈ header.data.toList, b = 0x09 ∨ (0x20 ≤ b ∧ b ≤ 0x7E)

def IsForm (header : ByteArray) : Prop :=
  ∃ type : String, type.toUTF8 = header ∧ IsAcceptable type.toList

variable {header : ByteArray} {value : String}

theorem all_isHeaderByte_iff : header.data.all isHeaderByte = true ↔ IsVisible header := by
  rw [Array.all_eq_true_iff_forall_mem, IsVisible]
  refine forall_congr' fun b => imp_congr Array.mem_toList_iff.symm ?_
  rw [isHeaderByte, Bool.or_eq_true, Bool.and_eq_true, decide_eq_true_iff, decide_eq_true_iff,
    decide_eq_true_iff, UInt8.lt_iff_toNat_lt, UInt8.le_iff_toNat_le (b := 0x7E)]
  exact or_congr_right (and_congr_right fun _ => Nat.lt_succ_iff)

theorem ofHeader_of_hidden (h : ¬IsVisible header) : ofHeader (some header) = "" := by
  rw [ofHeader, if_neg (mt all_isHeaderByte_iff.1 h)]

def emptyRequest : Request := { protocol := "3.0" }

theorem isForm_toUTF8 {type : String} : IsForm type.toUTF8 ↔ accepted type = true := by
  rw [accepted_iff]
  constructor
  · rintro ⟨other, hother, hacceptable⟩
    rwa [← String.toByteArray_inj.1 hother]
  · intro hacceptable
    exact ⟨type, rfl, hacceptable⟩

def accented : ByteArray := "text/plé".toUTF8

def askedApp : AppRequest := { id := "a", version := some "1" }

def askingRequest : Request := { emptyRequest with apps := [askedApp] }

def accentedPost : HttpRequest where
  target := "/"
  contentType := some accented
  body := askingRequest.encode

def plainResponse : Response := Response.new.addApp "a" .ok

def accentedReply : Reply where
  status := .ok
  contentType := some accented
  chunks := [plainResponse.encode]

theorem accented_read :
    IsHeader accented ∧ ¬IsForm accented ∧
      ((Endpoint.serve (Updater.stub (m := StateM Unit)).traced accentedPost).run []).run () =
        ((.document plainResponse, [.checkApp askedApp]), ()) ∧
      accentedReply.response = .ok plainResponse.canonical := by
  have hbytes : accented.data.toList.all
      (fun b => b = 0x09 ∨ (0x20 ≤ b ∧ b ≤ 0x7E) ∨ 0x80 ≤ b) = true := by decide +kernel
  have haccepted : accepted (ofHeader (some accented)) = true := by
    rw [ofHeader_of_hidden (mt all_isHeaderByte_iff.2 (by decide +kernel))]
    rfl
  have hasking : askingRequest.encode.size ≤ Document.maxSize := by decide +kernel
  have hplain : plainResponse.encode.size ≤ Document.maxSize := by decide +kernel
  have hpath : accentedPost.path ∈ Endpoint.routes :=
    (by decide : HttpRequest.path { target := "/" } ∈ Endpoint.routes)
  have hsize : accentedPost.body.size ≤ Endpoint.maxBody := Nat.le_trans hasking (by decide)
  have hdecode : Request.decode (ofHeader accentedPost.contentType) accentedPost.body =
      .ok askingRequest := Request.decode_encode rfl haccepted hasking
  have hbody : [plainResponse.encode].foldl (· ++ ·) ByteArray.empty = plainResponse.encode :=
    ByteArray.empty_append
  have hreceive : Reply.receive accentedReply.fault .empty accentedReply.chunks =
      .ok plainResponse.encode :=
    (Reply.receive_of_fits (le_of_eq_of_le (congrArg ByteArray.size hbody) hplain)).trans
      (congrArg Except.ok hbody)
  refine ⟨fun b hb => of_decide_eq_true (List.all_eq_true.1 hbytes b hb),
    mt isForm_toUTF8.1 (by decide), ?_, ?_⟩
  · have hrun : (((Updater.stub (m := StateM Unit)).traced.respond askingRequest).run []).run () =
        ((plainResponse, [.checkApp askedApp]), ()) := rfl
    rw [Endpoint.serve_of_decode _ hpath rfl hsize hdecode, StateT.run_map, StateT.run_map, hrun]
    rfl
  · rw [Reply.response_of_receive rfl hreceive]
    change (Response.decode (ofHeader (some accented)) _).mapError _ = _
    rw [Response.decode_written rfl haccepted hplain]
    rfl

end UpdateProtocol.ContentType
