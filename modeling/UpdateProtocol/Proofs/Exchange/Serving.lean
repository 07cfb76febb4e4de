import UpdateProtocol.Proofs.Exchange.Dialogue
import UpdateProtocol.Proofs.Exchange.Wire

namespace UpdateProtocol.Endpoint

variable {σ : Type} {u : Updater (StateM σ)} {r : HttpRequest} {s : σ}

theorem serve_of_unposted {m : Type → Type} [Monad m] (u : Updater m) (hpath : r.path ∈ routes)
    (hmethod : r.method ≠ "POST") : serve u r = pure (.methodNotAllowed "POST") := by
  rw [serve, if_pos hpath, handle, if_pos hmethod]

def admitted (r : HttpRequest) : Option Request :=
  if r.path ∈ routes ∧ r.method = "POST" ∧ r.body.size ≤ maxBody then
    (Request.decode (ContentType.ofHeader r.contentType) r.body).toOption
  else none

end UpdateProtocol.Endpoint
