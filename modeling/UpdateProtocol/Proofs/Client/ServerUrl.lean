import UpdateProtocol.Proofs.Client.History
import UpdateProtocol.Proofs.Url.Normal

namespace UpdateProtocol

namespace ServerUrl

variable {text kept : String} {url : Url}

section Read

variable [Idna]

end Read

end ServerUrl

namespace Client

section Life

variable [Idna] {c : Client}

end Life

section Moves

local instance bookshop : Idna where
  encode? s :=
    if s = "bücher.example".toList ∨ s = "xn--bcher-kva.example".toList then
      some "xn--bcher-kva.example".toList
    else none

local instance lawfulIdna_bookshop : LawfulIdna where
  encode?_of_encode? {s t} h := by
    change (if _ then some "xn--bcher-kva.example".toList else none) = some t at h
    split at h
    · cases h
      decide +kernel
    · cases h

def moves : List Operation :=
  [.setServerUrl "HTTPS://Ann:p%40@[::1]:443?a b#c", .setServerUrl "ftp://localhost/",
    .setServerUrl "http://bücher.example/"]

end Moves

end Client

end UpdateProtocol
