import UpdateProtocol.Proofs.Url.Host

namespace UpdateProtocol

open UpdateProtocol.Text

namespace Authority

variable {usual : Nat} {more : Bool} {s : List Char} {a : Authority}

structure IsNormal [Idna] (usual : Nat) (a : Authority) : Prop where
  user : IsEncoded escapedInUser a.user
  password : IsEncoded escapedInUser a.password
  host : a.host.IsNormal
  port : ∀ port ∈ a.port, port < 65536 ∧ port ≠ usual

def login (a : Authority) : List Char :=
  a.user ++ if a.password = [] then [] else ':' :: a.password

def address (a : Authority) : List Char :=
  a.host.text ++
    match a.port with
    | some port => ':' :: Nat.toDigits 10 port
    | none => []

theorem text_eq (a : Authority) :
    a.text = (if a.login = [] then [] else a.login ++ ['@']) ++ a.address := by
  rw [address, ← List.append_assoc]
  rfl

theorem splitLogin_append {login address : List Char} (h : '@' ∉ address) :
    splitLogin (login ++ '@' :: address) = (some login, address) := by
  have hsplit : splitFirst? '@' (login ++ '@' :: address).reverse =
      some (address.reverse, login.reverse) :=
    splitFirst?_eq_some_iff.2 ⟨by simp, by rwa [List.mem_reverse]⟩
  rw [splitLogin, splitLast?, hsplit]
  simp

theorem splitLogin_of_not_mem (h : '@' ∉ s) : splitLogin s = (none, s) := by
  rw [splitLogin, splitLast?, splitFirst?_eq_none_iff.2 (by rwa [List.mem_reverse])]
  rfl

section Normal

variable [Idna]

theorem IsNormal.mem_login (h : a.IsNormal usual) {c : Char} (hc : c ∈ a.login) :
    Host.isMark c = false := by
  have hmark : ∀ n < 0x80, escapedInUser (Char.ofNat n) = false →
      (!Host.isMark (Char.ofNat n)) = true := by decide +kernel
  rcases List.mem_append.1 hc with hc | hc
  · simpa using h.user.forall_mem (p := fun c => !Host.isMark c) hmark c hc
  · split at hc
    · cases hc
    · rcases List.mem_cons.1 hc with rfl | hc
      · rfl
      · simpa using h.password.forall_mem (p := fun c => !Host.isMark c) hmark c hc

theorem IsNormal.mem_address (h : a.IsNormal usual) {c : Char} (hc : c ∈ a.address) :
    Host.isMark c = false := by
  rcases List.mem_append.1 hc with hc | hc
  · exact h.host.isMark_text hc
  · split at hc
    · rcases List.mem_cons.1 hc with rfl | hc
      · rfl
      · exact Host.isMark_of_mem (by decide) (Host.mem_digits hc)
    · cases hc

theorem IsNormal.address_ne_nil (h : a.IsNormal usual) : a.address ≠ [] :=
  List.append_ne_nil_of_left_ne_nil h.host.text_ne_nil _

theorem IsNormal.mem_text (h : a.IsNormal usual) {c : Char} (hc : c ∈ a.text) :
    c = '@' ∨ Host.isMark c = false := by
  rw [text_eq] at hc
  rcases List.mem_append.1 hc with hc | hc
  · split at hc
    · cases hc
    · rcases List.mem_append.1 hc with hc | hc
      · exact .inr (h.mem_login hc)
      · exact .inl (List.mem_singleton.1 hc)
  · exact .inr (h.mem_address hc)

theorem IsNormal.text_ne_nil (h : a.IsNormal usual) : a.text ≠ [] := by
  rw [text_eq]
  exact List.append_ne_nil_of_right_ne_nil _ h.address_ne_nil

theorem IsNormal.splitLogin_text (h : a.IsNormal usual) : splitLogin a.text =
    (if a.login = [] then none else some a.login, a.address) := by
  have hat : '@' ∉ a.address := fun hmem => absurd (h.mem_address hmem) (by decide)
  rw [text_eq]
  split
  · exact splitLogin_of_not_mem hat
  · rw [List.append_assoc, List.singleton_append, splitLogin_append hat]

theorem IsNormal.splitPassword_login (h : a.IsNormal usual) :
    splitPassword a.login = (a.user, a.password) := by
  have hcolon : ':' ∉ a.user := fun hmem => absurd (h.user _ hmem).2 (by decide)
  rw [login]
  split
  next hnone =>
    rw [List.append_nil, splitPassword, splitFirst?_eq_none_iff.2 hcolon, hnone]
  next => rw [splitPassword, splitFirst?_eq_some_iff.2 ⟨rfl, hcolon⟩]

theorem IsNormal.splitPort_address (h : a.IsNormal usual) :
    splitPort false a.address = (a.host.text, a.port.map (Nat.toDigits 10)) := by
  rw [address, splitPort_text h.host]
  cases a.port with
  | none => exact congrArg (·, none) (List.append_nil _)
  | some port => exact congrArg (·, some _) (List.append_nil _)

theorem IsNormal.read_text (h : a.IsNormal usual) (more : Bool) :
    read true more (some usual) a.text = .ok a := by
  -- no login and an empty one are read alike
  have hlogin : (if a.login = [] then none else some a.login).getD [] = a.login := by
    split
    next hnone => exact hnone.symm
    next => rfl
  have hhost : ¬(a.host = .name [] ∧ (a.port.map (Nat.toDigits 10)).isSome = true) :=
    fun hempty => h.host.ne_empty hempty.1
  have hnobody : ¬(a.host = .name [] ∧ (a.user ≠ [] ∨ a.password ≠ [])) :=
    fun hempty => h.host.ne_empty hempty.1
  have hsome : ¬((if a.login = [] then none else some a.login) = some [] ∧ a.address = [] ∧
      more = true ∨ true = true ∧ a.host.text = []) := by
    simp [h.address_ne_nil, h.host.text_ne_nil]
  rw [read, h.splitLogin_text]
  dsimp only
  rw [hlogin, h.splitPassword_login, h.splitPort_address]
  dsimp only
  rw [if_neg hsome, if_pos rfl, h.host.read_text]
  have hport : readAnyPort (some usual) (a.port.map (Nat.toDigits 10)) = .ok a.port := by
    cases hport : a.port with
    | none => rfl
    | some port =>
      obtain ⟨hfits, hother⟩ := h.port port hport
      exact (readPort_digits hfits (some usual)).trans
        (congrArg Except.ok (if_neg (by simpa using hother)))
  simp only [bind, Except.bind, if_neg hhost, hport, if_neg hnobody,
    percentEncode_of_isEncoded h.user, percentEncode_of_isEncoded h.password]
  rfl

end Normal

end Authority

end UpdateProtocol
