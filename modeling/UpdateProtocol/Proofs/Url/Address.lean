import UpdateProtocol.Proofs.Markup.Value
import UpdateProtocol.Proofs.Url.Appended

namespace UpdateProtocol

open UpdateProtocol.Text

namespace Host

def octet (address k : Nat) : Nat := address / Nat.pow 256 k % 256

variable {address : Nat}

theorem foldl_digitValue {s : List Char} (h : ∀ c ∈ s, c.isDigit = true) (n : Nat) :
    s.foldl (fun n c => n * 10 + (digitValue? 10 c).getD 0) n = Nat.ofDigitChars 10 s n := by
  induction s generalizing n with
  | nil => rfl
  | cons c s ih =>
    obtain ⟨hc, hs⟩ := List.forall_mem_cons.1 h
    rw [List.foldl_cons, Markup.digitValue?_of_isDigit hc, ih hs, Nat.ofDigitChars_cons,
      Nat.mul_comm]
    rfl

theorem numberOf_digits (n : Nat) : numberOf 10 (Nat.toDigits 10 n) = n := by
  rw [numberOf, foldl_digitValue fun c hc => Markup.isDigit_of_mem_digits hc,
    Nat.ofDigitChars_ten_toDigits]

theorem octet_lt (address k : Nat) : octet address k < 256 := Nat.mod_lt _ (by decide)

theorem part?_digits {n : Nat} (h : n < 256) : part? (Nat.toDigits 10 n) = some n := by
  have hall : ∀ n < 256, part? (Nat.toDigits 10 n) = some n := by decide +kernel
  exact hall n h

theorem mem_digits {n : Nat} {c : Char} (h : c ∈ Nat.toDigits 10 n) :
    c ∈ "0123456789".toList := by
  have hall : ∀ k < 10, Char.ofNat (48 + k) ∈ "0123456789".toList := by decide
  have hdigit : 48 ≤ c.toNat ∧ c.toNat ≤ 57 :=
    Char.isDigit_iff_toNat.1 (Markup.isDigit_of_mem_digits h)
  have hmem := hall (c.toNat - 48) (by omega)
  rwa [Nat.add_sub_cancel' (by omega), Char.ofNat_toNat] at hmem

theorem octets_eq (h : address < 2 ^ 32) :
    ((octet address 3 * 256 + octet address 2) * 256 + octet address 1) * 256 + octet address 0 =
      address := by
  have hthree : Nat.pow 256 3 = 16777216 := rfl
  have htwo : Nat.pow 256 2 = 65536 := rfl
  have hone : Nat.pow 256 1 = 256 := rfl
  have hzero : Nat.pow 256 0 = 1 := rfl
  rw [octet, octet, octet, octet, hthree, htwo, hone, hzero]
  omega

def octetDigits (address k : Nat) : List Char := Nat.toDigits 10 (octet address k)

theorem ipv4Text_eq (address : Nat) : ipv4Text address = octetDigits address 3 ++
    [octetDigits address 2, octetDigits address 1, octetDigits address 0].flatMap ('.' :: ·) := by
  simp [ipv4Text, octetDigits, octet]

theorem mem_ipv4Text {c : Char} (h : c ∈ ipv4Text address) : c ∈ ".0123456789".toList := by
  have hdigit {k : Nat} (hc : c ∈ octetDigits address k) : c ∈ ".0123456789".toList :=
    List.mem_cons_of_mem '.' (mem_digits hc)
  rw [ipv4Text_eq] at h
  simp only [List.mem_append, List.mem_flatMap, List.mem_cons, List.not_mem_nil, or_false,
    exists_eq_or_imp, exists_eq_left] at h
  rcases h with h | (rfl | h) | (rfl | h) | rfl | h
  · exact hdigit h
  · exact List.mem_cons_self
  · exact hdigit h
  · exact List.mem_cons_self
  · exact hdigit h
  · exact List.mem_cons_self
  · exact hdigit h

theorem parts_ipv4Text (address : Nat) :
    parts (· = '.') (ipv4Text address) = [octetDigits address 3, octetDigits address 2,
      octetDigits address 1, octetDigits address 0] := by
  have hdot (k : Nat) : '.' ∉ octetDigits address k := fun h =>
    absurd (mem_digits h) (by decide)
  have hmore : ∀ digits ∈ [octetDigits address 2, octetDigits address 1, octetDigits address 0],
      '.' ∉ digits := by
    simp [hdot]
  rw [ipv4Text_eq, parts_join (hdot 3) hmore]

theorem labels_ipv4Text (address : Nat) :
    labels (ipv4Text address) = [octetDigits address 3, octetDigits address 2,
      octetDigits address 1, octetDigits address 0] := by
  rw [labels, parts_ipv4Text]
  cases hlast : octetDigits address 0 with
  | nil => exact absurd hlast Nat.toDigits_ne_nil
  | cons c rest => rfl

theorem readIpv4_ipv4Text (h : address < 2 ^ 32) : readIpv4 (ipv4Text address) = .ok address := by
  have hpart (k : Nat) : part? (octetDigits address k) = some (octet address k) :=
    part?_digits (octet_lt address k)
  have hnumbers : (labels (ipv4Text address)).mapM part? =
      some [octet address 3, octet address 2, octet address 1, octet address 0] := by
    simp [labels_ipv4Text, hpart]
  have hthree := octet_lt address 3
  have htwo := octet_lt address 2
  have hone := octet_lt address 1
  have hzero := octet_lt address 0
  have hsum := octets_eq h
  rw [readIpv4, hnumbers]
  generalize octet address 3 = o₃, octet address 2 = o₂, octet address 1 = o₁,
    octet address 0 = o₀ at *
  have hfits : ¬(3 < [o₃, o₂, o₁].length ∨ Nat.pow 256 1 ≤ o₀ ∨
      [o₃, o₂, o₁].any (255 < ·) = true) := by
    simp
    omega
  refine (if_neg hfits).trans (congrArg Except.ok ?_)
  simpa using hsum

theorem endsInNumber_ipv4Text (address : Nat) : endsInNumber (ipv4Text address) = true := by
  have hlast : (part? (octetDigits address 0)).isSome = true := by
    rw [octetDigits, part?_digits (octet_lt address 0), Option.isSome_some]
  have hlabel : [octetDigits address 3, octetDigits address 2, octetDigits address 1,
      octetDigits address 0].getLast? = some (octetDigits address 0) := rfl
  rw [endsInNumber, labels_ipv4Text, hlabel]
  dsimp only
  rw [hlast, Bool.or_true]

theorem ipv4Text_ne_nil : ipv4Text address ≠ [] := by
  rw [ipv4Text_eq]
  simp

theorem isEncodedLabel_digits (n : Nat) : isEncodedLabel (Nat.toDigits 10 n) = false := by
  have hall : "0123456789".toList.all (fun c => 'x' != c.toLower) = true := by decide
  cases h : Nat.toDigits 10 n with
  | nil => exact absurd h Nat.toDigits_ne_nil
  | cons c rest =>
    have hc : c ∈ Nat.toDigits 10 n := h ▸ List.mem_cons_self
    have hx : ('x' == c.toLower) = false := by
      simpa using List.all_eq_true.1 hall c (mem_digits hc)
    rw [isEncodedLabel, List.map_cons]
    change ('x' == c.toLower && _) = false
    rw [hx, Bool.false_and]

theorem isPlain_ipv4Text (address : Nat) : isPlain (ipv4Text address) = true := by
  have hall : ".0123456789".toList.all (·.toNat < 0x80) = true := by decide
  have hascii : (ipv4Text address).all (·.toNat < 0x80) = true :=
    List.all_eq_true.2 fun c hc => List.all_eq_true.1 hall c (mem_ipv4Text hc)
  rw [isPlain, hascii, parts_ipv4Text]
  simp [octetDigits, isEncodedLabel_digits]

section Read

variable [Idna]

theorem read_of_encode? {s : List Char} (ne_nil : s ≠ []) (encoded : encode? s = some s)
    (allowed : ∀ c ∈ s, isForbidden c = false) :
    read s = if endsInNumber s then (readIpv4 s).map ipv4 else .ok (.name s) := by
  have hdecode : percentDecode? (String.ofList s) = some (String.ofList s) := by
    rw [percentDecode?_eq_some_iff, String.toList_ofList, decode_eq_iff]
    intro high low _ _ hbytes
    exact absurd (allowed '%' (hbytes.subset List.mem_cons_self)) (by decide)
  have hnone : s.any isForbidden = false := List.any_eq_false.2 fun c hc => by simp [allowed c hc]
  unfold read
  split
  next rest => exact absurd (allowed '[' List.mem_cons_self) (by decide)
  next =>
    rw [hdecode]
    dsimp only
    rw [String.toList_ofList, encoded]
    dsimp only
    rw [hnone, if_neg Bool.false_ne_true, if_neg ne_nil]

theorem read_ipv4Text (h : address < 2 ^ 32) : read (ipv4Text address) = .ok (.ipv4 address) := by
  have hall {p : Char → Bool} (hp : ".0123456789".toList.all p = true) :
      ∀ c ∈ ipv4Text address, p c = true := fun c hc =>
    List.all_eq_true.1 hp c (mem_ipv4Text hc)
  have hlower : ∀ c ∈ ipv4Text address, c.toLower = c := fun c hc => of_decide_eq_true
    (hall (p := fun c => decide (c.toLower = c)) (by decide) c hc)
  have hencoded : encode? (ipv4Text address) = some (ipv4Text address) := by
    rw [encode?, if_pos (isPlain_ipv4Text address), List.map_congr_left hlower, List.map_id']
  have hallowed : ∀ c ∈ ipv4Text address, isForbidden c = false := by
    intro c hc
    simpa using hall (p := fun c => !isForbidden c) (by decide) c hc
  rw [read_of_encode? ipv4Text_ne_nil hencoded hallowed, if_pos (endsInNumber_ipv4Text address),
    readIpv4_ipv4Text h]
  rfl

end Read

end Host

namespace Authority

theorem splitPort_outside {s : List Char} (h : ∀ c ∈ s, c ≠ ':' ∧ c ≠ '[') (rest : List Char) :
    splitPort false (s ++ rest) = (s ++ (splitPort false rest).1, (splitPort false rest).2) := by
  induction s with
  | nil => rfl
  | cons c s ih =>
    obtain ⟨⟨hcolon, hopen⟩, hs⟩ := List.forall_mem_cons.1 h
    rw [List.cons_append, splitPort, if_neg (by simp [hcolon]), if_neg hopen, ite_self, ih hs]
    rfl

theorem readPort_digits {port : Nat} (h : port < 65536) (usual : Option Nat) :
    readPort usual (Nat.toDigits 10 port) = .ok (if some port = usual then none else some port) := by
  have hdigits : (Nat.toDigits 10 port).all (Host.isDigit 10) = true := by
    rw [List.all_eq_true]
    intro c hc
    rw [Host.isDigit, Markup.digitValue?_of_isDigit (Markup.isDigit_of_mem_digits hc)]
    rfl
  have hfits : ¬65535 < port := by omega
  rw [readPort, if_pos hdigits, Host.numberOf_digits]
  dsimp only
  rw [if_neg hfits]
  by_cases husual : some port = usual
  · rw [if_pos (.inr husual), if_pos husual]
  · rw [if_neg (by simp [husual]), if_neg husual]

def ipv4Socket (address port : Nat) : String :=
  String.ofList (Host.ipv4Text address ++ ':' :: Nat.toDigits 10 port)

variable {address port : Nat}

theorem mem_ipv4Socket {c : Char} (h : c ∈ (ipv4Socket address port).toList) :
    c ∈ ":.0123456789".toList := by
  rw [ipv4Socket, String.toList_ofList] at h
  rcases List.mem_append.1 h with h | h
  · exact List.mem_cons_of_mem _ (Host.mem_ipv4Text h)
  · rcases List.mem_cons.1 h with rfl | h
    · exact List.mem_cons_self
    · exact List.mem_cons_of_mem _ (List.mem_cons_of_mem _ (Host.mem_digits h))

theorem read_ipv4Socket [Idna] (haddress : address < 2 ^ 32) (hport : port < 65536) :
    read true true (some 80) (ipv4Socket address port).toList =
      .ok { host := .ipv4 address, port := if port = 80 then none else some port } := by
  have hlogin : splitLogin (ipv4Socket address port).toList =
      (none, (ipv4Socket address port).toList) := by
    rw [splitLogin, splitLast?, splitFirst?_eq_none_iff.2]
    · rfl
    · rw [List.mem_reverse]
      exact fun h => absurd (mem_ipv4Socket h) (by decide)
  have hsplit : splitPort false (ipv4Socket address port).toList =
      (Host.ipv4Text address, some (Nat.toDigits 10 port)) := by
    have houtside : ∀ c ∈ Host.ipv4Text address, c ≠ ':' ∧ c ≠ '[' := by
      intro c hc
      constructor <;> rintro rfl <;> exact absurd (Host.mem_ipv4Text hc) (by decide)
    rw [ipv4Socket, String.toList_ofList, splitPort_outside houtside]
    exact congrArg (·, some _) (List.append_nil _)
  have hdigits : readPort (some 80) (Nat.toDigits 10 port) =
      .ok (if port = 80 then none else some port) := by
    simpa only [Option.some.injEq] using readPort_digits hport (some 80)
  have hhost : Host.ipv4 address ≠ .name [] := Host.noConfusion
  have hlone : splitPassword [] = ([], []) := rfl
  have hnobody : percentEncode escapedInUser [] = [] := rfl
  simp [read, readAnyPort, hlogin, hsplit, Host.read_ipv4Text haddress, hdigits,
    Host.ipv4Text_ne_nil, hhost, hlone, hnobody, bind, Except.bind, pure, Except.pure]

theorem isBound_ipv4Socket [Idna] (haddress : address < 2 ^ 32) (hport : port < 65536) :
    Url.IsBound (ipv4Socket address port)
      { host := .ipv4 address, port := if port = 80 then none else some port } where
  plain c hc := by
    have hall : ":.0123456789".toList.all
        (fun c => decide (0x20 < c.toNat) && decide (c ∉ ['/', '\\', '?', '#'])) = true := by decide
    simpa using List.all_eq_true.1 hall c (mem_ipv4Socket hc)
  read := read_ipv4Socket haddress hport

end Authority

end UpdateProtocol
