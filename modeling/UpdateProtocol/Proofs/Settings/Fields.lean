import Mathlib.Algebra.Ring.Nat
import UpdateProtocol.Proofs.Toml.Sheet
import UpdateProtocol.Settings

namespace UpdateProtocol

open UpdateProtocol.Toml

structure NetworkFields where
  timeoutSeconds : Option UInt64 := none
  backoffMillis : Option UInt64 := none
  tries : Option UInt32 := none

structure ScheduleFields where
  firstSeconds : Option UInt64 := none
  intervalSeconds : Option UInt64 := none
  fuzzSeconds : Option UInt64 := none

structure Fields where
  clientVersion : Option String := none
  network : Option NetworkFields := none
  schedule : Option ScheduleFields := none

namespace NetworkFields

def filled (f : NetworkFields) : NetworkSettings :=
  let usual : NetworkSettings := {}
  { timeoutSeconds := f.timeoutSeconds.getD usual.timeoutSeconds
    backoffMillis := f.backoffMillis.getD usual.backoffMillis
    tries := f.tries.getD usual.tries }

structure IsIn (f : NetworkFields) (entries : Entries) : Prop where
  timeout : entries.lookup "timeout_seconds" = f.timeoutSeconds.map fun n => .integer n.toNat
  backoff : entries.lookup "backoff_initial_ms" = f.backoffMillis.map fun n => .integer n.toNat
  tries : entries.lookup "backoff_tries" = f.tries.map fun n => .integer n.toNat

end NetworkFields

namespace ScheduleFields

def filled (f : ScheduleFields) : ScheduleSettings :=
  let usual : ScheduleSettings := {}
  { firstSeconds := f.firstSeconds.getD usual.firstSeconds
    intervalSeconds := f.intervalSeconds.getD usual.intervalSeconds
    fuzzSeconds := f.fuzzSeconds.getD usual.fuzzSeconds }

structure IsIn (f : ScheduleFields) (entries : Entries) : Prop where
  first : entries.lookup "first_ping_secs" = f.firstSeconds.map fun n => .integer n.toNat
  interval : entries.lookup "ping_interval_secs" = f.intervalSeconds.map fun n => .integer n.toNat
  fuzz : entries.lookup "ping_fuzz_secs" = f.fuzzSeconds.map fun n => .integer n.toNat

end ScheduleFields

inductive IsSection {F : Type} (isIn : F → Entries → Prop) : Option F → Option Toml → Prop
  | absent : IsSection isIn none none
  | present {f : F} {entries : Entries} (origin : TableOrigin) (fields : isIn f entries) :
      IsSection isIn (some f) (some (.table origin entries))

namespace Fields

def filled (f : Fields) : Settings :=
  let usual : Settings := {}
  { clientVersion := f.clientVersion.getD usual.clientVersion
    network := (f.network.map NetworkFields.filled).getD usual.network
    schedule := (f.schedule.map ScheduleFields.filled).getD usual.schedule }

structure IsIn (f : Fields) (entries : Entries) : Prop where
  version : entries.lookup "client_version" = f.clientVersion.map .string
  network : IsSection NetworkFields.IsIn f.network (entries.lookup "network")
  schedule : IsSection ScheduleFields.IsIn f.schedule (entries.lookup "schedule")

end Fields

section Reading

theorem asUInt64?_integer (n : UInt64) : asUInt64? (.integer n.toNat) = some n := by
  have hfits : 0 ≤ (n.toNat : Int) ∧ (n.toNat : Int) < UInt64.size :=
    ⟨Int.natCast_nonneg _, Int.ofNat_lt.2 n.toNat_lt⟩
  rw [asUInt64?, if_pos hfits, Int.toNat_natCast, UInt64.ofNat_toNat]

theorem asUInt32?_integer (n : UInt32) : asUInt32? (.integer n.toNat) = some n := by
  have hfits : 0 ≤ (n.toNat : Int) ∧ (n.toNat : Int) < UInt32.size :=
    ⟨Int.natCast_nonneg _, Int.ofNat_lt.2 n.toNat_lt⟩
  rw [asUInt32?, if_pos hfits, Int.toNat_natCast, UInt32.ofNat_toNat]

theorem fieldOr_map {α : Type} {read? : Toml → Option α} {write : α → Toml}
    (hread : ∀ a, read? (write a) = some a) (usual : α) {field : Option α} {found : Option Toml}
    (h : found = field.map write) : fieldOr usual read? found = some (field.getD usual) := by
  subst h
  cases field with
  | none => rfl
  | some a => exact hread a

theorem fieldOr_section {F S : Type} {isIn : F → Entries → Prop} {read? : Toml → Option S}
    {filled : F → S} (hread : ∀ f entries, isIn f entries → ∀ origin,
      read? (.table origin entries) = some (filled f))
    (usual : S) {field : Option F} {found : Option Toml} (h : IsSection isIn field found) :
    fieldOr usual read? found = some ((field.map filled).getD usual) := by
  cases h with
  | absent => rfl
  | present origin fields => exact hread _ _ fields origin

variable {entries : Entries}

theorem NetworkFields.IsIn.read {f : NetworkFields} (h : f.IsIn entries) (origin : TableOrigin) :
    NetworkSettings.ofToml? (.table origin entries) = some f.filled := by
  have htimeout := fieldOr_map asUInt64?_integer ({} : NetworkSettings).timeoutSeconds h.timeout
  have hbackoff := fieldOr_map asUInt64?_integer ({} : NetworkSettings).backoffMillis h.backoff
  have htries := fieldOr_map asUInt32?_integer ({} : NetworkSettings).tries h.tries
  simp only [NetworkSettings.ofToml?, isRecord, member?, htimeout, hbackoff, htries]
  rfl

theorem ScheduleFields.IsIn.read {f : ScheduleFields} (h : f.IsIn entries) (origin : TableOrigin) :
    ScheduleSettings.ofToml? (.table origin entries) = some f.filled := by
  have hfirst := fieldOr_map asUInt64?_integer ({} : ScheduleSettings).firstSeconds h.first
  have hinterval :=
    fieldOr_map asUInt64?_integer ({} : ScheduleSettings).intervalSeconds h.interval
  have hfuzz := fieldOr_map asUInt64?_integer ({} : ScheduleSettings).fuzzSeconds h.fuzz
  simp only [ScheduleSettings.ofToml?, isRecord, member?, hfirst, hinterval, hfuzz]
  rfl

theorem Fields.IsIn.parse? {f : Fields} (h : f.IsIn entries) {text : String}
    (htext : Toml.parse? text = some entries) : Settings.parse? text = some f.filled := by
  have hstring (text : String) : asText? (.string text) = some text := rfl
  have hversion := fieldOr_map hstring ({} : Settings).clientVersion h.version
  have hnetwork :=
    fieldOr_section (fun _ _ hin => NetworkFields.IsIn.read hin) ({} : Settings).network h.network
  have hschedule :=
    fieldOr_section (fun _ _ hin => ScheduleFields.IsIn.read hin) ({} : Settings).schedule h.schedule
  dsimp only at hversion hnetwork hschedule
  simp only [Settings.parse?, htext, Option.bind_eq_bind, Option.bind_some, hversion, hnetwork,
    hschedule]
  rfl

end Reading

section Writing

def numberPair (key : String) (n : Nat) : Pair := ⟨key, .integer n, Nat.toDigits 10 n⟩

def textPair (key : String) (text : String) : Pair := ⟨key, .string text, writeText text⟩

theorem value?_scalar {c : Char} (hlist : c ≠ '[') (htable : c ≠ '\x7b') (s : List Char) :
    value? maxDepth (c :: s) = scalar? (c :: s) := by
  rw [maxDepth, value?.eq_def]
  dsimp only
  split
  next heq => exact absurd (List.cons.inj heq).1 hlist
  next heq => exact absurd (List.cons.inj heq).1 htable
  next => rfl

theorem isWritten_numberPair {key : String} {n : Nat} (hkey : IsBare key) (hn : n < 2 ^ 63) :
    (numberPair key n).IsWritten where
  key := hkey
  noGap c hc := by
    have hdigit := Markup.isDigit_of_mem_digits (n := n) (List.mem_of_mem_head? hc)
    rw [isGap, Bool.or_eq_false_iff, decide_eq_false_iff_not, decide_eq_false_iff_not]
    exact ⟨ne_of_isDigit hdigit rfl, ne_of_isDigit hdigit rfl⟩
  noReturn hmem := absurd (Markup.isDigit_of_mem_digits (n := n) hmem) (by decide)
  read rest := by
    have hmax : Int64.maxValue.toInt = 9223372036854775807 := rfl
    have hread := number_line rest n (by omega)
    obtain ⟨c, more, hdigits, hc⟩ := Markup.digits_head (n := n)
    have hne (d : Char) (hd : d.isDigit = false) : c ≠ d := ne_of_isDigit hc hd
    rw [numberPair]
    dsimp only
    rw [hdigits, List.cons_append] at hread ⊢
    rw [value?_scalar (hne _ rfl) (hne _ rfl), scalar?]
    dsimp only
    rw [if_neg (not_or.2 ⟨hne _ rfl, hne _ rfl⟩), if_neg (hne _ rfl), if_neg (hne _ rfl),
      if_pos (by simp [hc]), hread]

theorem isWritten_textPair {key : String} (hkey : IsBare key) (text : String) :
    (textPair key text).IsWritten where
  key := hkey
  noGap c hc := by
    obtain ⟨quote, tail, hquote, htext⟩ := head_writeText text
    rw [textPair, htext] at hc
    cases hc
    rcases hquote with rfl | rfl <;> rfl
  noReturn := not_mem_writeText text
  read rest := by
    obtain ⟨quote, tail, hquote, htext⟩ := head_writeText text
    have hread : text? (writeText text ++ '\n' :: rest) = some (text, '\n' :: rest) :=
      text?_writeText text (by simp)
    have hlist : quote ≠ '[' := by rcases hquote with rfl | rfl <;> decide
    have htable : quote ≠ '\x7b' := by rcases hquote with rfl | rfl <;> decide
    rw [textPair]
    dsimp only
    rw [htext, List.cons_append] at hread ⊢
    rw [value?_scalar hlist htable, scalar?]
    dsimp only
    rw [if_pos hquote, hread]
    rfl

end Writing

section Sheets

theorem isBare_of_all {name : String} (h : name.toList ≠ [] ∧ name.toList.all isBare = true) :
    IsBare name := ⟨h.1, List.all_eq_true.1 h.2⟩

def linesOf {α : Type} (write : α → Pair) (field : Option α) : List Pair :=
  (field.map write).toList

theorem isWritten_linesOf {α : Type} {write : α → Pair} {field : Option α}
    (h : ∀ a ∈ field, (write a).IsWritten) : ∀ p ∈ linesOf write field, p.IsWritten := by
  intro p hp
  obtain ⟨a, ha, rfl⟩ := Option.map_eq_some_iff.1 (Option.mem_toList.1 hp)
  exact h a ha

namespace NetworkFields

def pairs (f : NetworkFields) : List Pair :=
  linesOf (fun n => numberPair "timeout_seconds" n.toNat) f.timeoutSeconds ++
    linesOf (fun n => numberPair "backoff_initial_ms" n.toNat) f.backoffMillis ++
    linesOf (fun n => numberPair "backoff_tries" n.toNat) f.tries

def numbers (f : NetworkFields) : List UInt64 := f.timeoutSeconds.toList ++ f.backoffMillis.toList

theorem isWritten_pairs {f : NetworkFields} (h : ∀ n ∈ f.numbers, n.toNat < 2 ^ 63) :
    ∀ p ∈ f.pairs, p.IsWritten := by
  rw [pairs, List.forall_mem_append, List.forall_mem_append]
  refine ⟨⟨isWritten_linesOf fun n hn => ?_, isWritten_linesOf fun n hn => ?_⟩,
    isWritten_linesOf fun n _ => ?_⟩
  · refine isWritten_numberPair (isBare_of_all (by decide)) (h n ?_)
    exact List.mem_append_left _ (Option.mem_toList.2 hn)
  · refine isWritten_numberPair (isBare_of_all (by decide)) (h n ?_)
    exact List.mem_append_right _ (Option.mem_toList.2 hn)
  · exact isWritten_numberPair (isBare_of_all (by decide)) (Nat.lt_trans n.toNat_lt (by decide))

theorem nodup_pairs (f : NetworkFields) : (f.pairs.map Pair.key).Nodup := by
  obtain ⟨_ | timeout, _ | backoff, _ | tries⟩ := f <;> simp [pairs, linesOf, numberPair]

theorem isIn_pairs (f : NetworkFields) : f.IsIn (f.pairs.map Pair.entry) := by
  obtain ⟨_ | timeout, _ | backoff, _ | tries⟩ := f <;> constructor <;> rfl

end NetworkFields

namespace ScheduleFields

def pairs (f : ScheduleFields) : List Pair :=
  linesOf (fun n => numberPair "first_ping_secs" n.toNat) f.firstSeconds ++
    linesOf (fun n => numberPair "ping_interval_secs" n.toNat) f.intervalSeconds ++
    linesOf (fun n => numberPair "ping_fuzz_secs" n.toNat) f.fuzzSeconds

def numbers (f : ScheduleFields) : List UInt64 :=
  f.firstSeconds.toList ++ f.intervalSeconds.toList ++ f.fuzzSeconds.toList

theorem isWritten_pairs {f : ScheduleFields} (h : ∀ n ∈ f.numbers, n.toNat < 2 ^ 63) :
    ∀ p ∈ f.pairs, p.IsWritten := by
  rw [numbers, List.forall_mem_append, List.forall_mem_append] at h
  obtain ⟨⟨hfirst, hinterval⟩, hfuzz⟩ := h
  rw [pairs, List.forall_mem_append, List.forall_mem_append]
  refine ⟨⟨isWritten_linesOf fun n hn => ?_, isWritten_linesOf fun n hn => ?_⟩,
    isWritten_linesOf fun n hn => ?_⟩
  · exact isWritten_numberPair (isBare_of_all (by decide)) (hfirst n (Option.mem_toList.2 hn))
  · exact isWritten_numberPair (isBare_of_all (by decide)) (hinterval n (Option.mem_toList.2 hn))
  · exact isWritten_numberPair (isBare_of_all (by decide)) (hfuzz n (Option.mem_toList.2 hn))

theorem nodup_pairs (f : ScheduleFields) : (f.pairs.map Pair.key).Nodup := by
  obtain ⟨_ | first, _ | interval, _ | fuzz⟩ := f <;> simp [pairs, linesOf, numberPair]

theorem isIn_pairs (f : ScheduleFields) : f.IsIn (f.pairs.map Pair.entry) := by
  obtain ⟨_ | first, _ | interval, _ | fuzz⟩ := f <;> constructor <;> rfl

end ScheduleFields

namespace Fields

def sheet (f : Fields) : Sheet where
  pairs := linesOf (textPair "client_version") f.clientVersion
  sections := (f.network.map fun n => ("network", n.pairs)).toList ++
    (f.schedule.map fun n => ("schedule", n.pairs)).toList

structure Fits (f : Fields) : Prop where
  network : ∀ part ∈ f.network, ∀ n ∈ part.numbers, n.toNat < 2 ^ 63
  schedule : ∀ part ∈ f.schedule, ∀ n ∈ part.numbers, n.toNat < 2 ^ 63

variable {f : Fields}

theorem mem_sections {part : String × List Pair} (h : part ∈ f.sheet.sections) :
    (∃ n ∈ f.network, part = ("network", n.pairs)) ∨
      ∃ n ∈ f.schedule, part = ("schedule", n.pairs) := by
  rcases List.mem_append.1 h with h | h
  · obtain ⟨n, hn, rfl⟩ := Option.map_eq_some_iff.1 (Option.mem_toList.1 h)
    exact .inl ⟨n, hn, rfl⟩
  · obtain ⟨n, hn, rfl⟩ := Option.map_eq_some_iff.1 (Option.mem_toList.1 h)
    exact .inr ⟨n, hn, rfl⟩

theorem isWritten_sheet (h : f.Fits) : f.sheet.IsWritten where
  pairs := isWritten_linesOf fun text _ => isWritten_textPair (isBare_of_all (by decide)) text
  names part hpart := by
    obtain ⟨n, -, rfl⟩ | ⟨n, -, rfl⟩ := mem_sections hpart
    · exact (isBare_of_all (by decide) : IsBare "network")
    · exact (isBare_of_all (by decide) : IsBare "schedule")
  parts part hpart := by
    obtain ⟨n, hn, rfl⟩ | ⟨n, hn, rfl⟩ := mem_sections hpart
    · exact NetworkFields.isWritten_pairs (h.network n hn)
    · exact ScheduleFields.isWritten_pairs (h.schedule n hn)
  keys := by
    obtain ⟨_ | version, _ | network, _ | schedule⟩ := f <;> simp [sheet, linesOf, textPair]
  partKeys part hpart := by
    obtain ⟨n, -, rfl⟩ | ⟨n, -, rfl⟩ := mem_sections hpart
    · exact n.nodup_pairs
    · exact n.nodup_pairs

theorem isIn_sheet (f : Fields) : f.IsIn f.sheet.entries := by
  obtain ⟨_ | version, _ | network, _ | schedule⟩ := f <;> constructor
  all_goals first
    | rfl
    | exact .absent
    | exact .present .header (NetworkFields.isIn_pairs _)
    | exact .present .header (ScheduleFields.isIn_pairs _)

theorem parse?_sheet (h : f.Fits) :
    Settings.parse? (String.ofList f.sheet.text) = some f.filled :=
  f.isIn_sheet.parse? (isWritten_sheet h).parse?_text

end Fields

end Sheets

end UpdateProtocol
