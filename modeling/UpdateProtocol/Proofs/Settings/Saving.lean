import Mathlib.Algebra.Ring.Nat
import UpdateProtocol.Proofs.Files
import UpdateProtocol.Proofs.Settings.Fields

namespace UpdateProtocol

open UpdateProtocol.Toml

namespace Files

variable {fs : Files} {place done : Location}

def makingBelow (fs : Files) (done : Location) : Location → Files × Except FileFault Unit
  | [] => (fs, .ok ())
  | name :: rest =>
      if name = ".." then makingBelow fs done.dropLast rest
      else match fs.entry? (done ++ [name]) with
        | some .directory => makingBelow fs (done ++ [name]) rest
        | some (.file _) => (fs, .error (if rest = [] then .alreadyExists else .notDirectory))
        | none => match fs.makeDirectory (done ++ [name]) with
          | .error fault => (fs, .error fault)
          | .ok fs => makingBelow fs (done ++ [name]) rest

def making (fs : Files) (place : Location) : Files × Except FileFault Unit :=
  if place.hasNull then (fs, .error .nullCharacter) else makingBelow fs [] place

theorem makeBelow_eq (fs : Files) (done place : Location) : fs.makeBelow done place =
    (fs.makingBelow done place).2.map fun _ => (fs.makingBelow done place).1 := by
  induction place generalizing fs done with
  | nil => rfl
  | cons name rest ih =>
    rw [makeBelow, makingBelow]
    by_cases hup : name = ".."
    · rw [if_pos hup, if_pos hup, ih]
    · rw [if_neg hup, if_neg hup]
      cases fs.entry? (done ++ [name]) with
      | none =>
        cases fs.makeDirectory (done ++ [name]) with
        | error fault => rfl
        | ok made => exact ih made (done ++ [name])
      | some entry =>
        cases entry with
        | file content => rfl
        | directory => exact ih fs (done ++ [name])

theorem makeDirectories_eq (fs : Files) (place : Location) : fs.makeDirectories place =
    (fs.making place).2.map fun _ => (fs.making place).1 := by
  rw [makeDirectories, making]
  split
  · rfl
  · exact makeBelow_eq fs [] place

theorem making_of_makeDirectories {made : Files} (h : fs.makeDirectories place = .ok made) :
    fs.making place = (made, .ok ()) := by
  rw [makeDirectories_eq] at h
  obtain ⟨_, houtcome, hreached⟩ := ok_of_map h
  exact Prod.ext hreached houtcome

def Accepts (fs : Files) (place : Location) : Prop :=
  ∃ made, fs.makeDirectories place.parent = .ok made ∧
    ∀ content, ∃ written, made.write place content = .ok written

end Files

namespace Settings

variable {s : Settings} {fs : Files} {place : Location}

def saving (s : Settings) (fs : Files) (place : Location) : Files × Except SettingsFault Unit :=
  match fs.making place.parent with
  | (made, .error fault) => (made, .error (.file fault))
  | (made, .ok _) => match s.text? with
    | none => (made, .error .unwritable)
    | some text => match made.write place text.toUTF8 with
      | .error fault => (made, .error (.file fault))
      | .ok written => (written, .ok ())

theorem save_eq (s : Settings) (fs : Files) (place : Location) :
    s.save fs place = (s.saving fs place).2.map fun _ => (s.saving fs place).1 := by
  rw [save, Files.makeDirectories_eq, saving]
  obtain ⟨made, outcome⟩ := fs.making place.parent
  cases outcome with
  | error fault => rfl
  | ok _ =>
    cases s.text? with
    | none => rfl
    | some text =>
      simp only [Except.map]
      cases made.write place text.toUTF8 <;> rfl

structure Fits (s : Settings) : Prop where
  timeout : s.network.timeoutSeconds.toNat ≤ 2 ^ 63 - 1
  backoff : s.network.backoffMillis.toNat ≤ 2 ^ 63 - 1
  first : s.schedule.firstSeconds.toNat ≤ 2 ^ 63 - 1
  interval : s.schedule.intervalSeconds.toNat ≤ 2 ^ 63 - 1
  fuzz : s.schedule.fuzzSeconds.toNat ≤ 2 ^ 63 - 1

def fields (s : Settings) : Fields where
  clientVersion := some s.clientVersion
  network := some
    { timeoutSeconds := some s.network.timeoutSeconds
      backoffMillis := some s.network.backoffMillis
      tries := some s.network.tries }
  schedule := some
    { firstSeconds := some s.schedule.firstSeconds
      intervalSeconds := some s.schedule.intervalSeconds
      fuzzSeconds := some s.schedule.fuzzSeconds }

theorem fits_fields (h : s.Fits) : s.fields.Fits := by
  obtain ⟨htimeout, hbackoff, hfirst, hinterval, hfuzz⟩ := h
  constructor
  · rintro part ⟨⟩
    simp only [NetworkFields.numbers, Option.toList_some, List.forall_mem_append,
      List.forall_mem_singleton]
    omega
  · rintro part ⟨⟩
    simp only [ScheduleFields.numbers, Option.toList_some, List.forall_mem_append,
      List.forall_mem_singleton]
    omega

theorem numberLine?_eq (name : String) (n : Nat) : numberLine? name n =
    if n ≤ 2 ^ 63 - 1 then some (Line.pair (numberPair name n)).text else none := by
  have hmax : Int64.maxValue.toInt = 9223372036854775807 := rfl
  have hfits : Int.ofNat n ≤ Int64.maxValue.toInt ↔ n ≤ 2 ^ 63 - 1 := by
    rw [hmax, Int.ofNat_eq_natCast]
    omega
  rw [numberLine?]
  split
  next h => rw [if_pos (hfits.1 h)]; rfl
  next h => rw [if_neg (mt hfits.2 h)]

theorem text?_of_fits (h : s.Fits) : s.text? = some (String.ofList s.fields.sheet.text) := by
  have htries : s.network.tries.toNat ≤ 2 ^ 63 - 1 :=
    Nat.le_of_lt (Nat.lt_of_lt_of_le s.network.tries.toNat_lt (by decide))
  simp only [text?, numberLine?_eq, if_pos h.timeout, if_pos h.backoff, if_pos htries,
    if_pos h.first, if_pos h.interval, if_pos h.fuzz]
  refine congrArg some (congrArg String.ofList ?_)
  simp [Sheet.text, Sheet.lines, Fields.sheet, fields, Sheet.sectionLines, linesOf,
    NetworkFields.pairs, ScheduleFields.pairs, textPair, Line.text]

theorem le_of_numberLine? {name : String} {n : Nat} {line : List Char}
    (h : numberLine? name n = some line) : n ≤ 2 ^ 63 - 1 := by
  rw [numberLine?_eq] at h
  split at h
  next hn => exact hn
  next => cases h

theorem text?_of_not_fits (h : ¬s.Fits) : s.text? = none := by
  cases htext : s.text? with
  | none => rfl
  | some text =>
    obtain ⟨_, htimeout, htext⟩ := Option.bind_eq_some_iff.1 htext
    obtain ⟨_, hbackoff, htext⟩ := Option.bind_eq_some_iff.1 htext
    obtain ⟨_, -, htext⟩ := Option.bind_eq_some_iff.1 htext
    obtain ⟨_, hfirst, htext⟩ := Option.bind_eq_some_iff.1 htext
    obtain ⟨_, hinterval, htext⟩ := Option.bind_eq_some_iff.1 htext
    obtain ⟨_, hfuzz, -⟩ := Option.bind_eq_some_iff.1 htext
    exact absurd ⟨le_of_numberLine? htimeout, le_of_numberLine? hbackoff, le_of_numberLine? hfirst,
      le_of_numberLine? hinterval, le_of_numberLine? hfuzz⟩ h

theorem load_of_parse? {text : String} (hfile : fs.readText place = .ok text)
    (htext : parse? text = some s) : load fs place = .ok s := by
  rw [load, hfile]
  dsimp only
  rw [htext]

structure LastsIn (s : Settings) (fs : Files) (place : Location) : Prop where
  agrees : s.save fs place = (s.saving fs place).2.map fun _ => (s.saving fs place).1
  kept : s.Fits → fs.Accepts place →
    ∃ written, s.save fs place = .ok written ∧ load written place = .ok s
  refused : ¬s.Fits → ∃ fault, s.save fs place = .error fault
  unwritable : ¬s.Fits → ∀ made, fs.makeDirectories place.parent = .ok made →
    s.save fs place = .error .unwritable
  untouched : ¬s.Fits → ∀ content, fs.read place = .ok content →
    s.saving fs place = (fs, .error .unwritable)
  filled : ∀ (f : Fields) text entries, fs.readText place = .ok text →
    Toml.parse? text = some entries → f.IsIn entries → load fs place = .ok f.filled
  written : ∀ f : Fields, f.Fits → fs.readText place = .ok (String.ofList f.sheet.text) →
    load fs place = .ok f.filled

theorem lastsIn (s : Settings) (fs : Files) (place : Location) : s.LastsIn fs place where
  agrees := save_eq s fs place
  kept hfits haccepts := by
    obtain ⟨made, hmade, hwrite⟩ := haccepts
    obtain ⟨written, hwritten⟩ := hwrite (String.ofList s.fields.sheet.text).toUTF8
    refine ⟨written, ?_, ?_⟩
    · simp only [save, hmade, text?_of_fits hfits, hwritten]
    · exact load_of_parse? (Files.readText_written hwritten) (Fields.parse?_sheet (fits_fields hfits))
  refused hfits := by
    rw [save, text?_of_not_fits hfits]
    cases fs.makeDirectories place.parent with
    | error fault => exact ⟨_, rfl⟩
    | ok made => exact ⟨_, rfl⟩
  unwritable hfits made hmade := by rw [save, hmade, text?_of_not_fits hfits]
  untouched hfits content hcontent := by
    have hmaking := Files.making_of_makeDirectories (Files.makeDirectories_of_read hcontent)
    rw [saving, hmaking, text?_of_not_fits hfits]
  filled f text entries hfile htext hfields := load_of_parse? hfile (hfields.parse? htext)
  written f hfits hfile := load_of_parse? hfile (Fields.parse?_sheet hfits)

def sparseText : String := "# others\n[network]\nbackoff_tries = 9\nproxy = 'none'\n"

def sparseFiles : Files := [(["client.toml"], .file sparseText.toUTF8)]

def oversized : Settings := { network := { timeoutSeconds := 9223372036854775808 } }

theorem lastsIn_sparse :
    (∃ written, save {} [] ["etc", "client.toml"] = .ok written ∧
      load written ["etc", "client.toml"] = .ok {}) ∧
    oversized.saving sparseFiles ["client.toml"] = (sparseFiles, .error .unwritable) ∧
    load sparseFiles ["client.toml"] = .ok { network := { tries := 9 } } := by
  have hread : sparseFiles.read ["client.toml"] = .ok sparseText.toUTF8 := rfl
  have htext : sparseFiles.readText ["client.toml"] = .ok sparseText := by
    simp only [Files.readText, hread, bind, Except.bind, Text.ofUtf8_toUTF8]
  have hfits : ({} : Settings).Fits :=
    ⟨by decide, by decide, by decide, by decide, by decide⟩
  have haccepts : Files.Accepts [] ["etc", "client.toml"] := ⟨_, rfl, fun _ => ⟨_, rfl⟩⟩
  have hoversized : ¬oversized.Fits := fun h => absurd h.timeout (by decide)
  let f : Fields := { network := some { tries := some 9 } }
  have hparse : Toml.parse? sparseText = some
      [("network", .table .header [("backoff_tries", .integer 9), ("proxy", .string "none")])] := by
    rfl
  have hin : f.IsIn
      [("network", .table .header [("backoff_tries", .integer 9), ("proxy", .string "none")])] :=
    ⟨rfl, .present .header ⟨rfl, rfl, rfl⟩, .absent⟩
  exact ⟨(lastsIn {} [] ["etc", "client.toml"]).kept hfits haccepts,
    (lastsIn oversized sparseFiles ["client.toml"]).untouched hoversized _ hread,
    (lastsIn {} sparseFiles ["client.toml"]).filled f _ _ htext hparse hin⟩

end Settings

end UpdateProtocol
