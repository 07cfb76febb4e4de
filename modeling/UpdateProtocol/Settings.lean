import UpdateProtocol.Files
import UpdateProtocol.Time.Duration
import UpdateProtocol.Toml.Document
import UpdateProtocol.Toml.Written

namespace UpdateProtocol

structure NetworkSettings where
  timeoutSeconds : UInt64 := 90
  backoffMillis : UInt64 := 1000
  tries : UInt32 := 7
  deriving DecidableEq, Repr, Inhabited

def NetworkSettings.timeout (n : NetworkSettings) : Duration := .ofSeconds n.timeoutSeconds

def NetworkSettings.backoff (n : NetworkSettings) : Duration := .ofMillis n.backoffMillis

structure ScheduleSettings where
  firstSeconds : UInt64 := 420
  intervalSeconds : UInt64 := 2700
  fuzzSeconds : UInt64 := 600
  deriving DecidableEq, Repr, Inhabited

namespace ScheduleSettings

def first (s : ScheduleSettings) : Duration := .ofSeconds s.firstSeconds

def interval (s : ScheduleSettings) : Duration := .ofSeconds s.intervalSeconds

def fuzz (s : ScheduleSettings) : Duration := .ofSeconds s.fuzzSeconds

end ScheduleSettings

structure Settings where
  clientVersion : String := "omaha-client"
  network : NetworkSettings := {}
  schedule : ScheduleSettings := {}
  deriving DecidableEq, Repr, Inhabited

inductive SettingsFault where
  | file (fault : FileFault)
  | unreadable
  | unwritable
  deriving DecidableEq, Repr

namespace Toml

def isRecord : Toml → Bool
  | .table _ _ | .list _ _ | .date => true
  | _ => false

def member? (name : String) (place : Nat) : Toml → Option Toml
  | .table _ entries => entries.lookup name
  | .list _ items => items[place]?
  | _ => none

def fieldOr {α : Type} (usual : α) (read? : Toml → Option α) : Option Toml → Option α
  | none => some usual
  | some v => read? v

def asText? : Toml → Option String
  | .string text => some text
  | _ => none

def asUInt64? : Toml → Option UInt64
  | .integer n => if 0 ≤ n ∧ n < UInt64.size then some (UInt64.ofNat n.toNat) else none
  | _ => none

def asUInt32? : Toml → Option UInt32
  | .integer n => if 0 ≤ n ∧ n < UInt32.size then some (UInt32.ofNat n.toNat) else none
  | _ => none

def numberLine? (name : String) (n : Nat) : Option (List Char) :=
  if Int.ofNat n ≤ Int64.maxValue.toInt then
    some (name.toList ++ " = ".toList ++ Nat.toDigits 10 n ++ ['\n'])
  else none

end Toml

open Toml in
def NetworkSettings.ofToml? (t : Toml) : Option NetworkSettings := do
  let usual : NetworkSettings := {}
  if !t.isRecord then none
  let timeoutSeconds ← fieldOr usual.timeoutSeconds asUInt64? (t.member? "timeout_seconds" 0)
  let backoffMillis ← fieldOr usual.backoffMillis asUInt64? (t.member? "backoff_initial_ms" 1)
  let tries ← fieldOr usual.tries asUInt32? (t.member? "backoff_tries" 2)
  some { timeoutSeconds, backoffMillis, tries }

open Toml in
def ScheduleSettings.ofToml? (t : Toml) : Option ScheduleSettings := do
  let usual : ScheduleSettings := {}
  if !t.isRecord then none
  let firstSeconds ← fieldOr usual.firstSeconds asUInt64? (t.member? "first_ping_secs" 0)
  let intervalSeconds ← fieldOr usual.intervalSeconds asUInt64? (t.member? "ping_interval_secs" 1)
  let fuzzSeconds ← fieldOr usual.fuzzSeconds asUInt64? (t.member? "ping_fuzz_secs" 2)
  some { firstSeconds, intervalSeconds, fuzzSeconds }

namespace Settings

open Toml

def parse? (text : String) : Option Settings := do
  let entries ← Toml.parse? text
  let usual : Settings := {}
  let clientVersion ← fieldOr usual.clientVersion asText? (entries.lookup "client_version")
  let network ← fieldOr usual.network NetworkSettings.ofToml? (entries.lookup "network")
  let schedule ← fieldOr usual.schedule ScheduleSettings.ofToml? (entries.lookup "schedule")
  some { clientVersion, network, schedule }

def text? (s : Settings) : Option String := do
  let timeout ← numberLine? "timeout_seconds" s.network.timeoutSeconds.toNat
  let backoff ← numberLine? "backoff_initial_ms" s.network.backoffMillis.toNat
  let tries ← numberLine? "backoff_tries" s.network.tries.toNat
  let first ← numberLine? "first_ping_secs" s.schedule.firstSeconds.toNat
  let interval ← numberLine? "ping_interval_secs" s.schedule.intervalSeconds.toNat
  let fuzz ← numberLine? "ping_fuzz_secs" s.schedule.fuzzSeconds.toNat
  some <| String.ofList <|
    "client_version = ".toList ++ writeText s.clientVersion ++
      "\n\n[network]\n".toList ++ timeout ++ backoff ++ tries ++
      "\n[schedule]\n".toList ++ first ++ interval ++ fuzz

def load (fs : Files) (place : Location) : Except SettingsFault Settings :=
  match fs.readText place with
  | .error fault => .error (.file fault)
  | .ok text => match parse? text with
    | none => .error .unreadable
    | some s => .ok s

def save (s : Settings) (fs : Files) (place : Location) : Except SettingsFault Files :=
  match fs.makeDirectories place.parent with
  | .error fault => .error (.file fault)
  | .ok fs => match s.text? with
    | none => .error .unwritable
    | some text => match fs.write place text.toUTF8 with
      | .error fault => .error (.file fault)
      | .ok fs => .ok fs

end Settings

def SettingsFault.message : SettingsFault → String
  | .file fault => "config io error: " ++ fault.message
  | .unreadable => "invalid config"
  | .unwritable => "failed to serialize config"

end UpdateProtocol
