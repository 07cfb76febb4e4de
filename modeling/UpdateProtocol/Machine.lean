import UpdateProtocol.Failure
import UpdateProtocol.Files
import UpdateProtocol.Text.Blank

namespace UpdateProtocol

structure MachineIdentity where
  machineId : String
  bootId : String
  machineId_long : 32 ≤ machineId.utf8ByteSize
  bootId_long : 36 ≤ bootId.utf8ByteSize
  deriving DecidableEq, Repr

namespace MachineIdentity

def trimmed (text : String) : String :=
  String.ofList (Text.trim Text.isBlank text.toList)

def ofTexts (machineText bootText : String) : Except Failure MachineIdentity :=
  let machineId := trimmed machineText
  let bootId := trimmed bootText
  if hm : 32 ≤ machineId.utf8ByteSize then
    if hb : 36 ≤ bootId.utf8ByteSize then .ok ⟨machineId, bootId, hm, hb⟩
    else .error (.config ("incomplete boot id: " ++ Text.quoted bootId))
  else .error (.config ("incomplete machine id: " ++ Text.quoted machineId))

def readText (what : String) (fs : Files) (place : Location) : Except Failure String :=
  match fs.readText place with
  | .ok text => .ok text
  | .error fault => .error (.config ("failed to read " ++ what ++ ": " ++ fault.message))

def read (fs : Files) (machinePlace bootPlace : Location) : Except Failure MachineIdentity := do
  let machineText ← readText "machine id" fs machinePlace
  let bootText ← readText "boot id" fs bootPlace
  ofTexts machineText bootText

end MachineIdentity

end UpdateProtocol
