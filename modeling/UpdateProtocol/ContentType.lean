import UpdateProtocol.Text.Blank
import UpdateProtocol.Text.Split

namespace UpdateProtocol.ContentType

def sameLetters (s t : List Char) : Bool :=
  s.map Char.toLower = t.map Char.toLower

def isMediaType (s : List Char) : Bool :=
  let media := Text.trim Text.isBlank s
  sameLetters media "text/xml".toList || sameLetters media "application/xml".toList

def isCharset (param : List Char) : Bool :=
  match Text.splitFirst? '=' param with
  | some (key, value) =>
      sameLetters (Text.trim Text.isBlank key) "charset".toList &&
        sameLetters (Text.trim (· = '"') (Text.trim Text.isBlank value)) "utf-8".toList
  | none => false

def trimmed (value : String) : String :=
  String.ofList (Text.trim Text.isBlank value.toList)

def accepted (value : String) : Bool :=
  match Text.trim Text.isBlank value.toList with
  | [] => true
  | s => match Text.parts (· = ';') s with
    | [] => false
    | media :: params => isMediaType media && params.all isCharset

def isHeaderByte (b : UInt8) : Bool := b = 0x09 || (0x20 ≤ b && b < 0x7F)

/-- The text of a header; one that holds any other byte than visible ASCII, blank and tab counts as
none. -/
def ofHeader : Option ByteArray → String
  | some bytes =>
      if bytes.data.all isHeaderByte then
        String.ofList (bytes.data.toList.map fun b => Char.ofNat b.toNat)
      else ""
  | none => ""

def xml : String := "text/xml; charset=utf-8"

end UpdateProtocol.ContentType
