import UpdateProtocol.Text.Quoted
import UpdateProtocol.Text.Utf8

namespace UpdateProtocol.Markup

open UpdateProtocol.Text

inductive Malformation where
  | markup
  | encoding (fault : Utf8Fault)
  | missing (field : String)
  | duplicate (field : String)
  | wrongType (text expected : String)
  | wrongBoolean (text : String)
  | described (detail : String)
  deriving DecidableEq, Repr

def Malformation.message : Malformation → String
  | .markup => "<xml>"
  | .encoding fault => fault.message
  | .missing field => "missing field `" ++ field ++ "`"
  | .duplicate field => "duplicate field `" ++ field ++ "`"
  | .wrongType text expected => "invalid type: string " ++ quoted text ++ ", expected " ++ expected
  | .wrongBoolean text => "invalid boolean " ++ quoted text
  | .described detail => detail

end UpdateProtocol.Markup
