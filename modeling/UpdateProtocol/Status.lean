namespace UpdateProtocol

inductive AppStatus where
  | ok
  | restricted
  | unknownId
  | invalidId
  | internalError
  | other (text : String)
  deriving DecidableEq, Repr

namespace AppStatus

def text : AppStatus → String
  | ok => "ok"
  | restricted => "restricted"
  | unknownId => "error-unknownApplication"
  | invalidId => "error-invalidAppId"
  | internalError => "error-internal"
  | other text => text

def ofText : String → AppStatus
  | "ok" => ok
  | "restricted" => restricted
  | "error-unknownApplication" => unknownId
  | "error-invalidAppId" => invalidId
  | "error-internal" => internalError
  | text => other text

def unset : AppStatus := other ""

instance : Inhabited AppStatus := ⟨unset⟩

def isOk : AppStatus → Bool
  | ok => true
  | _ => false

def message (s : AppStatus) : String := "app status " ++ s.text

theorem text_ofText (t : String) : (ofText t).text = t := by
  unfold ofText
  split <;> rfl

def refusal : AppStatus → AppStatus
  | ok => internalError
  | s => s

end AppStatus

inductive UpdateStatus where
  | ok
  | noUpdate
  | osNotSupported
  | unsupportedProtocol
  | pluginRestrictedHost
  | hashMismatch
  | internalError
  | other (text : String)
  deriving DecidableEq, Repr

namespace UpdateStatus

def text : UpdateStatus → String
  | ok => "ok"
  | noUpdate => "noupdate"
  | osNotSupported => "error-osnotsupported"
  | unsupportedProtocol => "error-unsupportedProtocol"
  | pluginRestrictedHost => "error-pluginRestrictedHost"
  | hashMismatch => "error-hash"
  | internalError => "error-internal"
  | other text => text

def ofText : String → UpdateStatus
  | "ok" => ok
  | "noupdate" => noUpdate
  | "error-osnotsupported" => osNotSupported
  | "error-unsupportedProtocol" => unsupportedProtocol
  | "error-pluginRestrictedHost" => pluginRestrictedHost
  | "error-hash" => hashMismatch
  | "error-internal" => internalError
  | text => other text

instance : Inhabited UpdateStatus := ⟨noUpdate⟩

def isOk : UpdateStatus → Bool
  | ok => true
  | _ => false

def message (s : UpdateStatus) : String := "update status " ++ s.text

theorem text_ofText (t : String) : (ofText t).text = t := by
  unfold ofText
  split <;> rfl

def refusal : UpdateStatus → UpdateStatus
  | ok => internalError
  | s => s

end UpdateStatus

end UpdateProtocol
