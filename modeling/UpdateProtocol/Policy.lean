import UpdateProtocol.Dispatch

namespace UpdateProtocol

structure Rule where
  reject : Option AppStatus := none
  update : Option Update := none
  decline : Option UpdateStatus := none
  deriving DecidableEq, Repr, Inhabited

structure Policy where
  rules : List (String × Rule) := []
  fallback : Rule := {}
  deriving DecidableEq, Repr, Inhabited

namespace Rule

def checkApp (r : Rule) : Except AppStatus Unit :=
  match r.reject with
  | some status => .error status
  | none => .ok ()

def checkUpdate (r : Rule) : Except UpdateStatus Update :=
  match r.update, r.decline with
  | some update, _ => .ok update
  | none, some status => .error status
  | none, none => .error .noUpdate

end Rule

namespace Policy

def rule (p : Policy) (id : String) : Rule :=
  (p.rules.lookup id).getD p.fallback

def updater {m : Type → Type} [Monad m] (p : Policy) : Updater m where
  checkApp _ a := pure (p.rule a.id).checkApp
  checkUpdate _ a := pure (p.rule a.id).checkUpdate
  event _ _ _ := pure ()
  ping _ _ := pure ()

end Policy

end UpdateProtocol
