import UpdateProtocol.Digest.Base64
import UpdateProtocol.Digest.Sha1
import UpdateProtocol.Digest.Sha256
import UpdateProtocol.Dispatch
import UpdateProtocol.Files

namespace UpdateProtocol

def Package.describe (name : String) (content : ByteArray) : Package where
  name := name
  hash := some (Digest.base64 (Digest.sha1 content))
  sha256 := some (Digest.base64 (Digest.sha256 content))
  size := UInt64.ofNat content.size
  required := true

structure PackageStore where
  baseUrl : String
  version : Option String := none
  packages : List Package := []
  files : List (String × Location) := []
  deriving DecidableEq, Repr, Inhabited

namespace PackageStore

def setVersion (s : PackageStore) (version : String) : PackageStore :=
  { s with version := some version }

def isName (name : String) : Bool :=
  name ≠ "" && name.toList.all fun c => c ≠ '/' && c ≠ '\\'

def commit (s : PackageStore) (name : String) (file : Location) (content : ByteArray) :
    PackageStore :=
  { s with
    packages := s.packages.filter (·.name ≠ name) ++ [.describe name content]
    files := (name, file) :: s.files.filter (·.1 ≠ name) }

def add (s : PackageStore) (fs : Files) (file : Location) (name : String) :
    Except FileFault PackageStore :=
  if !isName name then .error (.invalidName name)
  else (fs.read file).map (s.commit name file)

def file? (s : PackageStore) (name : String) : Option Location :=
  s.files.lookup name

def offer (s : PackageStore) : Except UpdateStatus Update :=
  match s.version with
  | none => .error .noUpdate
  | some version => .ok
      { urls := [{ codebase := s.baseUrl }]
        manifest :=
          { version
            packages := s.packages
            actions :=
              [{ event := "postinstall", sha256 := s.packages.head?.bind Package.sha256 }] } }

def updater {m : Type → Type} [Monad m] (s : PackageStore) : Updater m where
  checkApp _ _ := pure (.ok ())
  checkUpdate _ _ := pure s.offer
  event _ _ _ := pure ()
  ping _ _ := pure ()

end PackageStore

end UpdateProtocol
