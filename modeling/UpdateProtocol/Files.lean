import UpdateProtocol.Text.Quoted
import UpdateProtocol.Text.Split
import UpdateProtocol.Text.Utf8

namespace UpdateProtocol

inductive FileFault where
  | notFound
  | alreadyExists
  | notDirectory
  | isDirectory
  | nameTooLong
  | invalidName (name : String)
  | nullCharacter
  | notUtf8
  deriving DecidableEq, Repr

def FileFault.message : FileFault → String
  | .notFound => "No such file or directory (os error 2)"
  | .alreadyExists => "File exists (os error 17)"
  | .notDirectory => "Not a directory (os error 20)"
  | .isDirectory => "Is a directory (os error 21)"
  | .nameTooLong => "File name too long (os error 36)"
  | .invalidName name => "invalid package name " ++ Text.quoted name
  | .nullCharacter => "file name contained an unexpected NUL byte"
  | .notUtf8 => "stream did not contain valid UTF-8"

abbrev Location := List String

namespace Location

def ofPath (path : String) : Location := (Text.parts (· = '/') path.toList).map String.ofList

def stays (name : String) : Bool := name = "" || name = "."

def parent (place : Location) : Location := (place.filter fun name => !stays name).dropLast

def withoutSlashes (place : Location) : Location := (place.reverse.dropWhile (· = "")).reverse

def hasNull (place : Location) : Bool := place.any fun name => '\x00' ∈ name.toList

end Location

inductive FileEntry where
  | file (content : ByteArray)
  | directory

abbrev Files := List (Location × FileEntry)

namespace Files

def entry? (fs : Files) : Location → Option FileEntry
  | [] => some .directory
  | place => fs.lookup place

def erase (fs : Files) (place : Location) : Files := fs.filter (·.1 ≠ place)

def maxName : Nat := 255

def resolve (fs : Files) (done : Location) : Location → Except FileFault Location
  | [] => .ok done
  | name :: rest =>
      match fs.entry? done with
      | none => .error .notFound
      | some (.file _) => .error .notDirectory
      | some .directory =>
          if Location.stays name then resolve fs done rest
          else if name = ".." then resolve fs done.dropLast rest
          else if maxName < name.utf8ByteSize then .error .nameTooLong
          else resolve fs (done ++ [name]) rest

def locate (fs : Files) (place : Location) : Except FileFault Location :=
  if place.hasNull then .error .nullCharacter else fs.resolve [] place

def read (fs : Files) (place : Location) : Except FileFault ByteArray := do
  let place ← fs.locate place
  match fs.entry? place with
  | none => .error .notFound
  | some .directory => .error .isDirectory
  | some (.file content) => .ok content

def readText (fs : Files) (place : Location) : Except FileFault String := do
  let content ← fs.read place
  match Text.ofUtf8 content with
  | .error _ => .error .notUtf8
  | .ok text => .ok text

def write (fs : Files) (place : Location) (content : ByteArray) : Except FileFault Files := do
  let found ← fs.locate place.withoutSlashes
  if place.withoutSlashes ≠ place then .error .isDirectory
  else match fs.entry? found with
    | some .directory => .error .isDirectory
    | _ => .ok ((found, .file content) :: fs.erase found)

def remove (fs : Files) (place : Location) : Except FileFault Files := do
  let place ← fs.locate place
  match fs.entry? place with
  | none => .error .notFound
  | some .directory => .error .isDirectory
  | some (.file _) => .ok (fs.erase place)

def makeDirectory (fs : Files) (place : Location) : Except FileFault Files := do
  let place ← fs.locate place.withoutSlashes
  match fs.entry? place with
  | some _ => .error .alreadyExists
  | none => .ok ((place, .directory) :: fs)

def makeBelow (fs : Files) (done : Location) : Location → Except FileFault Files
  | [] => .ok fs
  | name :: rest =>
      if name = ".." then makeBelow fs done.dropLast rest
      else match fs.entry? (done ++ [name]) with
        | some .directory => makeBelow fs (done ++ [name]) rest
        | some (.file _) => .error (if rest = [] then .alreadyExists else .notDirectory)
        | none => do
            let fs ← fs.makeDirectory (done ++ [name])
            makeBelow fs (done ++ [name]) rest

def makeDirectories (fs : Files) (place : Location) : Except FileFault Files :=
  if place.hasNull then .error .nullCharacter else fs.makeBelow [] place

end Files

end UpdateProtocol
