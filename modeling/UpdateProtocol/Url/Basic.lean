import UpdateProtocol.Url.Host
import UpdateProtocol.Url.Path

namespace UpdateProtocol

open UpdateProtocol.Text

structure Authority where
  user : List Char := []
  password : List Char := []
  host : Host
  port : Option Nat := none
  deriving DecidableEq, Repr

structure Url where
  scheme : List Char
  authority : Option Authority := none
  path : UrlPath
  query : Option (List Char) := none
  fragment : Option (List Char) := none
  deriving DecidableEq, Repr

namespace Authority

def text (a : Authority) : List Char :=
  let password := if a.password = [] then [] else ':' :: a.password
  let login := a.user ++ password
  (if login = [] then [] else login ++ ['@']) ++ a.host.text ++
    match a.port with
    | some port => ':' :: Nat.toDigits 10 port
    | none => []

def splitPort (inside : Bool) : List Char → List Char × Option (List Char)
  | [] => ([], none)
  | c :: rest =>
      if c = ':' && !inside then ([], some rest)
      else
        let (host, port) := splitPort (if c = '[' then true else if c = ']' then false else inside) rest
        (c :: host, port)

def readPort (usual : Option Nat) (s : List Char) : Except UrlFault (Option Nat) :=
  if s.all (Host.isDigit 10) then
    let port := Host.numberOf 10 s
    if 65535 < port then .error .port
    else if s = [] ∨ some port = usual then .ok none
    else .ok (some port)
  else .error .port

def splitLogin (s : List Char) : Option (List Char) × List Char :=
  match splitLast? '@' s with
  | some (login, address) => (some login, address)
  | none => (none, s)

def splitPassword (login : List Char) : List Char × List Char :=
  match splitFirst? ':' login with
  | some (user, password) => (user, password)
  | none => (login, [])

def readAnyPort (usual : Option Nat) (port : Option (List Char)) : Except UrlFault (Option Nat) :=
  match port with
  | some digits => readPort usual digits
  | none => .ok none

def read [Idna] (web more : Bool) (usual : Option Nat) (s : List Char) :
    Except UrlFault Authority :=
  let (login, address) := splitLogin s
  let (user, password) := splitPassword (login.getD [])
  let (name, port) := splitPort false address
  if (login = some [] ∧ address = [] ∧ more) ∨ (web ∧ name = []) then .error .emptyHost
  else do
    let host ← (if web then Host.read else Host.readOpaque) name
    if host = .name [] ∧ port.isSome then .error .emptyHost
    else
      let port ← readAnyPort usual port
      if host = .name [] ∧ (user ≠ [] ∨ password ≠ []) then .error .emptyHost
      else
        pure
          { user := percentEncode escapedInUser user
            password := percentEncode escapedInUser password
            host, port }

end Authority

namespace Url

def isSchemeChar (c : Char) : Bool := c.isAlphanum || c = '+' || c = '-' || c = '.'

def splitScheme? (s : List Char) : Option (List Char × List Char) :=
  match splitFirst? ':' s with
  | some (c :: rest, after) =>
      if c.isAlpha && rest.all isSchemeChar then some ((c :: rest).map Char.toLower, after)
      else none
  | _ => none

def webSchemes : List (List Char × Nat) :=
  [("http".toList, 80), ("https".toList, 443), ("ws".toList, 80), ("wss".toList, 443),
    ("ftp".toList, 21)]

def isWebSlash (c : Char) : Bool := c = '/' || c = '\\'

def readWeb [Idna] (scheme : List Char) (port : Nat) (s : List Char) : Except UrlFault Url := do
  let s := s.dropWhile isWebSlash
  let path := s.dropWhile fun c => !isWebSlash c
  let authority ← Authority.read true (path ≠ []) (some port) (s.takeWhile fun c => !isWebSlash c)
  pure { scheme, authority := some authority, path := .read true false path }

def readFileHost [Idna] (s : List Char) : Except UrlFault Host :=
  if s = [] then .ok (.name [])
  else match Host.read s with
    | .ok host => .ok (if host = .name "localhost".toList then .name [] else host)
    | .error fault => .error fault

def readFile [Idna] (scheme s : List Char) : Except UrlFault Url := do
  let hostless (path : List Char) : Url :=
    { scheme, authority := some { host := .name [] }, path := .read true true path }
  match s with
  | a :: b :: rest =>
      if isWebSlash a && isWebSlash b then
        let name := rest.takeWhile fun c => !isWebSlash c
        if UrlPath.isDriveLike name then pure (hostless rest)
        else
          let host ← readFileHost name
          pure
            { scheme, authority := some { host }
              path := .read true true (rest.dropWhile fun c => !isWebSlash c) }
      else pure (hostless s)
  | s => pure (hostless s)

def readOther [Idna] (scheme s : List Char) : Except UrlFault Url := do
  match s with
  | '/' :: '/' :: rest =>
      let path := rest.dropWhile (· ≠ '/')
      let authority ← Authority.read false (path ≠ []) none (rest.takeWhile (· ≠ '/'))
      pure { scheme, authority := some authority, path := .read false false path }
  | '/' :: rest => pure { scheme, path := .read false false ('/' :: rest) }
  | s => pure { scheme, path := .readOpaque s }

def stripped (s : List Char) : List Char :=
  let isOuter (c : Char) : Bool := c.toNat ≤ 0x20
  ((s.dropWhile isOuter).reverse.dropWhile isOuter).reverse.filter fun c =>
    !(c = '\t' || c = '\n' || c = '\x0d')

def isWeb (scheme : List Char) : Bool :=
  (webSchemes.lookup scheme).isSome || scheme = "file".toList

def readMain [Idna] (scheme s : List Char) : Except UrlFault Url :=
  match webSchemes.lookup scheme with
  | some port => readWeb scheme port s
  | none => if isWeb scheme then readFile scheme s else readOther scheme s

def parse [Idna] (text : String) : Except UrlFault Url :=
  match splitScheme? (stripped text.toList) with
  | none => .error .relative
  | some (scheme, after) =>
      let (main, fragment) := cutAt '#' after
      let (main, query) := cutAt '?' main
      let escaped := if isWeb scheme then escapedInWebQuery else escapedInQuery
      (readMain scheme main).map fun url =>
        { url with
          query := query.map (percentEncode escaped)
          fragment := fragment.map (percentEncode escapedInFragment) }

def text (u : Url) : String :=
  let path := u.path.text
  let front := match u.authority with
    | some a => '/' :: '/' :: a.text
    | none => match u.path, path with
      | .segments _, '/' :: '/' :: _ => ['/', '.']
      | _, _ => []
  let after (mark : Char) (part : Option (List Char)) : List Char :=
    match part with
    | some s => mark :: s
    | none => []
  String.ofList
    (u.scheme ++ ':' :: front ++ path ++ after '?' u.query ++ after '#' u.fragment)

def host? (u : Url) : Option Host :=
  match u.authority with
  | some a => if a.host = .name [] then none else some a.host
  | none => none

def isHttp (u : Url) : Bool := u.scheme = "http".toList || u.scheme = "https".toList

def withoutLogin (u : Url) : Url :=
  match u.authority with
  | some a =>
      if (percentDecode? (String.ofList a.user)).isSome &&
          (percentDecode? (String.ofList a.password)).isSome then
        { u with authority := some { a with user := [], password := [] } }
      else u
  | none => u

end Url

end UpdateProtocol
