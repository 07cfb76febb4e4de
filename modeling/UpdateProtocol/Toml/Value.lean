namespace UpdateProtocol

inductive TableOrigin where
  | braces
  | header
  | implied
  | dotted
  deriving DecidableEq, Repr

inductive Toml where
  | string (text : String)
  | integer (n : Int)
  | boolean (b : Bool)
  | float
  | date
  | list (isOpen : Bool) (items : List Toml)
  | table (origin : TableOrigin) (entries : List (String × Toml))

namespace Toml

abbrev Entries := List (String × Toml)

def set (key : String) (value : Toml) : Entries → Entries
  | [] => [(key, value)]
  | (k, v) :: rest => if k = key then (key, value) :: rest else (k, v) :: set key value rest

def change (origin : TableOrigin) (change? : Bool → Entries → Option Entries) :
    List String → Bool → Entries → Option Entries
  | [], isDotted, entries => change? isDotted entries
  | key :: path, _, entries =>
      match entries.lookup key with
      | none => do
          let inner ← change origin change? path (origin = .dotted) []
          some (set key (.table origin inner) entries)
      | some (.table found inner) =>
          if found = .braces ∨ (origin = .dotted ∧ found = .header) then none
          else do
            let inner ← change origin change? path (found = .dotted) inner
            some (set key (.table found inner) entries)
      | some (.list true items) =>
          match items.reverse with
          | .table found inner :: before => do
              let inner ← change origin change? path false inner
              some (set key (.list true (before.reverse ++ [.table found inner])) entries)
          | _ => none
      | some _ => none

def insert (path : List String) (key : String) (value : Toml) (entries : Entries) :
    Option Entries :=
  change .dotted
    (fun isDotted entries =>
      if isDotted = path.isEmpty ∨ (entries.lookup key).isSome then none
      else some (entries ++ [(key, value)]))
    path false entries

def insertBelow (header path : List String) (key : String) (value : Toml) (entries : Entries) :
    Option Entries :=
  change .implied (fun _ entries => insert path key value entries) header false entries

def startTable (path : List String) (key : String) (entries : Entries) : Option Entries :=
  change .implied
    (fun _ entries => match entries.lookup key with
      | none => some (set key (.table .header []) entries)
      | some (.table .implied inner) => some (set key (.table .header inner) entries)
      | some _ => none)
    path false entries

def startItem (path : List String) (key : String) (entries : Entries) : Option Entries :=
  change .implied
    (fun _ entries => match entries.lookup key with
      | none => some (set key (.list true [.table .header []]) entries)
      | some (.list true items) => some (set key (.list true (items ++ [.table .header []])) entries)
      | some _ => none)
    path false entries

end Toml

end UpdateProtocol
