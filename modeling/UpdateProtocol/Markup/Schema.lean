import UpdateProtocol.Markup.Content
import UpdateProtocol.Markup.Scalar

namespace UpdateProtocol.Markup

abbrev TextReader (σ : Type) := List Char → σ → Except Malformation σ

abbrev ElementReader (σ : Type) := Scope → Tag → Content → σ → Except Malformation σ

inductive Child (σ : Type) where
  | one (read : ElementReader σ)
  | optional (read : ElementReader σ)
  | many (item : String) (read : ElementReader σ)

structure Field (σ : Type) where
  ofValue : TextReader σ
  ofText : TextReader σ
  isOptional : Bool

structure Schema (σ : Type) where
  fresh : σ
  attributes : List (String × Field σ) := []
  children : List (String × Child σ) := []
  required : List String := []
  inOrder : σ → σ := id

structure OpenList (σ : Type) where
  name : List Char
  item : String
  read : ElementReader σ

structure Reading (σ : Type) where
  record : σ
  seen : List String := []
  list : Option (OpenList σ) := none

def skip (children : Content) : Except Malformation Unit :=
  match children with
  | .text run _ => if (runValue? run).isSome then .ok () else .error .markup
  | _ => .ok ()

def leaf : Content → Except Malformation (List Char)
  | .closed => .ok []
  | .text run .closed => match runValue? run with
    | some text => .ok text
    | none => .error .markup
  | _ => .error .markup

def Field.read {σ : Type} (f : Field σ) : ElementReader σ :=
  fun _ _ children s => do f.ofText (← leaf children) s

def Field.child {σ : Type} (f : Field σ) : Child σ :=
  if f.isOptional then .optional f.read else .one f.read

def fieldOfKey (key : List Char) : String :=
  if key = "xmlns".toList || qualifier? key = some "xmlns".toList then String.ofList ('@' :: key)
  else String.ofList ('@' :: localName key)

def scopeAt (scope : Scope) (tag : Tag) (children : Content) : Scope :=
  let inner := (scope.enter? tag.text).getD scope
  match children with
  | .element first _ _ => (inner.enter? first.text).getD inner
  | _ => inner

def isAbsent (scope : Scope) (parent tag : Tag) (children : Content) : Bool :=
  let scope := scopeAt scope tag children
  scope.marksNil tag.text || scope.marksNil parent.text

namespace Schema

variable {σ : Type}

/-- The elements that a record knows. One that is named as the field of an attribute, its sign
included, stands for that attribute. -/
def fields (sch : Schema σ) : List (String × Child σ) :=
  sch.children ++ sch.attributes.map fun f => (f.1, f.2.child)

def child? (sch : Schema σ) (name : String) : Option (Child σ) := sch.fields.lookup name

def readAttribute (sch : Schema σ) (r : Reading σ) (a : Attribute) :
    Except Malformation (Reading σ) :=
  let field := fieldOfKey a.key
  match sch.attributes.lookup field with
  | none => .ok r
  | some f =>
      if field ∈ r.seen then .error (.duplicate field)
      else do
        let record ← f.ofValue a.value r.record
        .ok { r with record, seen := field :: r.seen }

def readAttributes (sch : Schema σ) (r : Reading σ) (text : List Char) :
    Except Malformation (Reading σ) := do
  let (attributes, fine) := Attribute.strictly [] (Attribute.items text)
  let r ← attributes.foldlM sch.readAttribute r
  if fine then .ok r else .error .markup

def readField (sch : Schema σ) (scope : Scope) (parent tag : Tag) (children : Content)
    (r : Reading σ) : Except Malformation (Reading σ) :=
  let field := tag.plainName
  match sch.child? field with
  | none => do
      skip children
      .ok { r with list := none }
  | some child =>
      if field ∈ r.seen then .error (.duplicate field)
      else
        let r := { r with seen := field :: r.seen, list := none }
        match child with
        | .one read => do
            let record ← read scope tag children r.record
            .ok { r with record }
        | .optional read =>
            if isAbsent scope parent tag children then do
              skip children
              .ok r
            else do
              let record ← read scope tag children r.record
              .ok { r with record }
        | .many item read => do
            let record ← read scope tag children r.record
            .ok { r with record, list := some ⟨tag.name, item, read⟩ }

def readChild (sch : Schema σ) (scope : Scope) (parent tag : Tag) (children : Content)
    (r : Reading σ) : Except Malformation (Reading σ) :=
  match r.list with
  | some list =>
      if list.name = tag.name then do
        let record ← list.read scope tag children r.record
        .ok { r with record }
      else sch.readField scope parent tag children r
  | none => sch.readField scope parent tag children r

def readText (r : Reading σ) (run : List Piece) : Except Malformation (Reading σ) :=
  match runValue? run, r.list with
  | none, _ => .error .markup
  | some s, some list => .error (.wrongType (String.ofList s) ("struct " ++ list.item))
  | some _, none => .ok r

def readContent (sch : Schema σ) (scope : Scope) (parent : Tag) :
    Content → Reading σ → Except Malformation (Reading σ)
  | .closed, r => .ok r
  | .broken, _ => .error .markup
  | .text run rest, r =>
      match readText r run with
      | .error e => .error e
      | .ok r => readContent sch scope parent rest r
  | .element tag children rest, r =>
      match sch.readChild scope parent tag children r with
      | .error e => .error e
      | .ok r => readContent sch scope parent rest r

def read (sch : Schema σ) (scope : Scope) (tag : Tag) (children : Content) :
    Except Malformation σ := do
  let r ← sch.readAttributes { record := sch.fresh } tag.text
  let r ← sch.readContent ((scope.enter? tag.text).getD scope) tag children r
  match sch.required.find? (· ∉ r.seen) with
  | some field => .error (.missing field)
  | none => .ok (sch.inOrder r.record)

def readDocument (sch : Schema σ) (item : String) : Content → Except Malformation σ
  | .text run _ => match runValue? run with
    | some s => .error (.wrongType (String.ofList s) ("struct " ++ item))
    | none => .error .markup
  | .element tag children _ => sch.read [] tag children
  | _ => .error .markup

def field {α : Type} (name : String) (x : Scalar α) (put : α → σ → σ) : String × Field σ :=
  ("@" ++ name,
    { ofValue := fun raw s => (x.ofValue raw).map (put · s)
      ofText := fun text s => (x.ofText text).map (put · s)
      isOptional := x.isOptional })

def keep {τ : Type} (sch : Schema τ) (put : τ → σ → σ) : ElementReader σ :=
  fun scope tag children s => (sch.read scope tag children).map (put · s)

end Schema

end UpdateProtocol.Markup
