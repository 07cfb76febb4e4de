import Mathlib.Tactic.MkIffOfInductiveProp
import UpdateProtocol.Markup.Content
import UpdateProtocol.Proofs.Markup.Spelling

namespace UpdateProtocol.Markup

open UpdateProtocol.Text

namespace Source

def IsGap (s : List Char) : Prop := ∀ c ∈ s, isSpace c = true

instance (s : List Char) : Decidable (IsGap s) :=
  decidable_of_iff (s.all isSpace = true) List.all_eq_true

def isMark (c : Char) : Bool :=
  isSpace c || c ∈ ['<', '>', '/', '=', '"', '\'', '&', '!', '?', '@']

def IsWord (s : List Char) : Prop := s ≠ [] ∧ ∀ c ∈ s, isMark c = false

instance (s : List Char) : Decidable (IsWord s) :=
  decidable_of_iff (s ≠ [] ∧ s.all (! isMark ·) = true) <| by simp [IsWord]

structure Attribute where
  gap : List Char := [' ']
  key : List Char
  beforeEquals : List Char := []
  afterEquals : List Char := []
  quote : Char := '"'
  raw : List Char

namespace Attribute

def text (a : Attribute) : List Char :=
  a.gap ++ a.key ++ a.beforeEquals ++ '=' :: a.afterEquals ++ a.quote :: a.raw ++ [a.quote]

def read (a : Attribute) : Markup.Attribute := ⟨a.key, a.raw⟩

@[mk_iff]
structure IsFine (a : Attribute) : Prop where
  separate : a.gap ≠ []
  gap : IsGap a.gap
  key : IsWord a.key
  beforeEquals : IsGap a.beforeEquals
  afterEquals : IsGap a.afterEquals
  quote : a.quote = '"' ∨ a.quote = '\''
  raw : a.quote ∉ a.raw

instance (a : Attribute) : Decidable a.IsFine := decidable_of_iff _ (isFine_iff a).symm

end Attribute

structure Tag where
  name : List Char
  attributes : List Attribute := []
  gap : List Char := []

namespace Tag

def text (t : Tag) : List Char := t.attributes.flatMap Attribute.text ++ t.gap

def read (t : Tag) : Markup.Tag := ⟨t.name, t.text⟩

def value? (t : Tag) (key : String) : Option (List Char) :=
  (t.attributes.find? (·.key = key.toList)).map Attribute.raw

@[mk_iff]
structure IsPlain (t : Tag) : Prop where
  name : ':' ∉ t.name
  keys : ∀ a ∈ t.attributes, ':' ∉ a.key

instance (t : Tag) : Decidable t.IsPlain := decidable_of_iff _ (isPlain_iff t).symm

@[mk_iff]
structure IsFine (t : Tag) : Prop where
  name : IsWord t.name
  attributes : ∀ a ∈ t.attributes, a.IsFine
  distinct : (t.attributes.map Attribute.key).Nodup
  binds : ∀ a ∈ t.attributes, (Scope.bind? [] a.read).isSome = true
  gap : IsGap t.gap

instance (t : Tag) : Decidable t.IsFine := decidable_of_iff _ (isFine_iff t).symm

end Tag

inductive Aside where
  | comment (s : List Char)
  | instruction (s : List Char)
  | raw (s : List Char)

namespace Aside

def text : Aside → List Char
  | comment s => ['<', '!', '-', '-'] ++ s ++ ['-', '-', '>']
  | instruction s => ['<', '?'] ++ s ++ ['?', '>']
  | raw s => '<' :: "![CDATA[".toList ++ s ++ [']', ']', '>']

def pieces : Aside → List Piece
  | comment _ | instruction _ => []
  | raw s => [.raw s]

def IsFine : Aside → Prop
  | comment s => ¬ ['-', '-', '>'] <:+: s ++ ['-', '-']
  | instruction s => ¬ ['?', '>'] <:+: s ++ ['?']
  | raw s => ¬ [']', ']', '>'] <:+: s ++ [']', ']']

def IsRaw : Aside → Prop
  | comment _ | instruction _ => False
  | raw _ => True

instance : DecidablePred IsFine
  | comment _ | instruction _ | raw _ => inferInstanceAs (Decidable (¬ _))

instance : DecidablePred IsRaw
  | comment _ | instruction _ => .isFalse id
  | raw _ => .isTrue trivial

end Aside

def piecesOf : List Char → List Piece
  | [] => []
  | s => [.chars s]

def IsText (s : List Char) : Prop := '<' ∉ s ∧ ∃ value, Spells s value

theorem isText_of_plain {s : List Char} (hangle : '<' ∉ s) (hampersand : '&' ∉ s) : IsText s :=
  ⟨hangle, s, .self hampersand⟩

structure Gap where
  asides : List (List Char × Aside) := []
  last : List Char := []

namespace Gap

def text (g : Gap) : List Char := g.asides.flatMap (fun a => a.1 ++ a.2.text) ++ g.last

def held (g : Gap) : List Piece := g.asides.flatMap fun a => piecesOf a.1 ++ a.2.pieces

def run (g : Gap) : List Piece := g.held ++ piecesOf g.last

def tokens (g : Gap) : List Token :=
  match Scanner.trimRun g.run.reverse with
  | [] => []
  | run => [.text run]

def before (g : Gap) (c : Content) : Content :=
  match Scanner.trimRun g.run.reverse with
  | [] => c
  | run => .text run c

structure IsFine (g : Gap) : Prop where
  asides : ∀ a ∈ g.asides, IsText a.1 ∧ a.2.IsFine
  last : IsText g.last

theorem IsFine.of_plain {g : Gap}
    (hasides : ∀ a ∈ g.asides, ('<' ∉ a.1 ∧ '&' ∉ a.1) ∧ a.2.IsFine)
    (hlast : '<' ∉ g.last ∧ '&' ∉ g.last) : g.IsFine where
  asides a ha := ⟨isText_of_plain (hasides a ha).1.1 (hasides a ha).1.2, (hasides a ha).2⟩
  last := isText_of_plain hlast.1 hlast.2

theorem IsFine.empty : IsFine {} :=
  .of_plain (List.forall_mem_nil _) ⟨List.not_mem_nil, List.not_mem_nil⟩

@[mk_iff]
structure IsBlank (g : Gap) : Prop where
  asides : ∀ a ∈ g.asides, IsGap a.1 ∧ ¬ a.2.IsRaw
  last : IsGap g.last

instance (g : Gap) : Decidable g.IsBlank := decidable_of_iff _ (isBlank_iff g).symm

end Gap

end Source

inductive Source where
  | done (gap : Source.Gap)
  | element (gap : Source.Gap) (tag : Source.Tag) (stop : Option (List Char))
      (children rest : Source)

namespace Source

structure Element where
  tag : Tag
  stop : Option (List Char) := none
  children : Source := .done {}

def text : Source → List Char
  | done gap => gap.text
  | element gap tag none _ rest =>
      gap.text ++ '<' :: (tag.name ++ tag.text ++ ['/', '>']) ++ rest.text
  | element gap tag (some stop) children rest =>
      gap.text ++ '<' :: (tag.name ++ tag.text ++ ['>']) ++ children.text ++
        '<' :: '/' :: (tag.name ++ stop ++ ['>']) ++ rest.text

def content : Source → Content
  | done gap => gap.before .closed
  | element gap tag _ children rest =>
      gap.before (.element tag.read children.content rest.content)

inductive IsFine : Source → Prop
  | done {gap : Gap} (hgap : gap.IsFine) : IsFine (.done gap)
  | short {gap : Gap} {tag : Tag} {rest : Source} (hgap : gap.IsFine) (htag : tag.IsFine)
      (hrest : IsFine rest) : IsFine (.element gap tag none (.done {}) rest)
  | long {gap : Gap} {tag : Tag} {stop : List Char} {children rest : Source} (hgap : gap.IsFine)
      (htag : tag.IsFine) (hchildren : IsFine children) (hstop : IsGap stop)
      (hrest : IsFine rest) : IsFine (.element gap tag (some stop) children rest)

def elements : Source → List Element
  | done _ => []
  | element _ tag stop children rest => ⟨tag, stop, children⟩ :: rest.elements

def IsSpaced : Source → Prop
  | done gap => gap.IsBlank
  | element gap _ _ _ rest => gap.IsBlank ∧ rest.IsSpaced

instance decidableIsSpaced : DecidablePred IsSpaced
  | done gap => inferInstanceAs (Decidable gap.IsBlank)
  | element gap _ _ _ rest =>
      have := decidableIsSpaced rest
      inferInstanceAs (Decidable (gap.IsBlank ∧ rest.IsSpaced))

def named (s : Source) (name : String) : List Element :=
  s.elements.filter fun e => e.tag.read.plainName = name

def InOneRow (s : Source) (name : String) : Prop :=
  ∃ before row after, s.elements = before ++ row ++ after ∧
    (∀ e ∈ row, e.tag.read.plainName = name) ∧
      ∀ e ∈ before ++ after, e.tag.read.plainName ≠ name

namespace Element

structure Fits (e : Element) (children : List String) : Prop where
  plain : e.tag.IsPlain
  spaced : e.children.IsSpaced
  known : ∀ f ∈ e.children.elements, f.tag.read.plainName ∈ children → f.tag.IsPlain

def IsFine (e : Element) : Prop := Source.IsFine (.element {} e.tag e.stop e.children (.done {}))

end Element

structure Document where
  front : Gap := {}
  root : Element
  tail : List Char := []

namespace Document

def body (d : Document) : Source :=
  .element d.front d.root.tag d.root.stop d.root.children (.done {})

def text (d : Document) : String := String.ofList (d.body.text ++ d.tail)

structure IsFine (d : Document) : Prop where
  front : d.front.IsFine
  blank : d.front.IsBlank
  root : d.root.IsFine

end Document

end Source

end UpdateProtocol.Markup
