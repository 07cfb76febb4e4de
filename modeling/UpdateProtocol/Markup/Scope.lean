import UpdateProtocol.Markup.Attribute

namespace UpdateProtocol.Markup

structure Binding where
  qualifier : List Char
  space : List Char
  deriving DecidableEq, Repr

abbrev Scope := List Binding

namespace Scope

def xmlSpace : List Char := "http://www.w3.org/XML/1998/namespace".toList

def bindingSpace : List Char := "http://www.w3.org/2000/xmlns/".toList

def instanceSpace : List Char := "http://www.w3.org/2001/XMLSchema-instance".toList

def bind? (scope : Scope) (a : Attribute) : Option Scope :=
  match qualifier? a.key with
  | none => some scope
  | some q =>
      if q ≠ "xmlns".toList then some scope
      else
        let name := localName a.key
        if name = [] then some scope
        else if name = "xml".toList then if a.value = xmlSpace then some scope else none
        else if name = "xmlns".toList then none
        else if a.value = xmlSpace || a.value = bindingSpace then none
        else some (⟨name, a.value⟩ :: scope)

def enter? (scope : Scope) (text : List Char) : Option Scope :=
  (Attribute.untilMalformed (Attribute.items text)).foldlM bind? scope

def resolve? (scope : Scope) (qualifier : List Char) : Option (List Char) :=
  (scope.find? (·.qualifier = qualifier)).map Binding.space

def isNil (scope : Scope) (a : Attribute) : Bool :=
  (qualifier? a.key).bind (resolve? scope) = some instanceSpace &&
    localName a.key = "nil".toList &&
    (a.value = "true".toList || a.value = "1".toList)

def marksNil (scope : Scope) (text : List Char) : Bool :=
  (Attribute.leniently [] (Attribute.items text)).any scope.isNil

end Scope

end UpdateProtocol.Markup
