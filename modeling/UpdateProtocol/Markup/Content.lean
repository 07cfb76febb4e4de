import UpdateProtocol.Markup.Entity
import UpdateProtocol.Markup.Token

namespace UpdateProtocol.Markup

inductive Content where
  | closed
  | broken
  | text (run : List Piece) (rest : Content)
  | element (tag : Tag) (children rest : Content)
  deriving DecidableEq, Repr

namespace Content

def push (token : Token) (levels : List Content) : List Content :=
  match token, levels with
  | .stop, levels => .closed :: levels
  | .text run, inner :: outer => .text run inner :: outer
  | .start tag, children :: rest :: outer => .element tag children rest :: outer
  | .start tag, [children] => [.element tag children .broken]
  | _, [] => []

def ofTokens (ts : List Token) : Content :=
  match ts.foldr push [.broken] with
  | content :: _ => content
  | [] => .broken

def parse (text : List Char) : Content :=
  ofTokens (tokens text)

end Content

def Piece.value? : Piece → Option (List Char)
  | .chars s => unescape? s
  | .raw s => some s

def runValue? (run : List Piece) : Option (List Char) :=
  (run.mapM Piece.value?).map List.flatten

def Tag.of (name : String) (attributes : List (String × String)) : Tag :=
  ⟨name.toList, attributes.flatMap fun a =>
    ' ' :: a.1.toList ++ "=\"".toList ++ escape a.2.toList ++ ['"']⟩

namespace Content

def writeAfter (done : List Char) : Content → List Char
  | .closed => done
  | .broken => done
  | .text run rest =>
      writeAfter (run.foldl (fun done p => match p with
        | .chars s => s.reverse ++ done
        | .raw s => (("<![CDATA[".toList ++ s ++ "]]>".toList).reverse ++ done)) done) rest
  | .element tag children rest =>
      let opened := tag.text.reverse ++ (tag.name.reverse ++ ('<' :: done))
      match children with
      | .closed => writeAfter ('>' :: '/' :: opened) rest
      | children =>
          writeAfter ('>' :: (tag.name.reverse ++ ('/' :: '<' ::
            writeAfter ('>' :: opened) children))) rest

def write (c : Content) : List Char :=
  (c.writeAfter []).reverse

end Content

end UpdateProtocol.Markup
