import LocalizationAudit.Error
import LocalizationAudit.Literal.Segments
import LocalizationAudit.SyntaxTree.Cursor
import LocalizationAudit.Text.Order

/-!
The static texts of all string literals of a source. The syntax tree is given: any parser will
do that marks what it could not parse.
-/

namespace LocalizationAudit

structure Grammar where
  language : String
  parse : Except String (Bytes → SyntaxNode)

def segmentTexts (source : Bytes) : List SyntaxNode → Except DecodeFailure (List String)
  | [] => .ok []
  | node :: others => do
      let segments ← node.segments source
      let texts ← segmentTexts source others
      return (segments.filter fun segment => !segment.isEmpty).map String.ofList ++ texts

def literalsOfTree (source : Bytes) (file : String) (root : SyntaxNode) :
    Except Failure (List String) :=
  if root.hasError then
    .error (.audit (.unparsableSource file (root.firstErrorLine source)))
  else
    match segmentTexts source (Cursor.ofRoot root).literals with
    | .ok texts => .ok texts.eraseDups
    | .error failure => .error (.undecodable (.rejected failure))

def Grammar.extract (grammar : Grammar) (source : Bytes) (file : String) :
    Except Failure (List String) :=
  match grammar.parse with
  | .ok parse => literalsOfTree source file (parse source)
  | .error reason => .error (.audit (.grammarNotLoaded grammar.language reason))

def Grammar.extractBytes (grammar : Grammar) (source : Bytes) (file : String) :
    Except Failure (List String) :=
  match decodeText source sourceEncodings with
  | .ok _ => grammar.extract source file
  | .error error => .error (.audit (.undecodableSource file error.reason))

end LocalizationAudit
