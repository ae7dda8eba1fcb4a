/-!
Syntax trees of Swift sources. A node keeps the bytes it covers, what it means for string
literals, and whether the parser had to repair the source there.
-/

namespace LocalizationAudit

inductive LiteralForm where
  | line
  | multiLine
  | raw
  deriving DecidableEq, Repr

def LiteralForm.name : LiteralForm → String
  | .line => "line_string_literal"
  | .multiLine => "multi_line_string_literal"
  | .raw => "raw_string_literal"

inductive NodeKind where
  | literal (form : LiteralForm)
  | text
  | interpolation
  | error
  | other
  deriving DecidableEq, Repr

def textNodeNames : List String :=
  ["line_str_text", "multi_line_str_text", "str_escaped_char", "raw_str_part",
    "raw_str_end_part", "\""]

def interpolationNodeNames : List String :=
  ["\\(", "interpolated_expression", "raw_str_interpolation", "raw_str_interpolation_start"]

def NodeKind.ofName (name : String) : NodeKind :=
  if name == LiteralForm.line.name then .literal .line
  else if name == LiteralForm.multiLine.name then .literal .multiLine
  else if name == LiteralForm.raw.name then .literal .raw
  else if textNodeNames.contains name then .text
  else if interpolationNodeNames.contains name then .interpolation
  else if name == "ERROR" then .error
  else .other

/-- A missing node was inserted by the parser; a flagged one holds some other fault. -/
inductive NodeMark where
  | sound
  | missing
  | flagged
  deriving DecidableEq, Repr

structure Span where
  start : Nat
  stop : Nat
  deriving DecidableEq, Repr

inductive SyntaxNode where
  | mk (kind : NodeKind) (span : Span) (mark : NodeMark) (children : List SyntaxNode)

namespace SyntaxNode

instance : Inhabited SyntaxNode := ⟨mk .other ⟨0, 0⟩ .sound []⟩

def kind : SyntaxNode → NodeKind
  | mk kind _ _ _ => kind

def span : SyntaxNode → Span
  | mk _ span _ _ => span

def mark : SyntaxNode → NodeMark
  | mk _ _ mark _ => mark

def children : SyntaxNode → List SyntaxNode
  | mk _ _ _ children => children

def start (node : SyntaxNode) : Nat :=
  node.span.start

def stop (node : SyntaxNode) : Nat :=
  node.span.stop

def literalForm? (node : SyntaxNode) : Option LiteralForm :=
  match node.kind with
  | .literal form => some form
  | _ => none

def isLiteral (node : SyntaxNode) : Bool :=
  node.literalForm?.isSome

def isText (node : SyntaxNode) : Bool :=
  node.kind == .text

def isInterpolation (node : SyntaxNode) : Bool :=
  node.kind == .interpolation

def isFaultSite (node : SyntaxNode) : Bool :=
  node.kind == .error || node.mark == .missing

def isFaulty (node : SyntaxNode) : Bool :=
  node.kind == .error || node.mark != .sound

mutual

def size : SyntaxNode → Nat
  | mk _ _ _ children => 1 + sizeAll children

def sizeAll : List SyntaxNode → Nat
  | [] => 0
  | node :: others => node.size + sizeAll others

end

mutual

def preorder : SyntaxNode → List SyntaxNode
  | mk kind span mark children => mk kind span mark children :: preorderAll children

def preorderAll : List SyntaxNode → List SyntaxNode
  | [] => []
  | node :: others => node.preorder ++ preorderAll others

end

mutual

def hasError : SyntaxNode → Bool
  | mk kind span mark children => (mk kind span mark children).isFaulty || anyError children

def anyError : List SyntaxNode → Bool
  | [] => false
  | node :: others => node.hasError || anyError others

end

end SyntaxNode

end LocalizationAudit
