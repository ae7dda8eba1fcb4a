import LocalizationAudit.Encoding.Codec
import LocalizationAudit.Swift.Grammar

/-!
The syntax tree of a Swift source, as far as string literals are concerned: a root with the
literals below it, and a node for the first fault.
-/

namespace LocalizationAudit.Swift

/-- A literal or an interpolation that is still open; its children are kept last one first. -/
structure OpenNode where
  kind : NodeKind
  start : Nat
  children : List SyntaxNode

def leaf (kind : NodeKind) (span : Span) : SyntaxNode :=
  .mk kind span .sound []

def OpenNode.close (node : OpenNode) (stop : Nat) : SyntaxNode :=
  .mk node.kind ⟨node.start, stop⟩ .sound node.children.reverse

def addChild (child : SyntaxNode) : List OpenNode → List OpenNode
  | [] => []
  | node :: outer => { node with children := child :: node.children } :: outer

def closeInnermost (stop : Nat) : List OpenNode → List OpenNode
  | node :: parent :: outer => addChild (node.close stop) (parent :: outer)
  | stack => stack

def delimiter (form : LiteralForm) (span : Span) : SyntaxNode :=
  leaf (if form == .raw then .text else .other) span

def innermostForm : List OpenNode → LiteralForm
  | ⟨.literal form, _, _⟩ :: _ => form
  | _ => .line

def addToken (stack : List OpenNode) (token : Token) : List OpenNode :=
  match token.kind with
  | .literalOpen form =>
      ⟨.literal form, token.span.start, [delimiter form token.span]⟩ :: stack
  | .literalText => addChild (leaf .text token.span) stack
  | .literalComment => addChild (leaf .other token.span) stack
  | .literalClose =>
      closeInnermost token.span.stop (addChild (delimiter (innermostForm stack) token.span) stack)
  | .interpolationOpen => ⟨.interpolation, token.span.start, []⟩ :: stack
  | .interpolationClose => closeInnermost token.span.stop stack
  | _ => stack

def closeAll (stop : Nat) : List OpenNode → List SyntaxNode
  | [] => []
  | [root] => root.children.reverse
  | node :: parent :: outer =>
      closeAll stop ({ parent with children := node.close stop :: parent.children } :: outer)
termination_by stack => stack.length

def literalNodes (stop : Nat) (tokens : List Token) : List SyntaxNode :=
  closeAll stop (tokens.foldl addToken [⟨.other, 0, []⟩])

def SourceFault.node (tokens : List Token) (stop : Nat) : SourceFault → SyntaxNode
  | .unexpected offset => leaf .error ⟨offset, offset⟩
  | .incomplete =>
      let offset := (tokens.getLast?.map (·.span.start)).getD 0
      leaf .error ⟨offset, stop⟩
  | .unclosed => .mk .other ⟨stop, stop⟩ .missing []

def treeOfText (text : List Char) : SyntaxNode :=
  let tokens := tokens text
  let stop := byteLength text
  let faults := (sourceFault? tokens).toList.map (SourceFault.node tokens stop)
  .mk .other ⟨0, stop⟩ .sound (literalNodes stop tokens ++ faults)

def tree (source : Bytes) : SyntaxNode :=
  match Encoding.decode source .utf8 with
  | .ok text => treeOfText text
  | .error failure => leaf .error ⟨failure.start, failure.stop⟩

end LocalizationAudit.Swift
