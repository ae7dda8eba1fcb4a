import LocalizationAudit.SyntaxTree.Cursor

/-!
A cursor that always moves to the next place visits a tree in document order. What it has still to
visit is the focus with everything below it, and then everything pending.
-/

namespace LocalizationAudit

namespace SyntaxNode

theorem preorder_eq (node : SyntaxNode) : node.preorder = node :: preorderAll node.children := by
  cases node
  rw [preorder, children]

theorem mem_preorder_self (node : SyntaxNode) : node ∈ node.preorder := by
  rw [preorder_eq]
  exact List.mem_cons_self

theorem mem_preorderAll_iff {nodes : List SyntaxNode} {found : SyntaxNode} :
    found ∈ preorderAll nodes ↔ ∃ node ∈ nodes, found ∈ node.preorder := by
  induction nodes with
  | nil => simp [preorderAll]
  | cons node others ih => simp [preorderAll, ih]

mutual

theorem child_mem_preorder {node child : SyntaxNode} (isChild : child ∈ node.children) :
    ∀ root : SyntaxNode, node ∈ root.preorder → child ∈ root.preorder
  | mk kind span mark nodes, member => by
      rw [preorder, List.mem_cons] at member ⊢
      rcases member with rfl | below
      · exact .inr (mem_preorderAll_iff.mpr ⟨child, isChild, child.mem_preorder_self⟩)
      · exact .inr (child_mem_preorderAll isChild nodes below)

theorem child_mem_preorderAll {node child : SyntaxNode} (isChild : child ∈ node.children) :
    ∀ nodes : List SyntaxNode, node ∈ preorderAll nodes → child ∈ preorderAll nodes
  | [], member => by simp [preorderAll] at member
  | first :: others, member => by
      rw [preorderAll, List.mem_append] at member ⊢
      exact member.imp (child_mem_preorder isChild first) (child_mem_preorderAll isChild others)

end

mutual

theorem hasError_eq_any : ∀ root : SyntaxNode, root.hasError = root.preorder.any isFaulty
  | mk kind span mark nodes => by
      rw [hasError, preorder, List.any_cons, anyError_eq_any nodes]

theorem anyError_eq_any : ∀ nodes : List SyntaxNode,
    anyError nodes = (preorderAll nodes).any isFaulty
  | [] => rfl
  | node :: others => by
      rw [anyError, preorderAll, List.any_append, hasError_eq_any node, anyError_eq_any others]

end

theorem hasError_iff {root : SyntaxNode} :
    root.hasError = true ↔ ∃ node ∈ root.preorder, node.isFaulty = true := by
  rw [hasError_eq_any, List.any_eq_true]

end SyntaxNode

namespace Cursor

def pendingNodes (pending : List (List SyntaxNode)) : List SyntaxNode :=
  pending.flatMap SyntaxNode.preorderAll

def unvisited (cursor : Cursor) : List SyntaxNode :=
  cursor.focus.preorder ++ pendingNodes cursor.pending

def unvisitedFrom : Option Cursor → List SyntaxNode
  | some cursor => cursor.unvisited
  | none => []

theorem unvisitedFrom_ofPending? (pending : List (List SyntaxNode)) :
    unvisitedFrom (ofPending? pending) = pendingNodes pending := by
  fun_induction ofPending? pending with
  | case1 => rfl
  | case2 outer ih => simpa [pendingNodes, SyntaxNode.preorderAll] using ih
  | case3 node others outer =>
      simp [unvisitedFrom, unvisited, pendingNodes, SyntaxNode.preorderAll]

theorem unvisited_eq (cursor : Cursor) :
    cursor.unvisited = cursor.focus :: unvisitedFrom cursor.next? := by
  have following : unvisitedFrom cursor.following? = pendingNodes cursor.pending :=
    unvisitedFrom_ofPending? cursor.pending
  rw [unvisited, SyntaxNode.preorder_eq, List.cons_append]
  unfold next? firstChild?
  cases children : cursor.focus.children with
  | nil => simp [following, SyntaxNode.preorderAll]
  | cons child others =>
      simp [unvisitedFrom, unvisited, pendingNodes, SyntaxNode.preorderAll]

theorem literals_step (cursor : Cursor) :
    cursor.literals =
      let later := (cursor.next?.map literals).getD []
      if cursor.focus.isLiteral then cursor.focus :: later else later := by
  rw [literals]
  cases found : cursor.next? with
  | none => simp
  | some next => simp

theorem literals_eq (cursor : Cursor) :
    cursor.literals = cursor.unvisited.filter SyntaxNode.isLiteral := by
  induction size : cursor.remaining using Nat.strongRecOn generalizing cursor with
  | ind count ih =>
      have later : (cursor.next?.map literals).getD [] =
          (unvisitedFrom cursor.next?).filter SyntaxNode.isLiteral := by
        cases found : cursor.next? with
        | none => rfl
        | some next => exact ih _ (size ▸ remaining_next? found) next rfl
      rw [literals_step, unvisited_eq, List.filter_cons, later]

theorem unvisited_ofRoot (root : SyntaxNode) : (ofRoot root).unvisited = root.preorder := by
  rw [unvisited, ofRoot, pendingNodes, List.flatMap_nil, List.append_nil]

theorem literals_ofRoot (root : SyntaxNode) :
    (ofRoot root).literals = root.preorder.filter SyntaxNode.isLiteral := by
  rw [literals_eq, unvisited_ofRoot]

end Cursor

end LocalizationAudit
