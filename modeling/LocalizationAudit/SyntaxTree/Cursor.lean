import LocalizationAudit.SyntaxTree.Basic

/-!
A place in a syntax tree. Moving to the first child, or else to the next sibling of the nearest
ancestor that has one, visits a tree in document order without recursion on its depth.
-/

namespace LocalizationAudit

/-- The right siblings still to be visited: those of the focus first, then of each ancestor. -/
structure Cursor where
  focus : SyntaxNode
  pending : List (List SyntaxNode)

namespace Cursor

def ofRoot (root : SyntaxNode) : Cursor :=
  ⟨root, []⟩

def firstChild? (cursor : Cursor) : Option Cursor :=
  match cursor.focus.children with
  | [] => none
  | child :: others => some ⟨child, others :: cursor.pending⟩

def ofPending? : List (List SyntaxNode) → Option Cursor
  | [] => none
  | [] :: outer => ofPending? outer
  | (node :: others) :: outer => some ⟨node, others :: outer⟩

def following? (cursor : Cursor) : Option Cursor :=
  ofPending? cursor.pending

def next? (cursor : Cursor) : Option Cursor :=
  match cursor.firstChild? with
  | some child => some child
  | none => cursor.following?

def pendingSize : List (List SyntaxNode) → Nat
  | [] => 0
  | siblings :: outer => SyntaxNode.sizeAll siblings + pendingSize outer

def remaining (cursor : Cursor) : Nat :=
  cursor.focus.size + pendingSize cursor.pending

theorem size_eq (node : SyntaxNode) : node.size = 1 + SyntaxNode.sizeAll node.children := by
  cases node
  simp [SyntaxNode.size, SyntaxNode.children]

theorem remaining_ofPending? {pending : List (List SyntaxNode)} {next : Cursor}
    (found : ofPending? pending = some next) : next.remaining = pendingSize pending := by
  fun_induction ofPending? pending with
  | case1 => simp at found
  | case2 outer ih => simpa [pendingSize, SyntaxNode.sizeAll] using ih found
  | case3 node others outer =>
      cases found
      simp [remaining, pendingSize, SyntaxNode.sizeAll]
      omega

theorem remaining_firstChild? {cursor next : Cursor} (found : cursor.firstChild? = some next) :
    next.remaining < cursor.remaining := by
  unfold firstChild? at found
  split at found
  · simp at found
  next child others children =>
    cases found
    simp [remaining, pendingSize, size_eq cursor.focus, children, SyntaxNode.sizeAll]
    omega

theorem remaining_following? {cursor next : Cursor} (found : cursor.following? = some next) :
    next.remaining < cursor.remaining := by
  rw [remaining_ofPending? found, remaining, size_eq]
  omega

theorem remaining_next? {cursor next : Cursor} (found : cursor.next? = some next) :
    next.remaining < cursor.remaining := by
  unfold next? at found
  split at found
  next child first =>
    cases found
    exact remaining_firstChild? first
  · exact remaining_following? found

def literals (cursor : Cursor) : List SyntaxNode :=
  let later :=
    match _ : cursor.next? with
    | some next => literals next
    | none => []
  if cursor.focus.isLiteral then cursor.focus :: later else later
termination_by cursor.remaining
decreasing_by exact remaining_next? ‹_›

def nextTowardsError? (cursor : Cursor) : Option Cursor :=
  if cursor.focus.hasError then cursor.next? else cursor.following?

theorem remaining_nextTowardsError? {cursor next : Cursor}
    (found : cursor.nextTowardsError? = some next) : next.remaining < cursor.remaining := by
  unfold nextTowardsError? at found
  split at found
  · exact remaining_next? found
  · exact remaining_following? found

def faultSite? (cursor : Cursor) : Option SyntaxNode :=
  if cursor.focus.isFaultSite then some cursor.focus
  else
    match _ : cursor.nextTowardsError? with
    | some next => faultSite? next
    | none => none
termination_by cursor.remaining
decreasing_by exact remaining_nextTowardsError? ‹_›

end Cursor

def lineAt (source : List UInt8) (offset : Nat) : Nat :=
  (source.take offset).count 10 + 1

def SyntaxNode.firstErrorLine (source : List UInt8) (root : SyntaxNode) : Nat :=
  lineAt source ((Cursor.ofRoot root).faultSite?.getD root).start

end LocalizationAudit
