import LocalizationAudit.Literal.Extraction
import LocalizationAudit.Proofs.SyntaxTree.Traversal

/-!
The search for the place of a syntax error. It leaves out what lies below a node without errors,
but no such node hides a fault, so it finds the first fault of the whole tree in document order.
-/

namespace LocalizationAudit

namespace SyntaxNode

theorem isFaulty_of_isFaultSite {node : SyntaxNode} (site : node.isFaultSite = true) :
    node.isFaulty = true := by
  rw [isFaultSite, Bool.or_eq_true, beq_iff_eq, beq_iff_eq] at site
  rw [isFaulty, Bool.or_eq_true, beq_iff_eq, bne_iff_ne]
  rcases site with isError | isMissing
  · exact .inl isError
  · exact .inr (by simp [isMissing])

theorem not_isFaultSite_of_no_error {root node : SyntaxNode} (sound : ¬ root.hasError = true)
    (member : node ∈ root.preorder) : ¬ node.isFaultSite = true := by
  intro site
  exact sound (hasError_iff.mpr ⟨node, member, isFaulty_of_isFaultSite site⟩)

theorem find?_preorder_of_no_error {node : SyntaxNode} (sound : ¬ node.hasError = true) :
    node.preorder.find? isFaultSite = none :=
  List.find?_eq_none.mpr fun _ member => not_isFaultSite_of_no_error sound member

end SyntaxNode

namespace Cursor

def nextEntering? (enter : SyntaxNode → Bool) (cursor : Cursor) : Option Cursor :=
  if enter cursor.focus then cursor.next? else cursor.following?

theorem remaining_nextEntering? {enter : SyntaxNode → Bool} {cursor next : Cursor}
    (found : cursor.nextEntering? enter = some next) : next.remaining < cursor.remaining := by
  unfold nextEntering? at found
  split at found
  · exact remaining_next? found
  · exact remaining_following? found

/-- The search for a fault site with any choice of the nodes to be entered. -/
def faultSiteEntering? (enter : SyntaxNode → Bool) (cursor : Cursor) : Option SyntaxNode :=
  if cursor.focus.isFaultSite then some cursor.focus
  else
    match _ : cursor.nextEntering? enter with
    | some next => faultSiteEntering? enter next
    | none => none
termination_by cursor.remaining
decreasing_by exact remaining_nextEntering? ‹_›

theorem faultSiteEntering?_step (enter : SyntaxNode → Bool) (cursor : Cursor) :
    cursor.faultSiteEntering? enter =
      if cursor.focus.isFaultSite then some cursor.focus
      else (cursor.nextEntering? enter).bind (faultSiteEntering? enter) := by
  rw [faultSiteEntering?]
  cases found : cursor.nextEntering? enter with
  | none => simp
  | some next => simp

theorem faultSite?_step (cursor : Cursor) :
    cursor.faultSite? =
      if cursor.focus.isFaultSite then some cursor.focus
      else (cursor.nextEntering? SyntaxNode.hasError).bind faultSite? := by
  rw [faultSite?]
  change _ = if _ then _ else cursor.nextTowardsError?.bind faultSite?
  cases found : cursor.nextTowardsError? with
  | none => simp
  | some next => simp

theorem faultSite?_eq (cursor : Cursor) :
    cursor.faultSite? = cursor.faultSiteEntering? SyntaxNode.hasError := by
  induction size : cursor.remaining using Nat.strongRecOn generalizing cursor with
  | ind count ih =>
      have later : (cursor.nextEntering? SyntaxNode.hasError).bind faultSite? =
          (cursor.nextEntering? SyntaxNode.hasError).bind
            (faultSiteEntering? SyntaxNode.hasError) := by
        cases found : cursor.nextEntering? SyntaxNode.hasError with
        | none => rfl
        | some next => exact ih _ (size ▸ remaining_nextEntering? found) next rfl
      rw [faultSite?_step, faultSiteEntering?_step, later]

theorem unvisitedFrom_following? (cursor : Cursor) :
    unvisitedFrom cursor.following? = pendingNodes cursor.pending :=
  unvisitedFrom_ofPending? cursor.pending

section Search

variable {enter : SyntaxNode → Bool} {cursor : Cursor}

variable (enter cursor) in
theorem unvisitedFrom_nextEntering?_subset :
    unvisitedFrom (cursor.nextEntering? enter) ⊆ cursor.unvisited := by
  rw [nextEntering?]
  by_cases entered : enter cursor.focus = true
  · rw [if_pos entered, unvisited_eq]
    exact List.subset_cons_self _ _
  · rw [if_neg entered, unvisitedFrom_following?, unvisited]
    exact List.subset_append_right _ _

/-- A node that is no fault site itself may be passed, and all below it if it has no error. -/
theorem find?_unvisited (passed : ¬ cursor.focus.isFaultSite = true)
    (enters : cursor.focus.hasError = true → enter cursor.focus = true) :
    cursor.unvisited.find? SyntaxNode.isFaultSite =
      (unvisitedFrom (cursor.nextEntering? enter)).find? SyntaxNode.isFaultSite := by
  rw [nextEntering?]
  by_cases entered : enter cursor.focus = true
  · rw [if_pos entered, unvisited_eq, List.find?_cons_of_neg passed]
  · have hidden := SyntaxNode.find?_preorder_of_no_error (mt enters entered)
    rw [if_neg entered, unvisitedFrom_following?, unvisited, List.find?_append, hidden,
      Option.none_or]

theorem faultSiteEntering?_eq
    (enters : ∀ node ∈ cursor.unvisited, node.hasError = true → enter node = true) :
    cursor.faultSiteEntering? enter = cursor.unvisited.find? SyntaxNode.isFaultSite := by
  -- By induction on what is left: what is never visited holds no fault site.
  induction size : cursor.remaining using Nat.strongRecOn generalizing cursor with
  | ind count ih =>
      have focused : cursor.focus ∈ cursor.unvisited := by
        rw [unvisited_eq]
        exact List.mem_cons_self
      rw [faultSiteEntering?_step]
      by_cases site : cursor.focus.isFaultSite = true
      · rw [if_pos site, unvisited_eq, List.find?_cons_of_pos site]
      · rw [if_neg site, find?_unvisited site (enters _ focused)]
        cases found : cursor.nextEntering? enter with
        | none => rfl
        | some next =>
            have below := unvisitedFrom_nextEntering?_subset enter cursor
            rw [found] at below
            exact ih _ (size ▸ remaining_nextEntering? found)
              (fun node member => enters node (below member)) rfl

end Search

theorem wellFounded_nextTowardsError? :
    WellFounded fun next cursor : Cursor => cursor.nextTowardsError? = some next :=
  Subrelation.wf remaining_nextTowardsError? (measure remaining).wf

theorem faultSiteEntering?_ofRoot {enter : SyntaxNode → Bool} {root : SyntaxNode}
    (enters : ∀ node ∈ root.preorder, node.hasError = true → enter node = true) :
    (ofRoot root).faultSiteEntering? enter = root.preorder.find? SyntaxNode.isFaultSite := by
  rw [← unvisited_ofRoot] at enters ⊢
  exact faultSiteEntering?_eq enters

theorem faultSite?_ofRoot (root : SyntaxNode) :
    (ofRoot root).faultSite? = root.preorder.find? SyntaxNode.isFaultSite := by
  rw [faultSite?_eq]
  exact faultSiteEntering?_ofRoot fun _ _ broken => broken

end Cursor

namespace SyntaxNode

def row (source : Bytes) (node : SyntaxNode) : Nat :=
  (source.take node.start).count 10

theorem firstErrorLine_eq (source : Bytes) (root : SyntaxNode) :
    root.firstErrorLine source =
      1 + ((root.preorder.find? isFaultSite).getD root).row source := by
  rw [firstErrorLine, Cursor.faultSite?_ofRoot, lineAt, row, Nat.add_comm]

theorem firstErrorLine_exact (source : Bytes) (root : SyntaxNode) :
    (∀ before site after, root.preorder = before ++ site :: after → site.isFaultSite = true →
      (∀ node ∈ before, node.isFaultSite = false) →
      root.firstErrorLine source = 1 + site.row source) ∧
    ((∀ node ∈ root.preorder, node.isFaultSite = false) →
      root.firstErrorLine source = 1 + root.row source) ∧
    (∀ enter : SyntaxNode → Bool,
      (∀ node ∈ root.preorder, node.hasError = true → enter node = true) →
      (Cursor.ofRoot root).faultSiteEntering? enter = (Cursor.ofRoot root).faultSite?) ∧
    (WellFounded fun next cursor : Cursor => cursor.nextTowardsError? = some next) ∧
    (root.hasError = true → ∀ file, literalsOfTree source file root =
      .error (.audit (.fileUnparsable file
        ("Syntax error near line " ++ toString (root.firstErrorLine source))))) := by
  refine ⟨?_, ?_, ?_, Cursor.wellFounded_nextTowardsError?, ?_⟩
  · intro before site after order isSite earlier
    have found : root.preorder.find? isFaultSite = some site := by
      refine List.find?_eq_some_iff_append.mpr ⟨isSite, before, after, order, ?_⟩
      intro node member
      simp [earlier node member]
    rw [firstErrorLine_eq, found, Option.getD_some]
  · intro sound
    have nothing : root.preorder.find? isFaultSite = none := by
      refine List.find?_eq_none.mpr fun node member => ?_
      simp [sound node member]
    rw [firstErrorLine_eq, nothing, Option.getD_none]
  · intro enter enters
    rw [Cursor.faultSiteEntering?_ofRoot enters, Cursor.faultSite?_ofRoot]
  · intro broken file
    rw [literalsOfTree, if_pos broken]
    rfl

end SyntaxNode

def insertedNode : SyntaxNode :=
  .mk .other ⟨3, 3⟩ .missing []

def repairedTree : SyntaxNode :=
  .mk .other ⟨0, 5⟩ .sound
    [.mk .other ⟨0, 1⟩ .sound [.mk .text ⟨0, 1⟩ .sound []],
      .mk .other ⟨2, 3⟩ .flagged [insertedNode], .mk .error ⟨4, 5⟩ .sound []]

def flaggedTree : SyntaxNode :=
  .mk .other ⟨2, 5⟩ .sound [.mk .other ⟨4, 5⟩ .flagged []]

def threeLines : Bytes :=
  encodeUtf8 "a\nb\nc".toList

theorem firstErrorLine_exact_samples :
    repairedTree.hasError = true ∧ flaggedTree.hasError = true ∧
    repairedTree.firstErrorLine threeLines = 2 ∧ flaggedTree.firstErrorLine threeLines = 2 ∧
    literalsOfTree threeLines "main.swift" repairedTree =
      .error (.audit (.fileUnparsable "main.swift" "Syntax error near line 2")) ∧
    (Cursor.ofRoot repairedTree).faultSiteEntering? (fun _ => true) =
      (Cursor.ofRoot repairedTree).faultSite? := by
  have broken : repairedTree.hasError = true := by decide
  obtain ⟨first, _, unpruned, _, refused⟩ :=
    SyntaxNode.firstErrorLine_exact threeLines repairedTree
  have inserted : repairedTree.firstErrorLine threeLines = 2 :=
    first [repairedTree, _, _, _] insertedNode [_] rfl rfl (by decide)
  have flagged : flaggedTree.firstErrorLine threeLines = 2 :=
    (SyntaxNode.firstErrorLine_exact threeLines flaggedTree).2.1 (by decide)
  refine ⟨broken, by decide, inserted, flagged, ?_, unpruned _ fun _ _ _ => rfl⟩
  rw [refused broken, inserted]
  rfl

end LocalizationAudit
