import LocalizationAudit.Path

/-!
A path is determined by its text: reading what a path is written as gives the path back, whatever
its anchor and its components are. Going down by one name after another is joining them all.
-/

namespace LocalizationAudit

theorem isComponent_iff (name : List Char) :
    isComponent name = true ↔ name ≠ [] ∧ name ≠ ['.'] ∧ '/' ∉ name := by
  simp [isComponent, and_assoc]

namespace Path

theorem componentsOf_slash (text : List Char) : componentsOf ('/' :: text) = componentsOf text := by
  simp [componentsOf, List.splitOn_cons_eq_if_modifyHead, isComponent]

theorem componentsOf_intercalate {names : List String}
    (plain : ∀ name ∈ names, isComponent name.toList = true) :
    componentsOf (['/'].intercalate (names.map String.toList)) = names := by
  cases names with
  | nil => simp [componentsOf, isComponent]
  | cons name others =>
      have unslashed : ∀ piece ∈ (name :: others).map String.toList, '/' ∉ piece := by
        intro piece member
        obtain ⟨component, found, rfl⟩ := List.mem_map.mp member
        exact ((isComponent_iff _).mp (plain component found)).2.2
      have kept : ((name :: others).map String.toList).filter isComponent =
          (name :: others).map String.toList := by
        simpa using plain
      rw [componentsOf, List.splitOn_intercalate '/' unslashed (by simp), kept, List.map_map]
      simp [Function.comp_def]

theorem head?_intercalate_ne_slash {names : List String}
    (plain : ∀ name ∈ names, isComponent name.toList = true) :
    (['/'].intercalate (names.map String.toList)).head? ≠ some '/' := by
  cases names with
  | nil => simp
  | cons name others =>
      have first := (isComponent_iff _).mp (plain name (by simp))
      obtain ⟨c, rest, spelled⟩ := List.exists_cons_of_ne_nil first.1
      have ordinary : c ≠ '/' := by
        rintro rfl
        exact first.2.2 (by simp [spelled])
      cases others with
      | nil => simpa [spelled] using ordinary
      | cons next others => simpa [List.intercalate_cons_cons, spelled] using ordinary

theorem anchorOf_append {text : List Char} (anchor : Anchor) (plain : text.head? ≠ some '/') :
    anchorOf (anchor.text.toList ++ text) = anchor := by
  have stops : text.takeWhile (· == '/') = [] := by
    cases text with
    | nil => rfl
    | cons c rest => exact List.takeWhile_cons_of_neg (by simpa using plain)
  cases anchor <;> simp [anchorOf, Anchor.text, stops]

theorem componentsOf_append (anchor : Anchor) (text : List Char) :
    componentsOf (anchor.text.toList ++ text) = componentsOf text := by
  cases anchor <;> simp [Anchor.text, componentsOf_slash]

theorem toList_spelled (path : Path) :
    path.spelled.toList =
      path.anchor.text.toList ++ ['/'].intercalate (path.components.map String.toList) := by
  simp [spelled, String.toList_intercalate]

theorem eq_of_parts {left right : Path} (anchor : left.anchor = right.anchor)
    (components : left.components = right.components) : left = right := by
  cases left
  cases right
  simp_all

theorem ofString_spelled (path : Path) : ofString path.spelled = path := by
  apply eq_of_parts
  · change anchorOf path.spelled.toList = path.anchor
    rw [toList_spelled, anchorOf_append _ (head?_intercalate_ne_slash path.components_plain)]
  · change componentsOf path.spelled.toList = path.components
    rw [toList_spelled, componentsOf_append, componentsOf_intercalate path.components_plain]

/-- The dot that stands for an empty relative path is read as that path again. -/
theorem ofString_text (path : Path) : ofString path.text = path := by
  rw [text]
  split
  next empty =>
    simp only [Bool.and_eq_true, beq_iff_eq, List.isEmpty_iff] at empty
    apply eq_of_parts
    · rw [empty.1]
      rfl
    · rw [empty.2]
      rfl
  next => exact ofString_spelled path

theorem text_injective : Function.Injective text := by
  intro left right same
  rw [← ofString_text left, ← ofString_text right, same]

theorem ofString_intercalate {names : List String}
    (plain : ∀ name ∈ names, isComponent name.toList = true) :
    ofString ("/".intercalate names) = ⟨.relative, names, plain⟩ := by
  have spelled : (⟨.relative, names, plain⟩ : Path).spelled = "/".intercalate names := by
    simp [Path.spelled, Anchor.text]
  rw [← spelled, ofString_spelled]

def descend (base : Path) (names : List String) : Path :=
  names.foldl child base

theorem child_eq_join (base : Path) {name : String} (plain : isComponent name.toList = true) :
    base.child name = base.join ⟨.relative, [name], by simpa using plain⟩ := by
  have plainOnly : ∀ other ∈ [name], isComponent other.toList = true := by simpa using plain
  rw [child, ← ofString_intercalate plainOnly]
  simp

theorem descend_eq_join (base : Path) {names : List String}
    (plain : ∀ name ∈ names, isComponent name.toList = true) :
    base.descend names = base.join ⟨.relative, names, plain⟩ := by
  induction names generalizing base with
  | nil => exact eq_of_parts rfl (by simp [descend, join])
  | cons name rest ih =>
      have first := base.child_eq_join (plain name (by simp))
      have later := ih (base.child name) fun other member => plain other (by simp [member])
      refine later.trans ?_
      rw [first]
      exact eq_of_parts rfl (by simp [join])

theorem anchor_descend (base : Path) {names : List String}
    (plain : ∀ name ∈ names, isComponent name.toList = true) :
    (base.descend names).anchor = base.anchor := by
  rw [descend_eq_join base plain]
  rfl

theorem components_descend (base : Path) {names : List String}
    (plain : ∀ name ∈ names, isComponent name.toList = true) :
    (base.descend names).components = base.components ++ names := by
  rw [descend_eq_join base plain]
  rfl

theorem descend_inj (base : Path) {left right : List String}
    (plain : ∀ name ∈ left, isComponent name.toList = true)
    (plainToo : ∀ name ∈ right, isComponent name.toList = true)
    (same : base.descend left = base.descend right) : left = right := by
  have components := congrArg Path.components same
  rw [components_descend base plain, components_descend base plainToo] at components
  exact List.append_cancel_left components

end Path

end LocalizationAudit
