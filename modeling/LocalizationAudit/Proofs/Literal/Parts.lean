import LocalizationAudit.Proofs.Literal.Layout

/-!
The parts of a literal, with something written before the first one and behind the last one. Of the
parts behind the first an empty one makes no segment, unless what is written behind it fills it.
-/

namespace LocalizationAudit

section Parts

variable {parts : List (List Char)} {change : List Char → List Char}

theorem modifyHead_append_behind {opening replaced closing : List Char}
    (changed : ∀ text, change (opening ++ text) = replaced ++ text) :
    (List.modifyLast (· ++ closing) (parts.modifyHead (opening ++ ·))).modifyHead change =
      List.modifyLast (· ++ closing) (parts.modifyHead (replaced ++ ·)) := by
  match parts with
  | [] => rfl
  | [part] => simp [changed]
  | first :: next :: others => simp [changed]

theorem modifyLast_append_before {closing : List Char} {replaced : List Char → List Char}
    (changed : ∀ text, change (text ++ closing) = replaced text) :
    List.modifyLast change (List.modifyLast (· ++ closing) parts) = List.modifyLast replaced parts := by
  rcases List.eq_nil_or_concat parts with rfl | ⟨lead, last, rfl⟩
  · rfl
  · simp only [List.concat_eq_append, List.modifyLast_concat, changed]

end Parts

namespace LiteralItem

def keptBehind : List (List Char) → List (List Char)
  | [] => []
  | [last] => [last]
  | part :: next :: others =>
      if part = [] then keptBehind (next :: others) else part :: keptBehind (next :: others)

def keptParts : List (List Char) → List (List Char)
  | [] => []
  | first :: others => first :: keptBehind others

theorem keptBehind_ne_nil {parts : List (List Char)} (nonempty : parts ≠ []) :
    keptBehind parts ≠ [] := by
  fun_induction keptBehind parts with
  | case1 => exact nonempty
  | case2 last => simp
  | case3 next others ih => exact ih (by simp)
  | case4 part next others _ ih => simp

theorem filter_modifyLast_eq {closing : List Char} (closes : closing ≠ []) (parts : List (List Char)) :
    (List.modifyLast (· ++ closing) parts).filter (!·.isEmpty) =
      List.modifyLast (· ++ closing) (keptBehind parts) := by
  fun_induction keptBehind parts with
  | case1 => rfl
  | case2 last => simp [closes]
  | case3 next others ih => simpa using ih
  | case4 part next others nonempty ih =>
      rw [modifyLast_cons part (by simp), modifyLast_cons part (keptBehind_ne_nil (by simp)),
        List.filter_cons_of_pos (by simp [nonempty]), ih]

theorem filter_written_eq {opening closing : List Char} (opens : opening ≠ []) (closes : closing ≠ [])
    (parts : List (List Char)) :
    (List.modifyLast (· ++ closing) (parts.modifyHead (opening ++ ·))).filter (!·.isEmpty) =
      List.modifyLast (· ++ closing) ((keptParts parts).modifyHead (opening ++ ·)) := by
  match parts with
  | [] => rfl
  | [part] => simp [keptParts, keptBehind, opens]
  | first :: next :: others =>
      rw [keptParts, List.modifyHead_cons, List.modifyHead_cons, modifyLast_cons _ (by simp),
        modifyLast_cons _ (keptBehind_ne_nil (by simp)), List.filter_cons_of_pos (by simp [opens]),
        filter_modifyLast_eq closes]

theorem keptParts_ne_nil (items : List LiteralItem) : keptParts (staticParts items) ≠ [] := by
  obtain ⟨part, others, parts⟩ := List.exists_cons_of_ne_nil (staticParts_ne_nil items)
  simp [parts, keptParts]

theorem ofText_append (first second : List Char) :
    ofText (first ++ second) = ofText first ++ ofText second :=
  List.map_append

theorem exists_last_char (items : List LiteralItem) {text : List Char} (nonempty : text ≠ []) :
    ∃ c, (items ++ ofText text).getLast? = some (.char c) := by
  obtain ⟨lead, last, rfl⟩ := (List.eq_nil_or_concat text).resolve_left nonempty
  refine ⟨last, ?_⟩
  rw [List.concat_eq_append, ofText_append, ← List.append_assoc]
  exact List.getLast?_concat

end LiteralItem

end LocalizationAudit
