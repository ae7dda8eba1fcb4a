import LocalizationAudit.Console.Printer

/-!
What is laid out and painted. Clusters, words and the lines that are filled with them are cuts of the
text, so laying out adds nothing to it but blanks; painting adds codes in ASCII.
-/

namespace LocalizationAudit

section Cuts

theorem flatMap_extendLast (closed : List Cluster) (chars : List StyledChar) (width : Nat) :
    (extendLast closed chars width).reverse.flatMap Cluster.chars =
      closed.reverse.flatMap Cluster.chars ++ chars := by
  cases closed with
  | nil => simp [extendLast]
  | cons last others => simp [extendLast, Cluster.extend]

theorem flatMap_clustersFrom (closed : List Cluster) (measured : Option Char)
    (line : List StyledChar) :
    (clustersFrom closed measured line).flatMap Cluster.chars =
      closed.reverse.flatMap Cluster.chars ++ line := by
  fun_induction clustersFrom closed measured line with
  | case1 => simp
  | case2 closed measured c joins next after isEmpty ih =>
      obtain rfl := List.isEmpty_iff.mp isEmpty
      simpa using ih
  | case3 closed measured c joins next after inside ih => simp [ih, flatMap_extendLast]
  | case4 closed measured c joins => simp [flatMap_extendLast]
  | case5 closed measured c rest _ selects width ih =>
      rw [ih, flatMap_extendLast, List.append_assoc, List.singleton_append]
  | case6 closed measured c rest _ _ none ih => simp [ih, flatMap_extendLast]
  | case7 closed measured c rest _ _ some ih => simp [ih]

theorem flatMap_clusters (line : List StyledChar) :
    (clusters line).flatMap Cluster.chars = line :=
  flatMap_clustersFrom [] none line

theorem flatten_cutFrom (width : Nat) (piece : List StyledChar) (used : Nat)
    (clusters : List Cluster) :
    (cutFrom width piece used clusters).flatten = piece ++ clusters.flatMap Cluster.chars := by
  fun_induction cutFrom width piece used clusters with
  | case1 => simp
  | case2 piece used cluster rest full ih => simp [ih]
  | case3 piece used cluster rest room ih => simp [ih]

theorem flatten_cutWord (width : Nat) (word : List StyledChar) :
    (cutWord width word).flatten = word := by
  rw [cutWord, flatten_cutFrom, flatMap_clusters, List.nil_append]

theorem flatten_wordsFrom (line : List StyledChar) : (wordsFrom line).flatten = line := by
  fun_induction wordsFrom line with
  | case1 => rfl
  | case2 c rest behind ih =>
      have inner := List.takeWhile_append_dropWhile (p := (!StyledChar.isBlank ·)) (l := rest)
      have outer := List.takeWhile_append_dropWhile (p := StyledChar.isBlank) (l := behind)
      rw [List.flatten_cons, ih, List.append_assoc, outer]
      simp [behind, inner]

theorem flatten_words {line : List StyledChar} (some : words line ≠ []) :
    (words line).flatten = line := by
  have whole := List.takeWhile_append_dropWhile (p := StyledChar.isBlank) (l := line)
  have behind := flatten_wordsFrom (line.dropWhile StyledChar.isBlank)
  unfold words at some ⊢
  split at some
  next => exact absurd rfl some
  next first others read =>
    rw [read, List.flatten_cons] at behind
    simp only [List.flatten_cons, List.append_assoc, behind, whole]

theorem flatten_styledRuns (line : List StyledChar) : (styledRuns line).flatten = line := by
  fun_induction styledRuns line with
  | case1 => rfl
  | case2 c next tail run others opens runs ih =>
      rw [runs] at ih
      simpa [runs, opens] using ih
  | case3 c next tail run others continues runs ih =>
      rw [runs] at ih
      simpa [runs, continues] using ih
  | case4 c rest alone ih => simp [ih]

theorem flatten_dropLast_append_getLastD {α : Type} (pieces : List (List α)) :
    pieces.dropLast.flatten ++ pieces.getLastD [] = pieces.flatten := by
  rcases List.eq_nil_or_concat pieces with rfl | ⟨before, last, rfl⟩
  · rfl
  · simp

namespace Filling

theorem flatten_endLine (filling : Filling) :
    filling.endLine.reverse.flatten = filling.lines.flatten := by
  rw [endLine]
  split
  next isEmpty =>
    have none : filling.line = [] := List.isEmpty_iff.mp isEmpty
    simp [lines, none]
  next => rfl

/-- No character of a word is lost, whether it fits or is cut. -/
theorem flatten_addWord (width : Nat) (filling : Filling) (word : List StyledChar) :
    (filling.addWord width word).lines.flatten = filling.lines.flatten ++ word := by
  have ended := filling.flatten_endLine
  rw [addWord]
  split
  next => simp [lines]
  next =>
    split
    next =>
      have cut := flatten_dropLast_append_getLastD (cutWord width word)
      rw [flatten_cutWord] at cut
      rw [← ended]
      simpa [lines] using cut
    next =>
      rw [← ended]
      simp [lines]

theorem flatten_foldl_addWord (width : Nat) (filling : Filling) (words : List (List StyledChar)) :
    (words.foldl (addWord width) filling).lines.flatten = filling.lines.flatten ++ words.flatten := by
  induction words generalizing filling with
  | nil => simp
  | cons word others ih => rw [List.foldl_cons, ih, flatten_addWord, List.flatten_cons,
      List.append_assoc]

end Filling

end Cuts

section Kept

theorem subset_of_mem_splitOnP {α : Type} {p : α → Bool} {text piece : List α}
    (member : piece ∈ text.splitOnP p) : piece ⊆ text := by
  induction text generalizing piece with
  | nil =>
      obtain rfl : piece = [] := by simpa using member
      exact List.Subset.refl _
  | cons c rest ih =>
      rw [List.splitOnP_cons_eq_if_modifyHead] at member
      split at member
      next =>
        rcases List.mem_cons.mp member with rfl | behind
        · exact List.nil_subset _
        · exact List.Subset.trans (ih behind) (List.subset_cons_self c rest)
      next =>
        cases split : rest.splitOnP p with
        | nil => simp [split] at member
        | cons first others =>
            rw [split, List.modifyHead_cons] at member
            rcases List.mem_cons.mp member with rfl | behind
            · exact List.cons_subset_cons c (ih (by simp [split]))
            · exact List.Subset.trans (ih (by simp [split, behind])) (List.subset_cons_self c rest)

variable {P : Char → Prop}

def AllChars (P : Char → Prop) (line : List StyledChar) : Prop :=
  ∀ c ∈ line, P c.char

namespace AllChars

variable {line : List StyledChar}

theorem of_subset {part : List StyledChar} (all : AllChars P line) (inside : part ⊆ line) :
    AllChars P part :=
  fun c member => all c (inside member)

theorem append {left right : List StyledChar} (before : AllChars P left)
    (behind : AllChars P right) : AllChars P (left ++ right) :=
  List.forall_mem_append.mpr ⟨before, behind⟩

theorem of_mem_flatten {lines : List (List StyledChar)} (all : AllChars P lines.flatten)
    (member : line ∈ lines) : AllChars P line :=
  all.of_subset fun _ own => List.mem_flatten.mpr ⟨line, member, own⟩

theorem openRun (all : AllChars P line) : AllChars P (openRun line) := by
  cases line with
  | nil => exact all
  | cons c rest => simpa [AllChars, LocalizationAudit.openRun] using all

variable (blank : P ' ')

include blank

theorem expandTabs {line : List StyledChar} (all : AllChars P line) (column : Nat) :
    AllChars P (expandTabs column line) := by
  have taken : AllChars P (line.takeWhile (!StyledChar.isTab ·)) :=
    all.of_subset (List.takeWhile_sublist _).subset
  rw [LocalizationAudit.expandTabs]
  split
  next => exact taken
  next tab rest dropped =>
    have blanks : ∀ column, AllChars P (tabBlanks column tab) := by
      intro column c member
      rcases List.mem_cons.mp member with rfl | others
      · exact blank
      · obtain ⟨_, rfl⟩ := List.mem_replicate.mp others
        exact blank
    have inside : rest ⊆ line := by
      intro c own
      refine (List.dropWhile_sublist (!StyledChar.isTab ·)).subset ?_
      rw [dropped]
      exact List.mem_cons_of_mem _ own
    have later : rest.length < line.length := by
      have shorter := (List.dropWhile_sublist (l := line) (!StyledChar.isTab ·)).length_le
      rw [dropped, List.length_cons] at shorter
      omega
    exact (taken.append (blanks _)).append ((all.of_subset inside).expandTabs _).openRun
termination_by line.length

theorem cropFrom {clusters : List Cluster} (all : ∀ cluster ∈ clusters, AllChars P cluster.chars)
    (left : Nat) : AllChars P (cropFrom left clusters) := by
  induction clusters generalizing left with
  | nil => simp [LocalizationAudit.cropFrom, AllChars]
  | cons cluster rest ih =>
      obtain ⟨own, others⟩ := List.forall_mem_cons.mp all
      rw [LocalizationAudit.cropFrom]
      split
      next => exact own.append (ih others _)
      next =>
        split
        next => simp [AllChars]
        next c _ _ =>
          intro d member
          obtain ⟨_, rfl⟩ := List.mem_replicate.mp member
          exact blank

theorem crop (all : AllChars P line) (width : Nat) : AllChars P (crop width line) := by
  rw [LocalizationAudit.crop]
  split
  · exact all
  · apply cropFrom blank
    intro cluster member
    refine all.of_subset fun c own => ?_
    rw [← flatMap_clusters line]
    exact List.mem_flatMap.mpr ⟨cluster, member, own⟩

theorem wrapLine (all : AllChars P line) (width : Nat) :
    ∀ filled ∈ wrapLine width line, AllChars P filled := by
  intro out member
  rw [LocalizationAudit.wrapLine] at member
  obtain ⟨filled, isFilled, rfl⟩ := List.mem_map.mp member
  have kept : AllChars P filled := by
    split at isFilled
    next =>
      obtain rfl := List.mem_singleton.mp isFilled
      exact all
    next some =>
      refine AllChars.of_mem_flatten ?_ isFilled
      rw [Filling.flatten_foldl_addWord, flatten_words some]
      exact all
  exact (kept.of_subset (List.take_subset _ _)).crop blank width

/-- Laying out a text adds nothing to it but blanks. -/
theorem layOut {text : List StyledChar} (all : AllChars P text) (width : Option Nat) :
    ∀ line ∈ layOut width text, AllChars P line := by
  have expanded : ∀ line ∈ (text.splitOnP StyledChar.isNewline).map
      (LocalizationAudit.expandTabs 0), AllChars P line := by
    intro line member
    obtain ⟨piece, isPiece, rfl⟩ := List.mem_map.mp member
    exact (all.of_subset (subset_of_mem_splitOnP isPiece)).expandTabs blank 0
  intro line member
  cases width with
  | none => exact expanded line member
  | some width =>
      obtain ⟨own, isOwn, inside⟩ := List.mem_flatMap.mp member
      exact (expanded own isOwn).wrapLine blank width line inside

end AllChars

end Kept

end LocalizationAudit
