import LocalizationAudit.Console.Markup

/-! A text in which no emoji is named is shown as it is, also when brackets in it lose a backslash. -/

namespace LocalizationAudit

def HasEmojiCode (emoji : EmojiTable) (text : List Char) : Prop :=
  ∃ before name after, text = before ++ (':' :: name ++ ':' :: after) ∧
    (∀ c ∈ name, isEmojiNameChar c = true) ∧ (emojiOf? emoji name).isSome = true

variable {emoji : EmojiTable}

theorem HasEmojiCode.of_part {part text : List Char} (inside : part <:+: text)
    (named : HasEmojiCode emoji part) : HasEmojiCode emoji text := by
  obtain ⟨outerBefore, outerAfter, rfl⟩ := inside
  obtain ⟨before, name, after, rfl, nameChars, known⟩ := named
  exact ⟨outerBefore ++ before, name, after ++ outerAfter, by simp, nameChars, known⟩

theorem not_hasEmojiCode_of_plain {text : List Char} (plain : ':' ∉ text) :
    ¬ HasEmojiCode emoji text := by
  rintro ⟨before, name, after, rfl, _⟩
  simp at plain

theorem replaceEmoji_of_not_hasEmojiCode {text : List Char} (unnamed : ¬ HasEmojiCode emoji text) :
    replaceEmoji emoji text = text := by
  induction text using replaceEmoji.induct with
  | case1 => rw [replaceEmoji]
  | case2 c rest isColon after dropped ih =>
      obtain rfl := beq_iff_eq.mp isColon
      have whole := List.takeWhile_append_dropWhile (p := isEmojiNameChar) (l := rest)
      rw [dropped] at whole
      have unknown : emojiOf? emoji (rest.takeWhile isEmojiNameChar) = none := by
        refine Option.not_isSome_iff_eq_none.mp fun known => unnamed ?_
        refine ⟨[], _, after, ?_, List.all_eq_true.mp List.all_takeWhile, known⟩
        rw [List.nil_append, List.cons_append, whole]
      have later : ¬ HasEmojiCode emoji after := by
        refine mt (HasEmojiCode.of_part ?_) unnamed
        exact ⟨':' :: rest.takeWhile isEmojiNameChar ++ [':'], [], by simp [whole]⟩
      rw [replaceEmoji, if_pos isColon]
      split
      next behind again =>
        obtain rfl := (List.cons.inj (again.symm.trans dropped)).2
        simp only [unknown, Option.getD_none, ih later]
        simp [whole]
      next other => exact absurd dropped (other after)
  | case3 c rest isColon other ih =>
      have later : ¬ HasEmojiCode emoji rest :=
        mt (HasEmojiCode.of_part (List.suffix_cons c rest).isInfix) unnamed
      rw [replaceEmoji, if_pos isColon]
      split
      next after dropped => exact absurd dropped (other after)
      next => rw [ih later]
  | case4 c rest notColon ih =>
      have later : ¬ HasEmojiCode emoji rest :=
        mt (HasEmojiCode.of_part (List.suffix_cons c rest).isInfix) unnamed
      rw [replaceEmoji, if_neg notColon, ih later]

section Brackets

theorem bracket_mem_lowerFrom {before text : List Char} (member : '[' ∈ text) :
    '[' ∈ lowerFrom before text := by
  induction text generalizing before with
  | nil => simp at member
  | cons c rest ih =>
      rw [lowerFrom, List.mem_append]
      rcases List.mem_cons.mp member with rfl | later
      · have kept : simpleLower '[' = '[' := by decide +kernel
        exact .inl (by simp [kept])
      · exact .inr (ih later)

/-- No emoji has a bracket in its name. -/
theorem bracket_not_mem_of_emojiOf? {name : List Char} (known : (emojiOf? emoji name).isSome = true) :
    '[' ∉ name := by
  intro member
  have plainEndings : ∀ entry ∈ emojiVariants, '[' ∉ entry.1.toList := by decide
  have split : '[' ∈ (splitVariant name).1 := by
    rw [splitVariant]
    split
    next ending selector found =>
      have isSuffix := List.find?_some found
      obtain ⟨stem, rfl⟩ := List.isSuffixOf_iff_suffix.mp isSuffix
      have plain := plainEndings _ (List.mem_of_find?_eq_some found)
      simpa [String.length_toList, plain] using member
    next => exact member
  rw [emojiOf?, Option.isSome_map, List.lookup_isSome_iff] at known
  obtain ⟨entry, listed, same⟩ := known
  have spelled := congrArg String.toList (beq_iff_eq.mp same)
  rw [String.toList_ofList] at spelled
  exact emoji.unbracketed entry listed (spelled ▸ bracket_mem_lowerFrom split)

theorem prefix_of_prefix_unescapeBrackets {part text : List Char} (plain : '[' ∉ part)
    (inside : part <+: unescapeBrackets text) : part <+: text := by
  induction text using unescapeBrackets.induct generalizing part with
  | case1 => exact inside
  | case2 rest ih =>
      rw [unescapeBrackets] at inside
      cases part with
      | nil => exact List.nil_prefix
      | cons c part =>
          obtain rfl := (List.cons_prefix_cons.mp inside).1
          simp at plain
  | case3 c rest other ih =>
      rw [unescapeBrackets] at inside
      · cases part with
        | nil => exact List.nil_prefix
        | cons first part =>
            obtain ⟨rfl, later⟩ := List.cons_prefix_cons.mp inside
            have plainToo : '[' ∉ part := fun member => plain (List.mem_cons_of_mem _ member)
            exact List.cons_prefix_cons.mpr ⟨rfl, ih plainToo later⟩
      · exact other

theorem infix_of_infix_unescapeBrackets {part text : List Char} (plain : '[' ∉ part)
    (inside : part <:+: unescapeBrackets text) : part <:+: text := by
  induction text using unescapeBrackets.induct with
  | case1 => exact inside
  | case2 rest ih =>
      rw [unescapeBrackets, List.infix_cons_iff] at inside
      rcases inside with here | later
      · cases part with
        | nil => exact List.nil_infix
        | cons c part =>
            obtain rfl := (List.cons_prefix_cons.mp here).1
            simp at plain
      · exact (ih later).trans ⟨['\\', '['], [], by simp⟩
  | case3 c rest other ih =>
      have prefixes := @prefix_of_prefix_unescapeBrackets part (c :: rest) plain
      rw [unescapeBrackets] at inside prefixes
      · rcases List.infix_cons_iff.mp inside with here | later
        · exact (prefixes here).isInfix
        · exact (ih later).trans (List.suffix_cons c rest).isInfix
      all_goals exact other

theorem HasEmojiCode.of_unescapeBrackets {text : List Char}
    (named : HasEmojiCode emoji (unescapeBrackets text)) : HasEmojiCode emoji text := by
  obtain ⟨before, name, after, whole, nameChars, known⟩ := named
  have plain : '[' ∉ ':' :: name ++ [':'] := by
    simpa using bracket_not_mem_of_emojiOf? known
  have inside : ':' :: name ++ [':'] <:+: unescapeBrackets text :=
    ⟨before, after, by simp [whole]⟩
  refine .of_part (infix_of_infix_unescapeBrackets plain inside) ?_
  exact ⟨[], name, [], by simp, nameChars, known⟩

end Brackets

end LocalizationAudit
