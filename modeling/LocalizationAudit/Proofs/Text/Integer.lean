import LocalizationAudit.Proofs.Text.Trimming
import LocalizationAudit.Text.Integer
import Mathlib.Data.Nat.Digits.Defs

/-!
Whole numbers as they are written: groups of decimal digits with one underscore between two groups,
and a sign in front. Reading finds the number of every text of this form, and of no other.
-/

namespace LocalizationAudit

def IsDecimalDigit (c : Char) : Prop :=
  (decimalDigit? c).isSome = true

instance : DecidablePred IsDecimalDigit :=
  fun c => inferInstanceAs (Decidable ((decimalDigit? c).isSome = true))

def IsNumeral (text : List Char) : Prop :=
  ∃ groups, groups ≠ [] ∧ text = ['_'].intercalate groups ∧
    ∀ group ∈ groups, group ≠ [] ∧ ∀ c ∈ group, IsDecimalDigit c

def digitsIn (text : List Char) : List Nat :=
  text.filterMap decimalDigit?

structure IsNatural (text : List Char) (value : Nat) : Prop where
  numeral : IsNumeral text
  short : (digitsIn text).length ≤ maxDigits
  value_eq : value = Nat.ofDigits 10 (digitsIn text).reverse

inductive IsInteger : List Char → Int → Prop
  | unsigned {text value} : IsNatural text value → IsInteger text value
  | positive {text value} : IsNatural text value → IsInteger ('+' :: text) value
  | negative {text value} : IsNatural text value → IsInteger ('-' :: text) (-value)

section Digits

theorem decimalDigit?_underscore : decimalDigit? '_' = none := by
  decide

theorem digitsIn_append (first second : List Char) :
    digitsIn (first ++ second) = digitsIn first ++ digitsIn second :=
  List.filterMap_append

theorem digitsIn_underscore (text : List Char) : digitsIn ('_' :: text) = digitsIn text :=
  List.filterMap_cons_none decimalDigit?_underscore

theorem digitsIn_digit {c : Char} {digit : Nat} (isDigit : decimalDigit? c = some digit)
    (text : List Char) : digitsIn (c :: text) = digit :: digitsIn text :=
  List.filterMap_cons_some isDigit

theorem digitsOf?_digit {c : Char} {digit : Nat} (isDigit : decimalDigit? c = some digit)
    (afterDigit : Bool) (rest : List Char) :
    digitsOf? afterDigit (c :: rest) = (digitsOf? true rest).map (digit :: ·) := by
  have different : (c == '_') = false := by
    rw [beq_eq_false_iff_ne]
    rintro rfl
    simp [decimalDigit?_underscore] at isDigit
  rw [digitsOf?, different, if_neg (by simp), isDigit]

theorem digitsOf?_underscore (rest : List Char) :
    digitsOf? true ('_' :: rest) = digitsOf? false rest := by
  rw [digitsOf?, if_pos (by simp), if_pos rfl]

theorem digitsOf?_group {group : List Char} (digits : ∀ c ∈ group, IsDecimalDigit c)
    {afterDigit : Bool} (startsHere : group = [] → afterDigit = true) (rest : List Char) :
    digitsOf? afterDigit (group ++ rest) = (digitsOf? true rest).map (digitsIn group ++ ·) := by
  induction group generalizing afterDigit with
  | nil =>
      rw [startsHere rfl]
      cases found : digitsOf? true rest <;> simp [digitsIn, found]
  | cons c group ih =>
      obtain ⟨digit, isDigit⟩ := Option.isSome_iff_exists.mp (digits c List.mem_cons_self)
      have later : digitsOf? true (group ++ rest) = (digitsOf? true rest).map (digitsIn group ++ ·) :=
        ih (fun other member => digits other (List.mem_cons_of_mem _ member)) fun _ => rfl
      rw [List.cons_append, digitsOf?_digit isDigit, later, digitsIn_digit isDigit, Option.map_map]
      rfl

theorem digitsOf?_intercalate {first : List Char} {others : List (List Char)} {afterDigit : Bool}
    (startsHere : first = [] → afterDigit = true) (digits : ∀ c ∈ first, IsDecimalDigit c)
    (groups : ∀ group ∈ others, group ≠ [] ∧ ∀ c ∈ group, IsDecimalDigit c) :
    digitsOf? afterDigit (['_'].intercalate (first :: others)) =
      some (digitsIn (['_'].intercalate (first :: others))) := by
  induction others generalizing first afterDigit with
  | nil =>
      have alone := digitsOf?_group digits startsHere []
      simpa [digitsOf?] using alone
  | cons next others ih =>
      obtain ⟨nonempty, nextDigits⟩ := groups next List.mem_cons_self
      have later : digitsOf? false (['_'].intercalate (next :: others)) =
          some (digitsIn (['_'].intercalate (next :: others))) :=
        ih (fun empty => absurd empty nonempty) nextDigits
          fun group member => groups group (List.mem_cons_of_mem _ member)
      rw [List.intercalate_cons_cons, List.append_assoc, List.singleton_append,
        digitsOf?_group digits startsHere, digitsOf?_underscore, later, Option.map_some,
        digitsIn_append, digitsIn_underscore]

theorem exists_groups_of_digitsOf? {afterDigit : Bool} {text : List Char} {digits : List Nat}
    (found : digitsOf? afterDigit text = some digits) :
    ∃ first others, text = ['_'].intercalate (first :: others) ∧ (first = [] → afterDigit = true) ∧
      (∀ c ∈ first, IsDecimalDigit c) ∧
      ∀ group ∈ others, group ≠ [] ∧ ∀ c ∈ group, IsDecimalDigit c := by
  induction text generalizing afterDigit digits with
  | nil =>
      refine ⟨[], [], rfl, fun _ => ?_, by simp, by simp⟩
      rw [digitsOf?] at found
      split at found
      next after => exact after
      next => simp at found
  | cons c rest ih =>
      rw [digitsOf?] at found
      split at found
      next isUnderscore =>
        split at found
        next after =>
          obtain ⟨first, others, rfl, nonempty, firstDigits, groups⟩ := ih found
          refine ⟨[], first :: others, ?_, fun _ => after, by simp, ?_⟩
          · rw [List.intercalate_cons_cons, beq_iff_eq.mp isUnderscore]
            rfl
          · intro group member
            rcases List.mem_cons.mp member with rfl | later
            · exact ⟨fun empty => absurd (nonempty empty) (by simp), firstDigits⟩
            · exact groups group later
        next => simp at found
      next =>
        split at found
        next digit isDigit =>
          obtain ⟨others', read, _⟩ := Option.map_eq_some_iff.mp found
          obtain ⟨first, others, rfl, _, firstDigits, groups⟩ := ih read
          refine ⟨c :: first, others, ?_, by simp, ?_, groups⟩
          · cases others <;> simp [List.intercalate_cons_cons]
          · intro other member
            rcases List.mem_cons.mp member with rfl | later
            · exact Option.isSome_iff_exists.mpr ⟨digit, isDigit⟩
            · exact firstDigits other later
        next => simp at found

theorem digitsOf?_eq_some_iff {text : List Char} {digits : List Nat} :
    digitsOf? false text = some digits ↔ IsNumeral text ∧ digits = digitsIn text := by
  have reads : IsNumeral text → digitsOf? false text = some (digitsIn text) := by
    rintro ⟨groups, some, rfl, valid⟩
    obtain ⟨first, others, rfl⟩ := List.exists_cons_of_ne_nil some
    obtain ⟨nonempty, firstDigits⟩ := valid first List.mem_cons_self
    exact digitsOf?_intercalate (fun empty => absurd empty nonempty) firstDigits
      fun group member => valid group (List.mem_cons_of_mem _ member)
  constructor
  · intro found
    obtain ⟨first, others, whole, nonempty, firstDigits, groups⟩ := exists_groups_of_digitsOf? found
    have numeral : IsNumeral text := by
      refine ⟨first :: others, by simp, whole, fun group member => ?_⟩
      rcases List.mem_cons.mp member with rfl | later
      · exact ⟨fun empty => absurd (nonempty empty) (by simp), firstDigits⟩
      · exact groups group later
    exact ⟨numeral, Option.some.inj (found.symm.trans (reads numeral))⟩
  · rintro ⟨numeral, rfl⟩
    exact reads numeral

end Digits

section Value

theorem foldl_digits_eq (digits : List Nat) :
    digits.foldl (fun value digit => 10 * value + digit) 0 = Nat.ofDigits 10 digits.reverse := by
  rw [Nat.ofDigits_eq_foldr, List.foldr_reverse]
  simp only [Nat.cast_id, Nat.add_comm]

theorem naturalOf?_eq_some_iff {text : List Char} {value : Nat} :
    naturalOf? text = some value ↔ IsNatural text value := by
  constructor
  · intro found
    rw [naturalOf?] at found
    split at found
    next digits read =>
      obtain ⟨numeral, rfl⟩ := digitsOf?_eq_some_iff.mp read
      split at found
      next short =>
        rw [foldl_digits_eq] at found
        exact ⟨numeral, short, (Option.some.inj found).symm⟩
      next => simp at found
    next => simp at found
  · rintro ⟨numeral, short, rfl⟩
    have read := digitsOf?_eq_some_iff.mpr ⟨numeral, rfl⟩
    rw [naturalOf?, read]
    simp only [if_pos short, foldl_digits_eq]

theorem IsNatural.head? {text : List Char} {value : Nat} (natural : IsNatural text value) :
    ∃ c, text.head? = some c ∧ IsDecimalDigit c := by
  obtain ⟨groups, some, rfl, valid⟩ := natural.numeral
  obtain ⟨first, others, rfl⟩ := List.exists_cons_of_ne_nil some
  obtain ⟨nonempty, digits⟩ := valid first List.mem_cons_self
  obtain ⟨c, rest, rfl⟩ := List.exists_cons_of_ne_nil nonempty
  refine ⟨c, ?_, digits c List.mem_cons_self⟩
  cases others <;> simp [List.intercalate_cons_cons]

theorem not_isNatural_cons {c : Char} (noDigit : ¬ IsDecimalDigit c) (rest : List Char)
    (value : Nat) : ¬ IsNatural (c :: rest) value := by
  intro natural
  obtain ⟨first, starts, isDigit⟩ := natural.head?
  obtain rfl := Option.some.inj starts
  exact noDigit isDigit

theorem isBlank_of_isAsciiBlank {c : Char} (blank : isAsciiBlank c = true) : isBlank c = true := by
  simp only [isAsciiBlank, Bool.or_eq_true, Bool.and_eq_true, decide_eq_true_eq, beq_iff_eq] at blank
  rcases blank with rfl | ⟨low, high⟩
  · decide
  · simp [isBlank, low, high]

theorem isBlank_of_isNumberBlank {c : Char} (blank : isNumberBlank c = true) :
    isBlank c = true := by
  rw [isNumberBlank] at blank
  split at blank
  · exact isBlank_of_isAsciiBlank blank
  · exact blank

/-- A number is read from what is left between the white space around it. -/
theorem integer?_eq_some_iff {text kept : List Char} (trims : TrimsTo isNumberBlank text kept)
    {value : Int} : integer? text = some value ↔ IsInteger kept value := by
  rw [integer?, trimWith_eq_iff.mpr trims]
  constructor
  · intro found
    split at found
    all_goals obtain ⟨natural, read, rfl⟩ := Option.map_eq_some_iff.mp found
    next =>
      obtain ⟨size, counted, same⟩ := Option.bind_eq_some_iff.mp read
      obtain rfl := Option.some.inj same
      exact .negative (naturalOf?_eq_some_iff.mp counted)
    next => exact .positive (naturalOf?_eq_some_iff.mp read)
    next => exact .unsigned (naturalOf?_eq_some_iff.mp read)
  · intro isInteger
    cases isInteger with
    | unsigned natural =>
        have read := naturalOf?_eq_some_iff.mpr natural
        split
        next => exact absurd natural (not_isNatural_cons (by decide) _ _)
        next => exact absurd natural (not_isNatural_cons (by decide) _ _)
        next => exact Option.map_eq_some_iff.mpr ⟨_, read, rfl⟩
    | positive natural =>
        exact Option.map_eq_some_iff.mpr ⟨_, naturalOf?_eq_some_iff.mpr natural, rfl⟩
    | negative natural =>
        simp only [naturalOf?_eq_some_iff.mpr natural]
        rfl

theorem integer?_of_isTrimmed {text : List Char} (trimmed : IsTrimmed isBlank text) {value : Int} :
    integer? text = some value ↔ IsInteger text value := by
  have solid : ∀ {c}, isBlank c = false → isNumberBlank c = false := by
    intro c notBlank
    rw [← Bool.not_eq_true] at notBlank ⊢
    exact mt isBlank_of_isNumberBlank notBlank
  refine integer?_eq_some_iff ⟨⟨?_, ?_⟩, [], [], by simp, by simp, by simp⟩
  · exact fun c first => solid (trimmed.head c first)
  · exact fun c last => solid (trimmed.last c last)

end Value

end LocalizationAudit
