import LocalizationAudit.Key

/-!
A set of keys seen through its texts: adding keys adds their texts, each text occurs once, and the
first key with a text is the one that stays.
-/

namespace LocalizationAudit

namespace KeySet

def texts (keys : KeySet) : List String :=
  keys.map (·.text)

def withText? (keys : KeySet) (text : String) : Option LocalizationKey :=
  keys.find? (·.text == text)

theorem any_sameKey (keys : KeySet) (key : LocalizationKey) :
    keys.any (key.sameKey ·) = true ↔ key.text ∈ keys.texts := by
  simp only [List.any_eq_true, LocalizationKey.sameKey, beq_iff_eq, texts, List.mem_map]
  exact ⟨fun ⟨other, member, same⟩ => ⟨other, member, same.symm⟩,
    fun ⟨other, member, same⟩ => ⟨other, member, same.symm⟩⟩

theorem insert_of_mem {keys : KeySet} {key : LocalizationKey} (known : key.text ∈ keys.texts) :
    keys.insert key = keys := by
  rw [insert, if_pos ((any_sameKey keys key).mpr known)]

theorem insert_of_not_mem {keys : KeySet} {key : LocalizationKey}
    (fresh : key.text ∉ keys.texts) : keys.insert key = keys ++ [key] := by
  rw [insert, if_neg fun known => fresh ((any_sameKey keys key).mp known)]

theorem mem_texts_insert {keys : KeySet} {key : LocalizationKey} {text : String} :
    text ∈ (keys.insert key).texts ↔ text ∈ keys.texts ∨ text = key.text := by
  by_cases known : key.text ∈ keys.texts
  · rw [insert_of_mem known]
    constructor
    · exact .inl
    · rintro (member | rfl)
      · exact member
      · exact known
  · simp [insert_of_not_mem known, texts]

theorem nodup_texts_insert {keys : KeySet} (distinct : keys.texts.Nodup) (key : LocalizationKey) :
    (keys.insert key).texts.Nodup := by
  by_cases known : key.text ∈ keys.texts
  · rwa [insert_of_mem known]
  · rw [insert_of_not_mem known, texts, List.map_append, List.map_singleton]
    exact List.nodup_append.mpr ⟨distinct, by simp, by
      rintro text member _ single rfl
      exact known (List.mem_singleton.mp single ▸ member)⟩

theorem withText?_insert (keys : KeySet) (key : LocalizationKey) (text : String) :
    (keys.insert key).withText? text =
      (keys.withText? text).or (if key.text == text then some key else none) := by
  by_cases known : key.text ∈ keys.texts
  · rw [insert_of_mem known]
    split
    next same =>
      obtain ⟨other, member, sameText⟩ := List.mem_map.mp known
      have found : (keys.withText? text).isSome = true := by
        rw [withText?, List.find?_isSome]
        exact ⟨other, member, by simpa [sameText] using same⟩
      rw [Option.or_of_isSome found]
    next => simp
  · rw [insert_of_not_mem known, withText?, List.find?_append]
    by_cases same : key.text == text <;> simp [withText?, List.find?, same]

variable (keys added : KeySet)

theorem union_cons (key : LocalizationKey) :
    keys.union (key :: added) = (keys.insert key).union added :=
  rfl

theorem union_append (more : KeySet) : keys.union (added ++ more) = (keys.union added).union more :=
  List.foldl_append

theorem mem_texts_union {text : String} :
    text ∈ (keys.union added).texts ↔ text ∈ keys.texts ∨ text ∈ added.texts := by
  induction added generalizing keys with
  | nil => simp [union, texts]
  | cons key others ih =>
      rw [union_cons, ih, mem_texts_insert, or_assoc]
      simp [texts]

variable {keys added} in
theorem mem_of_mem_union {key : LocalizationKey} (member : key ∈ keys.union added) :
    key ∈ keys ∨ key ∈ added := by
  induction added generalizing keys with
  | nil => exact .inl member
  | cons first others ih =>
      rw [union_cons] at member
      rcases ih member with inserted | later
      · by_cases known : first.text ∈ keys.texts
        · exact .inl (insert_of_mem known ▸ inserted)
        · rw [insert_of_not_mem known, List.mem_append, List.mem_singleton] at inserted
          exact inserted.imp_right fun here => List.mem_cons.mpr (.inl here)
      · exact .inr (List.mem_cons_of_mem _ later)

variable {keys} in
theorem nodup_texts_union (distinct : keys.texts.Nodup) : (keys.union added).texts.Nodup := by
  induction added generalizing keys with
  | nil => exact distinct
  | cons key others ih => exact ih (nodup_texts_insert distinct key)

/-- What was there first stays; of the added keys the first one counts. -/
theorem withText?_union (text : String) :
    (keys.union added).withText? text = (keys.withText? text).or (added.withText? text) := by
  induction added generalizing keys with
  | nil => simp [union, withText?]
  | cons key others ih =>
      rw [union_cons, ih, withText?_insert, Option.or_assoc]
      congr 1
      by_cases same : key.text == text <;> simp [withText?, List.find?, same]

/-- A change to all keys that tells as many of them apart as before. -/
theorem map_union (change : LocalizationKey → LocalizationKey)
    (faithful : ∀ key other, (change key).text = (change other).text ↔ key.text = other.text) :
    (keys.union added).map change = KeySet.union (keys.map change) (added.map change) := by
  induction added generalizing keys with
  | nil => rfl
  | cons key others ih =>
      have sameTexts : (change key).text ∈ texts (keys.map change) ↔ key.text ∈ keys.texts := by
        simp [texts, faithful]
      have inserted : (keys.insert key).map change =
          KeySet.insert (keys.map change) (change key) := by
        by_cases known : key.text ∈ keys.texts
        · rw [insert_of_mem known, insert_of_mem (sameTexts.mpr known)]
        · rw [insert_of_not_mem known, insert_of_not_mem (mt sameTexts.mp known)]
          simp
      rw [union_cons, ih, inserted, List.map_cons, union_cons]

theorem union_union (more : KeySet) :
    keys.union (added.union more) = (keys.union added).union more := by
  induction more generalizing added with
  | nil => rfl
  | cons key others ih =>
      have inserted : keys.union (added.insert key) = (keys.union added).insert key := by
        by_cases known : key.text ∈ added.texts
        · have reached : key.text ∈ (keys.union added).texts :=
            (mem_texts_union keys added).mpr (.inr known)
          rw [insert_of_mem known, insert_of_mem reached]
        · rw [insert_of_not_mem known, union_append]
          rfl
      rw [union_cons, ih, inserted, union_cons]

theorem union_ofList : keys.union (ofList added) = keys.union added :=
  union_union keys [] added

theorem ofList_append : ofList (keys ++ added) = (ofList keys).union added :=
  union_append [] keys added

theorem map_ofList (change : LocalizationKey → LocalizationKey)
    (faithful : ∀ key other, (change key).text = (change other).text ↔ key.text = other.text) :
    (ofList keys).map change = ofList (keys.map change) :=
  map_union [] keys change faithful

theorem mem_texts_ofList {text : String} : text ∈ (ofList keys).texts ↔ text ∈ keys.texts := by
  rw [ofList, mem_texts_union]
  simp [texts]

variable {keys} in
theorem mem_of_mem_ofList {key : LocalizationKey} (member : key ∈ ofList keys) : key ∈ keys :=
  (mem_of_mem_union member).resolve_left List.not_mem_nil

theorem nodup_texts_ofList : (ofList keys).texts.Nodup :=
  nodup_texts_union keys (by simp [texts])

theorem withText?_ofList (text : String) : (ofList keys).withText? text = keys.withText? text := by
  rw [ofList, withText?_union]
  simp [withText?]

variable {keys added} in
theorem union_of_fresh (distinct : added.texts.Nodup)
    (fresh : ∀ key ∈ added, key.text ∉ keys.texts) : keys.union added = keys ++ added := by
  induction added generalizing keys with
  | nil => simp [union]
  | cons key others ih =>
      obtain ⟨apart, distinctOthers⟩ := List.nodup_cons.mp distinct
      have appended : keys.insert key = keys ++ [key] :=
        insert_of_not_mem (fresh key List.mem_cons_self)
      rw [union_cons, appended, ih distinctOthers, List.append_assoc, List.singleton_append]
      intro other member known
      simp only [texts, List.map_append, List.map_singleton, List.mem_append,
        List.mem_singleton] at known
      rcases known with earlier | same
      · exact fresh other (List.mem_cons_of_mem _ member) earlier
      · exact apart (List.mem_map.mpr ⟨other, member, same⟩)

variable {keys} in
theorem ofList_of_distinct (distinct : keys.texts.Nodup) : ofList keys = keys :=
  union_of_fresh distinct (by simp [texts])

variable {keys} in
theorem withText?_eq_some_of_mem (distinct : keys.texts.Nodup) {key : LocalizationKey}
    (member : key ∈ keys) : keys.withText? key.text = some key := by
  induction keys with
  | nil => simp at member
  | cons first others ih =>
      obtain ⟨fresh, apart⟩ := List.nodup_cons.mp distinct
      rcases List.mem_cons.mp member with rfl | later
      · simp [withText?]
      · have different : first.text ≠ key.text := fun same =>
          fresh (List.mem_map.mpr ⟨key, later, same.symm⟩)
        rw [withText?, List.find?_cons_of_neg (by simpa using different)]
        exact ih apart later

variable {keys} in
theorem filter_text_eq (distinct : keys.texts.Nodup) (text : String) :
    keys.filter (·.text == text) = (keys.withText? text).toList := by
  induction keys with
  | nil => rfl
  | cons key others ih =>
      obtain ⟨fresh, apart⟩ := List.nodup_cons.mp distinct
      by_cases same : key.text = text
      · have missing : withText? others text = none := by
          apply List.find?_eq_none.mpr
          intro other member again
          exact fresh (List.mem_map.mpr ⟨other, member, (beq_iff_eq.mp again).trans same.symm⟩)
        rw [List.filter_cons_of_pos (by simpa using same), ih apart, missing]
        simp [withText?, same]
      · rw [List.filter_cons_of_neg (by simpa using same), ih apart]
        simp [withText?, same]

end KeySet

end LocalizationAudit
