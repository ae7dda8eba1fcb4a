import LocalizationAudit.Proofs.ScanResult

/-!
A scan result after any sequence of additions. Of equal keys the first one is kept as the defined
key while all of them are kept as occurrences; both views are kept in step by every addition, and
all that is asked of a result is the same for every order of the additions.
-/

namespace LocalizationAudit

theorem map_fst_addOccurrence {occurrences : List (String × List LocalizationKey)}
    {keys : KeySet} (inStep : occurrences.map Prod.fst = keys.texts) (key : LocalizationKey) :
    (addOccurrence occurrences key).map Prod.fst = (keys.insert key).texts := by
  have sameTest : occurrences.any (·.1 == key.text) = true ↔ key.text ∈ keys.texts := by
    rw [← inStep]
    simp
  rw [addOccurrence]
  by_cases known : key.text ∈ keys.texts
  · rw [if_pos (sameTest.mpr known), KeySet.insert_of_mem known, ← inStep, List.map_map]
    apply List.map_congr_left
    intro entry _
    by_cases same : entry.1 = key.text <;> simp [same]
  · rw [if_neg (mt sameTest.mp known), KeySet.insert_of_not_mem known, List.map_append, inStep]
    simp [KeySet.texts]

theorem map_fst_foldl_addOccurrence {occurrences : List (String × List LocalizationKey)}
    {keys : KeySet} (inStep : occurrences.map Prod.fst = keys.texts) (added : KeySet) :
    (added.foldl addOccurrence occurrences).map Prod.fst = (keys.union added).texts := by
  induction added generalizing occurrences keys with
  | nil => exact inStep
  | cons key others ih => exact ih (map_fst_addOccurrence inStep key)

/-- What is added to a result at a time: the keys of one resource, or the literals of one source. -/
inductive Addition where
  | keys (added : List LocalizationKey)
  | literals (added : List String)

namespace Addition

def keySet : Addition → KeySet
  | .keys added => KeySet.ofList added
  | .literals _ => []

def literalTexts : Addition → List String
  | .keys _ => []
  | .literals added => added

theorem nodup_texts_keySet (addition : Addition) : addition.keySet.texts.Nodup := by
  cases addition with
  | keys added => exact KeySet.nodup_texts_ofList added
  | literals added => exact List.nodup_nil

end Addition

namespace ScanResult

def add (result : ScanResult) : Addition → ScanResult
  | .keys added => result.addKeys added
  | .literals added => result.addLiterals added

def ofAdditions (history : List Addition) : ScanResult :=
  history.foldl add {}

def sitesIn (history : List Addition) (text : String) : List LocalizationKey :=
  history.filterMap fun addition => addition.keySet.withText? text

structure Reflects (history : List Addition) (result : ScanResult) : Prop where
  distinct : result.definedKeys.texts.Nodup
  first : ∀ text, result.definedKeys.withText? text = (sitesIn history text).head?
  inStep : result.occurrences.map Prod.fst = result.definedKeys.texts
  sites : ∀ text, result.keysAt text = sitesIn history text
  distinctLiterals : result.usedLiterals.Nodup
  literals : ∀ text, text ∈ result.usedLiterals ↔
    ∃ addition ∈ history, text ∈ addition.literalTexts
  untouched : result.resourceFiles = 0 ∧ result.sourceFiles = 0 ∧ result.failures = []

theorem reflects_nil : Reflects [] {} where
  distinct := List.nodup_nil
  first := fun _ => rfl
  inStep := rfl
  sites := fun _ => rfl
  distinctLiterals := List.nodup_nil
  literals := by simp
  untouched := ⟨rfl, rfl, rfl⟩

theorem sitesIn_append (history : List Addition) (addition : Addition) (text : String) :
    sitesIn (history ++ [addition]) text =
      sitesIn history text ++ (addition.keySet.withText? text).toList := by
  rw [sitesIn, List.filterMap_append, sitesIn]
  cases found : addition.keySet.withText? text <;> simp [found]

theorem Reflects.addKeys {history : List Addition} {result : ScanResult}
    (reflects : result.Reflects history) (added : List LocalizationKey) :
    (result.addKeys added).Reflects (history ++ [.keys added]) where
  distinct := by
    rw [definedKeys_addKeys]
    exact KeySet.nodup_texts_union _ reflects.distinct
  first := by
    intro text
    rw [definedKeys_addKeys, KeySet.withText?_union, reflects.first, sitesIn_append,
      List.head?_append, Addition.keySet, KeySet.withText?_ofList, Option.head?_toList]
  inStep := map_fst_foldl_addOccurrence reflects.inStep (KeySet.ofList added)
  sites := by
    intro text
    rw [keysAt_addKeys, reflects.sites, sitesIn_append,
      KeySet.filter_text_eq (KeySet.nodup_texts_ofList added), Addition.keySet]
  distinctLiterals := reflects.distinctLiterals
  literals := by
    intro text
    rw [usedLiterals_addKeys, reflects.literals]
    simp [Addition.literalTexts]
  untouched := reflects.untouched

theorem sitesIn_literals (history : List Addition) (added : List String) (text : String) :
    sitesIn (history ++ [.literals added]) text = sitesIn history text := by
  rw [sitesIn_append]
  exact List.append_nil _

theorem Reflects.addLiterals {history : List Addition} {result : ScanResult}
    (reflects : result.Reflects history) (added : List String) :
    (result.addLiterals added).Reflects (history ++ [.literals added]) where
  distinct := reflects.distinct
  first := by
    intro text
    rw [definedKeys_addLiterals, reflects.first, sitesIn_literals]
  inStep := reflects.inStep
  sites := by
    intro text
    rw [keysAt_addLiterals, reflects.sites, sitesIn_literals]
  distinctLiterals := nodup_usedLiterals_addLiterals result added
  literals := by
    intro text
    rw [mem_usedLiterals_addLiterals, reflects.literals]
    simp [Addition.literalTexts, or_and_right, exists_or]
  untouched := reflects.untouched

theorem Reflects.add {history : List Addition} {result : ScanResult}
    (reflects : result.Reflects history) (addition : Addition) :
    (result.add addition).Reflects (history ++ [addition]) := by
  cases addition with
  | keys added => exact reflects.addKeys added
  | literals added => exact reflects.addLiterals added

theorem Reflects.foldl_add {history : List Addition} {result : ScanResult}
    (reflects : result.Reflects history) (additions : List Addition) :
    (additions.foldl ScanResult.add result).Reflects (history ++ additions) := by
  induction additions generalizing history result with
  | nil => simpa using reflects
  | cons addition others ih => simpa using ih (reflects.add addition)

theorem reflects_ofAdditions (history : List Addition) :
    (ofAdditions history).Reflects history :=
  reflects_nil.foldl_add history

theorem mem_sitesIn {history : List Addition} {text : String} {key : LocalizationKey} :
    key ∈ sitesIn history text ↔
      key.text = text ∧ ∃ addition ∈ history, key ∈ addition.keySet := by
  have chosen (addition : Addition) : addition.keySet.withText? text = some key ↔
      key.text = text ∧ key ∈ addition.keySet := by
    constructor
    · intro found
      exact ⟨by simpa using List.find?_some found, List.mem_of_find?_eq_some found⟩
    · rintro ⟨rfl, member⟩
      exact KeySet.withText?_eq_some_of_mem addition.nodup_texts_keySet member
  simp only [sitesIn, List.mem_filterMap, chosen]
  constructor
  · rintro ⟨addition, added, same, member⟩
    exact ⟨same, addition, added, member⟩
  · rintro ⟨same, addition, added, member⟩
    exact ⟨addition, added, same, member⟩

namespace Reflects

variable {history reordered : List Addition} {result other : ScanResult}

theorem mem_texts (reflects : result.Reflects history) {text : String} :
    text ∈ result.definedKeys.texts ↔ sitesIn history text ≠ [] := by
  rw [← List.isSome_head?, ← reflects.first, KeySet.withText?, List.find?_isSome]
  simp [KeySet.texts]

theorem entry_eq (reflects : result.Reflects history) {text : String}
    {keys : List LocalizationKey} (member : (text, keys) ∈ result.occurrences) :
    keys = sitesIn history text := by
  obtain ⟨before, after, split⟩ := List.append_of_mem member
  have apart : (result.occurrences.map Prod.fst).Nodup := reflects.inStep ▸ reflects.distinct
  have first : before.lookup text = none := by
    apply List.lookup_eq_none_iff.mpr
    intro earlier inBefore
    rw [split, List.map_append] at apart
    have different := (List.nodup_append.mp apart).2.2 earlier.1
      (List.mem_map_of_mem inBefore) text (by simp)
    simpa using different.symm
  have found : result.occurrences.lookup text = some keys := by
    rw [split, List.lookup_append, first]
    simp
  have kept : result.keysAt text = keys := by
    rw [keysAt, found]
    rfl
  rw [← kept, reflects.sites]

theorem entry_ne_nil (reflects : result.Reflects history) {text : String}
    {keys : List LocalizationKey} (member : (text, keys) ∈ result.occurrences) : keys ≠ [] := by
  have defined : text ∈ result.definedKeys.texts := by
    rw [← reflects.inStep]
    exact List.mem_map_of_mem member
  rw [reflects.entry_eq member]
  exact reflects.mem_texts.mp defined

theorem mem_locationsOf (reflects : result.Reflects history) {text location : String} :
    location ∈ result.locationsOf text ↔ location ≠ "" ∧
      ∃ addition ∈ history, ∃ key ∈ addition.keySet, key.text = text ∧ key.location = location := by
  simp only [locationsOf, mem_sortedDistinct, reflects.sites, List.mem_filter, List.mem_map,
    mem_sitesIn]
  constructor
  · rintro ⟨⟨key, ⟨same, addition, added, member⟩, located⟩, known⟩
    exact ⟨by simpa using known, addition, added, key, member, same, located⟩
  · rintro ⟨known, addition, added, key, member, same, located⟩
    exact ⟨⟨key, ⟨same, addition, added, member⟩, located⟩, by simpa using known⟩

/-- Only which of several equal keys is the defined one depends on the order. -/
theorem agrees (reflects : result.Reflects history) (reflectsToo : other.Reflects reordered)
    (perm : reordered.Perm history) : other.Agrees result where
  texts := by
    apply (List.perm_ext_iff_of_nodup reflectsToo.distinct reflects.distinct).mpr
    intro text
    have sameCount : (sitesIn reordered text).length = (sitesIn history text).length :=
      (perm.filterMap _).length_eq
    rw [reflects.mem_texts, reflectsToo.mem_texts, ← List.length_pos_iff, ← List.length_pos_iff,
      sameCount]
  literals := by
    apply (List.perm_ext_iff_of_nodup reflectsToo.distinctLiterals reflects.distinctLiterals).mpr
    intro text
    rw [reflects.literals, reflectsToo.literals]
    simp only [perm.mem_iff]
  sites := by
    intro text
    rw [reflects.sites, reflectsToo.sites]
    exact perm.filterMap _
  resourceFiles := reflectsToo.untouched.1.trans reflects.untouched.1.symm
  sourceFiles := reflectsToo.untouched.2.1.trans reflects.untouched.2.1.symm
  failures := reflectsToo.untouched.2.2.trans reflects.untouched.2.2.symm

end Reflects

/-- Additions in any order: both views of the keys are in step with each other and with what was
added, and a reordering changes neither the texts nor what is reported. -/
theorem ofAdditions_in_step (history : List Addition) :
    (ofAdditions history).definedKeys.texts.Nodup ∧
      (∀ text, (ofAdditions history).definedKeys.withText? text =
        (sitesIn history text).head?) ∧
      (ofAdditions history).occurrences.map Prod.fst = (ofAdditions history).definedKeys.texts ∧
      (∀ text keys, (text, keys) ∈ (ofAdditions history).occurrences →
        keys = sitesIn history text ∧ keys ≠ [] ∧ ∀ key ∈ keys, key.text = text) ∧
      (∀ text, text ∈ (ofAdditions history).usedLiterals ↔
        ∃ addition ∈ history, text ∈ addition.literalTexts) ∧
      (∀ text, ((ofAdditions history).locationsOf text).Pairwise (· < ·) ∧
        ∀ location, location ∈ (ofAdditions history).locationsOf text ↔ location ≠ "" ∧
          ∃ addition ∈ history, ∃ key ∈ addition.keySet,
            key.text = text ∧ key.location = location) ∧
      ∀ reordered : List Addition, reordered.Perm history →
        (ofAdditions reordered).definedKeys.texts.Perm (ofAdditions history).definedKeys.texts ∧
        (ofAdditions reordered).usedLiterals.Perm (ofAdditions history).usedLiterals ∧
        (ofAdditions reordered).unusedTexts = (ofAdditions history).unusedTexts ∧
        ∀ text, (ofAdditions reordered).locationsOf text =
          (ofAdditions history).locationsOf text := by
  have reflects := reflects_ofAdditions history
  refine ⟨reflects.distinct, reflects.first, reflects.inStep, ?_, reflects.literals, ?_, ?_⟩
  · intro text keys member
    have listed := reflects.entry_eq member
    refine ⟨listed, reflects.entry_ne_nil member, ?_⟩
    intro key inKeys
    rw [listed] at inKeys
    exact (mem_sitesIn.mp inKeys).1
  · intro text
    exact ⟨sortedDistinct_increasing _, fun _ => reflects.mem_locationsOf⟩
  · intro reordered perm
    have agrees := reflects.agrees (reflects_ofAdditions reordered) perm
    exact ⟨agrees.texts, agrees.literals, agrees.unusedTexts_eq, agrees.locationsOf_eq⟩

def sampleHistory : List Addition :=
  [.keys [⟨"title", "a.strings", some 1⟩, ⟨"hint", none, some 7⟩], .literals ["hint"],
    .keys [⟨"title", "b.strings", none⟩, ⟨"title", "b.strings", some 9⟩]]

/-- The other order keeps another defined key, and nothing that is reported tells it. -/
theorem ofAdditions_in_step_reversed :
    (ofAdditions sampleHistory).definedKeys.withText? "title" =
        some ⟨"title", "a.strings", some 1⟩ ∧
      (ofAdditions sampleHistory.reverse).definedKeys.withText? "title" =
        some ⟨"title", "b.strings", none⟩ ∧
      ("title", sitesIn sampleHistory "title") ∈ (ofAdditions sampleHistory).occurrences ∧
      "b.strings" ∈ (ofAdditions sampleHistory).locationsOf "title" ∧
      (ofAdditions sampleHistory.reverse).unusedTexts = (ofAdditions sampleHistory).unusedTexts ∧
      (ofAdditions sampleHistory.reverse).locationsOf "title" =
        (ofAdditions sampleHistory).locationsOf "title" := by
  obtain ⟨-, first, -, entries, -, locations, reorder⟩ := ofAdditions_in_step sampleHistory
  obtain ⟨-, -, unused, sameLocations⟩ := reorder _ (List.reverse_perm _)
  refine ⟨(first "title").trans rfl, by decide +kernel, ?_, ?_, unused, sameLocations "title"⟩
  · have listed : ("title", [⟨"title", "a.strings", some 1⟩, ⟨"title", "b.strings", none⟩]) ∈
        (ofAdditions sampleHistory).occurrences := by decide +kernel
    exact (entries _ _ listed).1 ▸ listed
  · refine ((locations "title").2 _).mpr ⟨by decide, ?_⟩
    exact ⟨_, List.mem_cons_of_mem _ (List.mem_cons_of_mem _ List.mem_cons_self),
      ⟨"title", "b.strings", none⟩, by decide +kernel, rfl, rfl⟩

end ScanResult

end LocalizationAudit
