/-!
Two ways to end a line: with a line feed alone, or with a carriage return in front of it. Going
from the first to the second loses nothing and leaves the end of a text as it was.
-/

namespace LocalizationAudit

def crlfOf (c : Char) : List Char :=
  if c = '\n' then ['\r', '\n'] else [c]

def lfToCrlf (text : List Char) : List Char :=
  text.flatMap crlfOf

@[simp] theorem lfToCrlf_nil : lfToCrlf [] = [] := rfl

theorem lfToCrlf_newline (rest : List Char) :
    lfToCrlf ('\n' :: rest) = '\r' :: '\n' :: lfToCrlf rest := rfl

theorem lfToCrlf_cons {c : Char} (inLine : c ≠ '\n') (rest : List Char) :
    lfToCrlf (c :: rest) = c :: lfToCrlf rest := by
  rw [lfToCrlf, List.flatMap_cons, crlfOf, if_neg inLine, List.singleton_append, lfToCrlf]

theorem lfToCrlf_append (first second : List Char) :
    lfToCrlf (first ++ second) = lfToCrlf first ++ lfToCrlf second :=
  List.flatMap_append

theorem head?_lfToCrlf_ne (text : List Char) : (lfToCrlf text).head? ≠ some '\n' := by
  intro starts
  cases text with
  | nil => simp at starts
  | cons c rest =>
      by_cases ends : c = '\n'
      · rw [ends, lfToCrlf_newline] at starts
        simp at starts
      · rw [lfToCrlf_cons ends] at starts
        exact ends (Option.some.inj starts)

theorem lfToCrlf_eq_nil_iff {text : List Char} : lfToCrlf text = [] ↔ text = [] := by
  cases text with
  | nil => simp
  | cons c rest =>
      by_cases ends : c = '\n'
      · simp [ends, lfToCrlf_newline]
      · simp [lfToCrlf_cons ends]

theorem lfToCrlf_injective : Function.Injective lfToCrlf := by
  intro first
  induction first with
  | nil =>
      intro second same
      exact (lfToCrlf_eq_nil_iff.mp same.symm).symm
  | cons c rest ih =>
      intro second same
      cases second with
      | nil => exact lfToCrlf_eq_nil_iff.mp same
      | cons d others =>
          by_cases ends : c = '\n'
          all_goals by_cases endsToo : d = '\n'
          · subst ends endsToo
            simp only [lfToCrlf_newline, List.cons.injEq, true_and] at same
            rw [ih same]
          · subst ends
            rw [lfToCrlf_newline, lfToCrlf_cons endsToo, List.cons.injEq] at same
            exact absurd (congrArg List.head? same.2).symm (head?_lfToCrlf_ne others)
          · subst endsToo
            rw [lfToCrlf_newline, lfToCrlf_cons ends, List.cons.injEq] at same
            exact absurd (congrArg List.head? same.2) (head?_lfToCrlf_ne rest)
          · rw [lfToCrlf_cons ends, lfToCrlf_cons endsToo, List.cons.injEq] at same
            rw [same.1, ih same.2]

theorem getLast?_lfToCrlf (text : List Char) : (lfToCrlf text).getLast? = text.getLast? := by
  rcases text.eq_nil_or_concat with rfl | ⟨front, last, rfl⟩
  · rfl
  · rw [List.concat_eq_append, lfToCrlf_append, List.getLast?_append, List.getLast?_append]
    by_cases ends : last = '\n'
    · simp [ends, lfToCrlf_newline]
    · simp [lfToCrlf_cons ends]

end LocalizationAudit
