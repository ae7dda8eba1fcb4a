import LocalizationAudit.Proofs.Console.Markup

/-!
Printing on an output that does not take every character. A log comes out up to the first message
with a character that is not taken, and nothing of that message does.
-/

namespace LocalizationAudit

section Encoding

variable {charset : Charset} {text full shown : List Char} {printed : List Char × Option PrintError}

theorem Charset.encode_of_taken (taken : ∀ c ∈ text, charset.encodes c = true) :
    charset.encode text = .ok text := by
  have nothing : text.find? (!charset.encodes ·) = none := by
    apply List.find?_eq_none.mpr
    intro c member
    simp [taken c member]
  rw [encode, nothing]

theorem Charset.exists_refused (untaken : ¬ ∀ c ∈ text, charset.encodes c = true) :
    ∃ c ∈ text, charset.encodes c = false ∧ charset.encode text = .error (.unencodable c) := by
  cases found : text.find? (!charset.encodes ·) with
  | none =>
      refine absurd ?_ untaken
      intro c member
      simpa using List.find?_eq_none.mp found c member
  | some c =>
      refine ⟨c, List.mem_of_find?_eq_some found, ?_, ?_⟩
      · simpa using List.find?_some found
      · rw [encode, found]

/-- What is written of a text that is printed message by message, and what has stopped it. -/
inductive Shows (charset : Charset) : List Char → List Char × Option PrintError → Prop
  | whole {text : List Char} (taken : ∀ c ∈ text, charset.encodes c = true) :
      Shows charset text (text, none)
  | cut {shown rest : List Char} {c : Char} (taken : ∀ c ∈ shown, charset.encodes c = true)
      (member : c ∈ rest) (refused : charset.encodes c = false) :
      Shows charset (shown ++ rest) (shown, some (.unencodable c))

namespace Shows

theorem prepend (taken : ∀ c ∈ text, charset.encodes c = true)
    (later : Shows charset full printed) :
    Shows charset (text ++ full) (text ++ printed.1, printed.2) := by
  cases later with
  | whole takenToo => exact .whole (List.forall_mem_append.mpr ⟨taken, takenToo⟩)
  | cut takenToo member refused =>
      rw [← List.append_assoc]
      exact .cut (List.forall_mem_append.mpr ⟨taken, takenToo⟩) member refused

theorem append_of_error {error : PrintError} (stopped : Shows charset full (shown, some error))
    (more : List Char) : Shows charset (full ++ more) (shown, some error) := by
  cases stopped with
  | cut taken member refused =>
      rw [List.append_assoc]
      exact .cut taken (List.mem_append_left _ member) refused

theorem of_none (done : Shows charset full (shown, none)) :
    shown = full ∧ ∀ c ∈ full, charset.encodes c = true := by
  cases done with
  | whole taken => exact ⟨rfl, taken⟩

end Shows

end Encoding

namespace Console

variable (console : Console)

def uncut : Console :=
  { console with charset := .all }

/-- Only characters that the output does not take keep an escaped message from being printed. -/
theorem exists_print_uncut {message : Message} (harmless : IsHarmless message.markup) :
    ∃ text, console.uncut.print message = .ok text ∧
      console.print message = console.charset.encode text := by
  obtain ⟨styled, rendered⟩ := @IsHarmless.renderMarkup_eq_ok console.emoji _ harmless
  obtain ⟨text, composed⟩ : ∃ text, console.compose message = .ok text :=
    ⟨_, by rw [compose, rendered]; rfl⟩
  have composedToo : console.uncut.compose message = .ok text := composed
  refine ⟨text, ?_, ?_⟩
  · rw [print, composedToo]
    exact Charset.encode_of_taken fun _ _ => rfl
  · rw [print, composed]

theorem printAll_shows {messages : List Message}
    (harmless : ∀ message ∈ messages, IsHarmless message.markup) :
    ∃ full, console.uncut.printAll messages = (full, none) ∧
      Shows console.charset full (console.printAll messages) := by
  induction messages with
  | nil => exact ⟨[], rfl, .whole (by simp)⟩
  | cons message others ih =>
      obtain ⟨text, uncut, own⟩ := console.exists_print_uncut (harmless message List.mem_cons_self)
      obtain ⟨rest, uncutToo, later⟩ :=
        ih fun other member => harmless other (List.mem_cons_of_mem _ member)
      refine ⟨text ++ rest, by simp only [printAll, uncut, uncutToo], ?_⟩
      rw [printAll, own]
      by_cases taken : ∀ c ∈ text, console.charset.encodes c = true
      · rw [Charset.encode_of_taken taken]
        exact later.prepend taken
      · obtain ⟨c, member, refused, stopped⟩ := Charset.exists_refused taken
        rw [stopped]
        rw [← List.nil_append (text ++ rest)]
        exact .cut (by simp) (List.mem_append_left _ member) refused

theorem writeEvent_shows (running : Bool) (event : LogEvent) :
    ∃ full, console.uncut.writeEvent running event = (full, none) ∧
      Shows console.charset full (console.writeEvent running event) := by
  obtain ⟨full, uncut, own⟩ :=
    console.printAll_shows fun _ member => event.isHarmless_of_mem_messages member
  unfold writeEvent
  rw [uncut]
  cases event.endsProgress running with
  | false => exact ⟨full, rfl, own⟩
  | true =>
      have newline : ∀ c ∈ ['\n'], console.charset.encodes c = true := by
        intro c member
        obtain rfl := List.mem_singleton.mp member
        exact console.charset.ascii '\n' (by decide)
      exact ⟨'\n' :: full, rfl, own.prepend newline⟩

/-- Whatever texts a log is made of, all of it is shown that the output takes. -/
theorem writeEvents_shows (running : Bool) (events : List LogEvent) :
    ∃ full, console.uncut.writeEvents running events = (full, none) ∧
      Shows console.charset full (console.writeEvents running events) := by
  induction events generalizing running with
  | nil => exact ⟨[], rfl, .whole (by simp)⟩
  | cons event others ih =>
      obtain ⟨text, uncut, own⟩ := console.writeEvent_shows running event
      obtain ⟨rest, uncutToo, later⟩ := ih (event.progressAfter running)
      refine ⟨text ++ rest, by simp only [writeEvents, uncut, uncutToo], ?_⟩
      rw [writeEvents]
      rcases written : console.writeEvent running event with ⟨shown, _ | error⟩
      · rw [written] at own
        obtain ⟨rfl, taken⟩ := own.of_none
        exact later.prepend taken
      · rw [written] at own
        exact own.append_of_error rest

end Console

end LocalizationAudit
