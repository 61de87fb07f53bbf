import CommandEngine.Proofs.Scanner.OpenWord
/-!
# What words look like

No command comes without words, and every word of a command has something in it and no blanks at its
ends. The words come to a command by many ways, a delimiter, the end of a quotation, a block mark,
the end of a text, but every way leads through `Scan.endWord`, which trims.

The one word that is stored without being trimmed is that of an open quotation, and it is stored as
the last of the pending words. It never gets from there into a command: the next text takes it up
again as the word being read. So all pending words but the last are trimmed, and the last one as
well unless a quotation is open (`Scanner.HasWords`).
-/

namespace CommandEngine

/-- The text can be a word: there is something in it, and there are no blanks at its ends. -/
structure Text.IsWord (text : String) : Prop where
  nonempty : text ≠ ""
  trimmed : Text.isTrimmed text = true

namespace Scan

variable {g : Grammar} {s : Scan}

/-- All words that the scan has finished are words, in the statement being read as in the commands
before it. -/
structure HasWords (s : Scan) : Prop where
  words : ∀ word ∈ s.words, Text.IsWord word
  commands : ∀ words, .command words ∈ s.statements → ∀ word ∈ words, Text.IsWord word

namespace HasWords

theorem endWord (has : s.HasWords) : s.endWord.HasWords where
  words := by
    intro word here
    rw [Scan.endWord] at here
    dsimp only at here
    split at here
    case isTrue => exact has.words word here
    case isFalse shown =>
      rcases List.mem_append.1 here with old | new
      · exact has.words word old
      · rw [List.mem_singleton.1 new]
        exact ⟨fun empty => shown (by simp [empty]), Text.isTrimmed_trim s.word⟩
  commands := has.commands

theorem emit (has : s.HasWords) {statement : Statement}
    (proper : ∀ words, statement = .command words → ∀ word ∈ words, Text.IsWord word) :
    (s.emit statement).HasWords where
  words := has.words
  commands := by
    intro words here
    rcases List.mem_append.1 here with old | new
    · exact has.commands words old
    · exact proper words (List.mem_singleton.1 new).symm

theorem endStatement (has : s.HasWords) : s.endStatement.HasWords := by
  rw [Scan.endStatement]
  split
  · exact has
  · have emitted : (s.emit (.command s.words)).HasWords := by
      apply has.emit
      rintro words ⟨rfl⟩
      exact has.words
    exact ⟨List.forall_mem_nil _, emitted.commands⟩

theorem takeQuote (has : s.HasWords) (c : Char) : (s.takeQuote c).HasWords := by
  have toggled : ({ s.extend c with openQuotes := toggleQuote c s.openQuotes } : Scan).HasWords :=
    ⟨has.words, has.commands⟩
  rw [Scan.takeQuote]
  dsimp only
  split
  · exact toggled
  · exact toggled.endWord

theorem act (has : s.HasWords) (c : Char) (role : Role) : (s.act c role).HasWords := by
  cases role with
  | skipped => exact has
  | quote => exact has.takeQuote c
  | opening => exact has.endWord.endStatement.emit nofun
  | closing => exact has.endWord.endStatement.emit nofun
  | escape => exact ⟨has.words, has.commands⟩
  | terminator => exact has.endWord.endStatement
  | delimiter => exact has.endWord
  | letter => exact ⟨has.words, has.commands⟩

theorem step (has : s.HasWords) (g : Grammar) (c : Char) : (s.step g c).HasWords := by
  rw [Scan.step]
  split
  · rw [takeEscaped]
    split <;> exact ⟨has.words, has.commands⟩
  · exact has.act c _

theorem run (has : s.HasWords) (g : Grammar) (cs : List Char) : (s.run g cs).HasWords := by
  induction cs generalizing s with
  | nil => exact has
  | cons c rest ih => exact ih (has.step g c)

end HasWords

end Scan

namespace Scanner

variable {g : Grammar} {scanner : Scanner}

/-- The pending words are words, except that the last one may still stand in an open quotation. -/
structure HasWords (scanner : Scanner) : Prop where
  /-- The words in front of the last one are words. -/
  front : ∀ word ∈ scanner.pending.dropLast, Text.IsWord word
  unquoted : scanner.openQuotes = [] → ∀ word ∈ scanner.pending, Text.IsWord word

namespace HasWords

theorem fresh : fresh.HasWords := ⟨nofun, nofun⟩

/-- The word of an open quotation is taken up again, and all others are words. -/
theorem resume (has : scanner.HasWords) : scanner.resume.HasWords := by
  unfold Scanner.resume
  dsimp only
  split
  case isTrue unquoted => exact ⟨has.unquoted (List.isEmpty_iff.1 unquoted), nofun⟩
  case isFalse =>
    split
    case h_1 => exact ⟨has.front, nofun⟩
    case h_2 empty =>
      rw [List.getLast?_eq_none_iff] at empty
      exact ⟨by simp [empty], nofun⟩

/-- Closing a scan stores the word of an open quotation last, and ends every other word. -/
theorem close {s : Scan} (has : s.HasWords) (g : Grammar) :
    HasWords ⟨(s.close g).openQuotes, (s.close g).words⟩ ∧
      ∀ words, .command words ∈ (s.close g).statements → ∀ word ∈ words, Text.IsWord word := by
  by_cases quoted : s.isQuoted = true
  · have hquotes : s.openQuotes ≠ [] := by simpa [Scan.isQuoted] using quoted
    refine ⟨⟨fun word here => ?_, fun unquoted => ?_⟩, ?_⟩
    · simp only [Scan.close, if_pos quoted] at here
      split at here
      · exact has.words word (List.dropLast_subset _ here)
      · rw [List.dropLast_concat] at here
        exact has.words word here
    · rw [Scan.openQuotes_close] at unquoted
      exact absurd unquoted hquotes
    · simp only [Scan.close, if_pos quoted]
      exact has.commands
  · have closed : (s.close g).HasWords := by
      rw [Scan.close, if_neg quoted]
      split
      · exact has.endWord.endStatement
      · exact has.endWord
    exact ⟨⟨fun word here => closed.words word (List.dropLast_subset _ here),
      fun _ => closed.words⟩, closed.commands⟩

/-- A text completes commands of proper words, and leaves words pending. -/
theorem read (has : scanner.HasWords) (g : Grammar) (text : String) :
    (scanner.read g text).2.HasWords ∧ ∀ words, .command words ∈ (scanner.read g text).1 →
      ∀ word ∈ words, Text.IsWord word :=
  close (has.resume.run g text.toList) g

theorem perform (has : scanner.HasWords) (g : Grammar) (call : Call) :
    (scanner.perform g call).2.HasWords ∧ ∀ words, .command words ∈ (scanner.perform g call).1 →
      words ≠ [] ∧ ∀ word ∈ words, Text.IsWord word := by
  cases call with
  | reset => exact ⟨fresh, nofun⟩
  | read text =>
      obtain ⟨after, proper⟩ := has.read g text
      refine ⟨after, fun words here => ⟨?_, proper words here⟩⟩
      rintro rfl
      exact command_nil_not_mem_read g scanner text here

theorem performAll (has : scanner.HasWords) (g : Grammar) (calls : List Call) :
    (scanner.performAll g calls).HasWords := by
  induction calls generalizing scanner with
  | nil => exact has
  | cons call rest ih => exact ih (has.perform g call).1

theorem answers (has : scanner.HasWords) (g : Grammar) (calls : List Call) :
    ∀ answer ∈ scanner.answers g calls, ∀ words, .command words ∈ answer.1 →
      words ≠ [] ∧ ∀ word ∈ words, Text.IsWord word := by
  induction calls generalizing scanner with
  | nil => exact nofun
  | cons call rest ih =>
      obtain ⟨after, proper⟩ := has.perform g call
      exact List.forall_mem_cons.2 ⟨proper, ih after⟩

end HasWords

/-- Let calls be made of a new scanner. Every command that they complete has words, and all of them
are non-empty and trimmed. So are the pending words, except that the last one may stand in an open
quotation. -/
theorem answers_have_words (g : Grammar) (calls : List Call) :
    let scanner := fresh.performAll g calls
    (∀ answer ∈ fresh.answers g calls, ∀ words, .command words ∈ answer.1 →
      words ≠ [] ∧ ∀ word ∈ words, Text.IsWord word) ∧
    (∀ word ∈ scanner.pending.dropLast, Text.IsWord word) ∧
    (scanner.openQuotes = [] → ∀ word ∈ scanner.pending, Text.IsWord word) := by
  intro scanner
  have has : scanner.HasWords := HasWords.fresh.performAll g calls
  exact ⟨HasWords.fresh.answers g calls, has.front, has.unquoted⟩

/-- A word that starts with a blank while its quotation is open, and is trimmed when it ends. -/
example :
    fresh.answers quoting [.read "\u2003\"a ", .read " b\" ;"] =
      [([], ["\u2003\"a "]), ([.command ["\"a  b\""]], [])] := by decide +kernel

end Scanner

end CommandEngine
