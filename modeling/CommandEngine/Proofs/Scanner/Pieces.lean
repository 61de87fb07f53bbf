import CommandEngine.Scanner
import Mathlib.Tactic.SplitIfs
/-!
# Reading a text in pieces

A scan keeps the statements it has read, but no character looks at them: a scan that starts with
statements in hand reads on as one that starts without (`Scan.run_after`). Closing a scan outside of
a quotation and resuming it does what a delimiter does, up to those statements. Together this is
`Scanner.read_join`: two pieces with a delimiter between them are read as one.

A blank piece is a special case that sessions skip. Outside of a quotation, and as long as every
mark of the grammar can be seen, reading it would have changed nothing (`Scanner.read_blank`).
-/

namespace CommandEngine

namespace Grammar

/-- A character that is none of the marks, though it may be the delimiter. -/
structure IsPlain (g : Grammar) (c : Char) : Prop where
  not_quote : c ∉ g.quotes
  not_escape : g.escape ≠ some c
  not_terminator : g.terminator ≠ some c
  not_block : ∀ marks, g.blocks = some marks → c ≠ marks.opening ∧ c ≠ marks.closing

/-- The delimiter has no other meaning. -/
structure HasOwnDelimiter (g : Grammar) : Prop extends IsPlain g g.delimiter where
  not_lineBreak : isLineBreak g.delimiter = false

/-- No mark of the grammar but the delimiter is a blank. -/
structure HasVisibleMarks (g : Grammar) : Prop where
  quotes : ∀ c ∈ g.quotes, Text.isBlank c = false
  escape : ∀ c, g.escape = some c → Text.isBlank c = false
  terminator : ∀ c, g.terminator = some c → Text.isBlank c = false
  blocks : ∀ marks, g.blocks = some marks →
    Text.isBlank marks.opening = false ∧ Text.isBlank marks.closing = false

variable {g : Grammar} {c : Char}

theorem opensBlock_eq_false
    (apart : ∀ marks, g.blocks = some marks → c ≠ marks.opening ∧ c ≠ marks.closing) :
    g.opensBlock c = false := by
  cases hmarks : g.blocks with
  | none => simp [opensBlock, hmarks]
  | some marks => simp [opensBlock, hmarks, (apart marks hmarks).1]

theorem closesBlock_eq_false
    (apart : ∀ marks, g.blocks = some marks → c ≠ marks.opening ∧ c ≠ marks.closing) :
    g.closesBlock c = false := by
  cases hmarks : g.blocks with
  | none => simp [closesBlock, hmarks]
  | some marks => simp [closesBlock, hmarks, (apart marks hmarks).2]

/-- Outside of a quotation, a plain character can at most end a word. -/
theorem role_of_isPlain (plain : g.IsPlain c) :
    g.role false c =
      if isLineBreak c then .skipped
      else if c == g.delimiter then .delimiter
      else if c == ' ' then .skipped
      else .letter := by
  simp [role, isQuote, plain.not_quote, opensBlock_eq_false plain.not_block,
    closesBlock_eq_false plain.not_block, plain.not_escape, plain.not_terminator]

theorem role_delimiter (own : g.HasOwnDelimiter) : g.role false g.delimiter = .delimiter := by
  simp [role_of_isPlain own.toIsPlain, own.not_lineBreak]

theorem HasVisibleMarks.isPlain (visible : g.HasVisibleMarks) (blank : Text.isBlank c = true) :
    g.IsPlain c := by
  have apart {mark : Char} (shown : Text.isBlank mark = false) : c ≠ mark := by
    rintro rfl
    rw [blank] at shown
    cases shown
  exact
    { not_quote := fun here => apart (visible.quotes c here) rfl
      not_escape := fun here => apart (visible.escape c here) rfl
      not_terminator := fun here => apart (visible.terminator c here) rfl
      not_block := fun marks hmarks =>
        ⟨apart (visible.blocks marks hmarks).1, apart (visible.blocks marks hmarks).2⟩ }

end Grammar

namespace Scan

variable {g : Grammar} {s : Scan} {past : List Statement}

/-- Ending a word touches nothing but the words. -/
theorem endWord_eq (s : Scan) : s.endWord = { s with word := "", words := s.endWord.words } := by
  simp [endWord]

/-- The scan with other statements in hand before its own. -/
def after (past : List Statement) (s : Scan) : Scan :=
  { s with statements := past ++ s.statements }

@[simp]
theorem endWord_after (past : List Statement) (s : Scan) :
    (s.after past).endWord = s.endWord.after past := by
  simp [endWord, after]

@[simp]
theorem emit_after (past : List Statement) (s : Scan) (statement : Statement) :
    (s.after past).emit statement = (s.emit statement).after past := by
  simp [after, emit]

@[simp]
theorem endStatement_after (past : List Statement) (s : Scan) :
    (s.after past).endStatement = s.endStatement.after past := by
  have hwords : (s.after past).words = s.words := rfl
  rw [endStatement, endStatement, hwords, emit_after]
  split <;> rfl

@[simp]
theorem takeQuote_after (past : List Statement) (s : Scan) (c : Char) :
    (s.after past).takeQuote c = (s.takeQuote c).after past := by
  cases hquotes : toggleQuote c s.openQuotes <;>
    simp [takeQuote, isQuoted, extend, endWord, after, hquotes]

@[simp]
theorem takeEscaped_after (g : Grammar) (past : List Statement) (s : Scan) (escape c : Char) :
    (s.after past).takeEscaped g escape c = (s.takeEscaped g escape c).after past := by
  cases hquote : g.isQuote c <;> simp [takeEscaped, extend, after, hquote]

@[simp]
theorem act_after (past : List Statement) (s : Scan) (c : Char) (role : Role) :
    (s.after past).act c role = (s.act c role).after past := by
  cases role <;> simp only [act, endWord_after, endStatement_after, emit_after, takeQuote_after] <;>
    rfl

@[simp]
theorem step_after (g : Grammar) (past : List Statement) (s : Scan) (c : Char) :
    (s.after past).step g c = (s.step g c).after past := by
  have hescape : (s.after past).escape = s.escape := rfl
  have hquoted : (s.after past).isQuoted = s.isQuoted := rfl
  rw [step, step, hescape, hquoted]
  split
  · exact takeEscaped_after g past s _ c
  · exact act_after past s c _

/-- Statements in hand do not change what is read. -/
@[simp]
theorem run_after (g : Grammar) (past : List Statement) (s : Scan) (cs : List Char) :
    (s.after past).run g cs = (s.run g cs).after past := by
  induction cs generalizing s with
  | nil => rfl
  | cons c rest ih => rw [run_cons, step_after, ih, run_cons]

@[simp]
theorem close_after (g : Grammar) (past : List Statement) (s : Scan) :
    (s.after past).close g = (s.close g).after past := by
  have hquoted : (s.after past).isQuoted = s.isQuoted := rfl
  rw [close, close, hquoted, endWord_after, endStatement_after]
  split
  · rfl
  · split <;> rfl

private theorem command_nil_not_mem_endStatement (named : Statement.command [] ∉ s.statements) :
    Statement.command [] ∉ s.endStatement.statements := by
  unfold endStatement
  split
  · exact named
  case isFalse hwords =>
    intro here
    rcases List.mem_append.1 here with old | new
    · exact named old
    · have empty : s.words = [] := (Statement.command.inj (List.mem_singleton.1 new)).symm
      exact hwords (List.isEmpty_iff.2 empty)

private theorem command_nil_not_mem_step (named : Statement.command [] ∉ s.statements) (c : Char) :
    Statement.command [] ∉ (s.step g c).statements := by
  have ended : Statement.command [] ∉ s.endWord.endStatement.statements :=
    command_nil_not_mem_endStatement named
  rw [step]
  split
  · rw [takeEscaped]
    split <;> exact named
  · cases g.role s.isQuoted c with
    | skipped => exact named
    | quote =>
        rw [act, takeQuote]
        dsimp only
        split <;> exact named
    | opening => simpa [act, emit] using ended
    | closing => simpa [act, emit] using ended
    | escape => exact named
    | terminator => exact ended
    | delimiter => exact named
    | letter => exact named

private theorem command_nil_not_mem_run (named : Statement.command [] ∉ s.statements)
    (cs : List Char) :
    Statement.command [] ∉ (s.run g cs).statements := by
  induction cs generalizing s with
  | nil => exact named
  | cons c rest ih => exact ih (command_nil_not_mem_step named c)

private theorem command_nil_not_mem_close (named : Statement.command [] ∉ s.statements) :
    Statement.command [] ∉ (s.close g).statements := by
  rw [close]
  split
  · exact named
  · split
    · exact command_nil_not_mem_endStatement named
    · exact named

/-! ## Outside of a quotation -/

@[simp]
theorem openQuotes_close (g : Grammar) (s : Scan) : (s.close g).openQuotes = s.openQuotes := by
  rw [close]
  split
  · rfl
  · split
    · rw [endStatement]
      split <;> rfl
    · rfl

theorem isQuoted_of_openQuotes_eq_nil (hquotes : s.openQuotes = []) : s.isQuoted = false := by
  simp [isQuoted, hquotes]

theorem step_of_unquoted (hquotes : s.openQuotes = []) (hescape : s.escape = none) (c : Char) :
    s.step g c = s.act c (g.role false c) := by
  simp [step, hescape, isQuoted_of_openQuotes_eq_nil hquotes]

/-- With a terminator, closing a scan ends the word and nothing else. -/
theorem close_of_unquoted (hterminator : g.terminator.isSome = true)
    (hquotes : s.openQuotes = []) : s.close g = s.endWord := by
  have hnone : g.terminator.isNone = false := by simp [← Option.not_isSome, hterminator]
  simp [close, isQuoted_of_openQuotes_eq_nil hquotes, hnone]

/-- Ending a blank word only drops it. -/
theorem endWord_of_isBlankText (blank : Text.isBlankText s.word = true) :
    s.endWord = { s with word := "" } := by
  simp [endWord, Text.trim_eq_empty_iff.2 blank]

/-- Blanks outside of a quotation at most put blanks into the word being read. -/
theorem run_of_isBlankText (visible : g.HasVisibleMarks) (hquotes : s.openQuotes = [])
    (hescape : s.escape = none) (hword : Text.isBlankText s.word = true) {cs : List Char}
    (blank : cs.all Text.isBlank = true) :
    ∃ word, Text.isBlankText word = true ∧ s.run g cs = { s with word } := by
  induction cs generalizing s with
  | nil => exact ⟨s.word, hword, rfl⟩
  | cons c rest ih =>
      rw [List.all_cons, Bool.and_eq_true] at blank
      have hstep : ∃ word, Text.isBlankText word = true ∧ s.step g c = { s with word } := by
        rw [step_of_unquoted hquotes hescape, Grammar.role_of_isPlain (visible.isPlain blank.1)]
        split_ifs
        · exact ⟨s.word, hword, rfl⟩
        · exact ⟨"", rfl, endWord_of_isBlankText hword⟩
        · exact ⟨s.word, hword, rfl⟩
        · refine ⟨s.word.push c, ?_, rfl⟩
          simpa [Text.isBlankText, blank.1] using hword
      obtain ⟨word, hword', hstep⟩ := hstep
      rw [run_cons, hstep]
      exact ih hquotes hescape hword' blank.2

end Scan

namespace Scanner

variable {g : Grammar} {scanner : Scanner}

theorem command_nil_not_mem_read (g : Grammar) (scanner : Scanner) (text : String) :
    Statement.command [] ∉ (scanner.read g text).1 := by
  have fresh : Statement.command [] ∉ scanner.resume.statements := by
    unfold resume
    split
    · exact List.not_mem_nil
    · split <;> exact List.not_mem_nil
  exact Scan.command_nil_not_mem_close (Scan.command_nil_not_mem_run fresh text.toList)

theorem resume_of_openQuotes_eq_nil (hquotes : scanner.openQuotes = []) :
    scanner.resume = ⟨[], "", scanner.pending, [], none⟩ := by
  simp [resume, hquotes]

/-- Outside of a quotation, a blank text says nothing. -/
theorem read_blank (visible : g.HasVisibleMarks) (hterminator : g.terminator.isSome = true)
    (hquotes : scanner.openQuotes = []) {text : String} (blank : Text.isBlankText text = true) :
    scanner.read g text = ([], scanner) := by
  have hresume := resume_of_openQuotes_eq_nil hquotes
  obtain ⟨word, hword, hrun⟩ : ∃ word, Text.isBlankText word = true ∧
      scanner.resume.run g text.toList = { scanner.resume with word } := by
    rw [hresume]
    exact Scan.run_of_isBlankText visible rfl rfl rfl blank
  rw [hresume] at hrun
  have hclose : (scanner.resume.run g text.toList).close g =
      ⟨[], "", scanner.pending, [], none⟩ := by
    rw [hresume, hrun, Scan.close_of_unquoted hterminator rfl, Scan.endWord_of_isBlankText hword]
  rw [read, hclose, ← hquotes]

/-- Two texts with a delimiter between them are read as one, unless the first ends inside a
quotation or in an escape. -/
theorem read_join (own : g.HasOwnDelimiter) (hterminator : g.terminator.isSome = true)
    {front : String} (unquoted : (scanner.read g front).2.openQuotes = [])
    (released : (scanner.resume.run g front.toList).escape = none) (back : String) :
    scanner.read g (front ++ String.singleton g.delimiter ++ back) =
      ((scanner.read g front).1 ++ ((scanner.read g front).2.read g back).1,
        ((scanner.read g front).2.read g back).2) := by
  generalize hfront : scanner.resume.run g front.toList = done at released
  have hopen : done.openQuotes = [] := by
    rw [← Scan.openQuotes_close g done, ← hfront]
    exact unquoted
  have hread : scanner.read g front = (done.statements, ⟨[], done.endWord.words⟩) := by
    rw [read, hfront, Scan.close_of_unquoted hterminator hopen, Scan.endWord_eq, hopen]
  have hstep : done.step g g.delimiter =
      (resume ⟨[], done.endWord.words⟩).after done.statements := by
    rw [Scan.step_of_unquoted hopen released, Grammar.role_delimiter own,
      resume_of_openQuotes_eq_nil rfl, Scan.after, List.append_nil, Scan.act, Scan.endWord_eq,
      hopen, released]
  have htext : (front ++ String.singleton g.delimiter ++ back).toList =
      front.toList ++ g.delimiter :: back.toList := by
    simp
  rw [hread, read, htext, Scan.run_append, hfront, Scan.run_cons, hstep, Scan.run_after,
    Scan.close_after]
  rfl

end Scanner

end CommandEngine
