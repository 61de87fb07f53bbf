import CommandEngine.Proofs.Scanner.Pieces
/-!
# What a scanner carries from one text to the next

Between two texts an unfinished statement is stored as a list of words, and a word inside an open
quotation is the last of them, as it stands. That this loses nothing rests on one invariant: inside
a quotation the word being read is not empty, since the quote that opened it belongs to it. So
closing a scan inside a quotation and resuming it gives the scan back, just as a delimiter does
outside of one.

From this follows what it means to read any number of texts in turn. They are read like one text in
which a delimiter stands after each text that does not end inside a quotation
(`Scanner.readAll_eq_read_joined`).
-/

namespace CommandEngine

namespace Scan

variable {g : Grammar} {s : Scan}

/-- Inside a quotation, the word being read is not empty. -/
def HasOpenWord (s : Scan) : Prop := s.openQuotes ≠ [] → s.word ≠ ""

theorem hasOpenWord_of_openQuotes_eq_nil (hquotes : s.openQuotes = []) : s.HasOpenWord :=
  fun quoted => absurd hquotes quoted

theorem word_extend_ne_empty (s : Scan) (c : Char) : (s.extend c).word ≠ "" := by
  intro empty
  have nonempty := congrArg String.length empty
  simp [extend] at nonempty

/-- A quotation begins with its quote, and nothing but its end ends the word. -/
theorem hasOpenWord_takeQuote (s : Scan) (c : Char) : (s.takeQuote c).HasOpenWord := by
  rw [takeQuote]
  dsimp only
  split
  case isTrue => exact fun _ => word_extend_ne_empty s c
  case isFalse unquoted =>
    apply hasOpenWord_of_openQuotes_eq_nil
    simpa [isQuoted, endWord] using unquoted

/-- Outside of a quotation, a quote opens one. -/
theorem takeQuote_of_unquoted (hquotes : s.openQuotes = []) (c : Char) :
    s.takeQuote c = { s.extend c with openQuotes := [c] } := by
  simp [takeQuote, toggleQuote, hquotes, isQuoted]

@[simp]
theorem openQuotes_endWord (s : Scan) : s.endWord.openQuotes = s.openQuotes := by
  rw [endWord_eq]

@[simp]
theorem openQuotes_endStatement (s : Scan) : s.endStatement.openQuotes = s.openQuotes := by
  rw [endStatement]
  split <;> rfl

/-- Only quotes open and close quotations. -/
theorem openQuotes_act_of_ne_quote (s : Scan) (c : Char) {role : Role} (hrole : role ≠ .quote) :
    (s.act c role).openQuotes = s.openQuotes := by
  cases role with
  | quote => exact absurd rfl hrole
  | skipped => rfl
  | opening => simp [act, emit]
  | closing => simp [act, emit]
  | escape => rfl
  | terminator => simp [act]
  | delimiter => simp [act]
  | letter => rfl

/-- Inside a quotation no character but a quote ends a word. -/
theorem role_quoted_cases (g : Grammar) (c : Char) :
    g.role true c = .skipped ∨ g.role true c = .quote ∨ g.role true c = .escape ∨
      g.role true c = .letter := by
  unfold Grammar.role
  split_ifs <;> simp_all

theorem HasOpenWord.act (held : s.HasOpenWord) (g : Grammar) (c : Char) :
    (s.act c (g.role s.isQuoted c)).HasOpenWord := by
  by_cases hrole : g.role s.isQuoted c = .quote
  · rw [hrole]
    exact hasOpenWord_takeQuote s c
  · intro quoted
    rw [openQuotes_act_of_ne_quote s c hrole] at quoted
    have hquoted : s.isQuoted = true := by simpa [isQuoted] using quoted
    rw [hquoted] at hrole ⊢
    rcases role_quoted_cases g c with same | same | same | same
    · rw [same]
      exact held quoted
    · exact absurd same hrole
    · rw [same]
      exact held quoted
    · rw [same]
      exact word_extend_ne_empty s c

theorem HasOpenWord.step (held : s.HasOpenWord) (g : Grammar) (c : Char) :
    (s.step g c).HasOpenWord := by
  rw [Scan.step]
  split
  · rw [takeEscaped]
    split <;> exact fun _ => word_extend_ne_empty _ c
  · exact held.act g c

theorem HasOpenWord.run (held : s.HasOpenWord) (g : Grammar) (cs : List Char) :
    (s.run g cs).HasOpenWord := by
  induction cs generalizing s with
  | nil => exact held
  | cons c rest ih => exact ih (held.step g c)

end Scan

namespace Scanner

variable {g : Grammar} {scanner : Scanner}

/-- Inside a quotation, the last pending word is the one being read, and it is not empty. -/
def HasOpenWord (scanner : Scanner) : Prop :=
  scanner.openQuotes ≠ [] → ∃ word ∈ scanner.pending.getLast?, word ≠ ""

theorem hasOpenWord_fresh : fresh.HasOpenWord := fun quoted => absurd rfl quoted

/-- A scanner without pending words is as new: no quotation can be open. -/
theorem HasOpenWord.eq_fresh (held : scanner.HasOpenWord) (hpending : scanner.pending = []) :
    scanner = fresh := by
  obtain ⟨openQuotes, pending⟩ := scanner
  cases hpending
  cases openQuotes with
  | nil => rfl
  | cons innermost outer =>
      obtain ⟨word, hword, -⟩ := held nofun
      cases hword

theorem HasOpenWord.resume (held : scanner.HasOpenWord) : scanner.resume.HasOpenWord := by
  cases hquotes : scanner.openQuotes with
  | nil =>
      rw [resume_of_openQuotes_eq_nil hquotes]
      exact Scan.hasOpenWord_of_openQuotes_eq_nil rfl
  | cons innermost outer =>
      obtain ⟨word, hword, nonempty⟩ := held (by simp [hquotes])
      rw [Option.mem_def] at hword
      intro _
      simpa [Scanner.resume, hquotes, hword] using nonempty

/-- Closing a scan stores its open word. -/
theorem hasOpenWord_close {s : Scan} (held : s.HasOpenWord) (g : Grammar) :
    HasOpenWord ⟨(s.close g).openQuotes, (s.close g).words⟩ := by
  intro quoted
  rw [Scan.openQuotes_close] at quoted
  have hquoted : s.isQuoted = true := by simpa [Scan.isQuoted] using quoted
  exact ⟨s.word, by simp [Scan.close, hquoted, held quoted], held quoted⟩

theorem HasOpenWord.read (held : scanner.HasOpenWord) (g : Grammar) (text : String) :
    (scanner.read g text).2.HasOpenWord :=
  hasOpenWord_close (held.resume.run g text.toList) g

/-- Inside a quotation, what closing a scan stores gives the scan back when it is resumed. -/
theorem exists_read_eq_of_quoted {text : String} {done : Scan} (held : scanner.HasOpenWord)
    (hdone : scanner.resume.run g text.toList = done) (quoted : done.openQuotes ≠ [])
    (released : done.escape = none) :
    ∃ stored, scanner.read g text = (done.statements, stored) ∧
      stored.resume.after done.statements = done := by
  have hword := hdone ▸ held.resume.run g text.toList
  have hquoted : done.isQuoted = true := by simpa [Scan.isQuoted] using quoted
  have hclose : done.close g = { done with word := "", words := done.words ++ [done.word] } := by
    simp [Scan.close, hquoted, hword quoted]
  refine ⟨⟨done.openQuotes, done.words ++ [done.word]⟩, ?_, ?_⟩
  · rw [read, hdone, hclose]
  · obtain ⟨openQuotes, word, words, statements, escape⟩ := done
    cases released
    simp_all [resume, Scan.after]

/-- What can be asked of a scanner. -/
inductive Call
  | read (text : String)
  | reset
  deriving DecidableEq

/-- The statements that a call completes, and the scanner after it. -/
def perform (g : Grammar) (scanner : Scanner) : Call → List Statement × Scanner
  | .read text => scanner.read g text
  | .reset => ([], fresh)

def performAll (g : Grammar) (scanner : Scanner) (calls : List Call) : Scanner :=
  calls.foldl (fun scanner call => (scanner.perform g call).2) scanner

theorem HasOpenWord.performAll (held : scanner.HasOpenWord) (g : Grammar) (calls : List Call) :
    (scanner.performAll g calls).HasOpenWord := by
  induction calls generalizing scanner with
  | nil => exact held
  | cons call rest ih =>
      cases call with
      | read text => exact ih (held.read g text)
      | reset => exact ih hasOpenWord_fresh

/-! ## Several texts -/

/-- What stands between a text and the next when they are written as one, given the scanner after
the first: nothing if the first ends inside a quotation, otherwise a delimiter. -/
def separator (g : Grammar) (scanner : Scanner) : String :=
  if scanner.openQuotes.isEmpty then String.singleton g.delimiter else ""

/-- The statements that several texts complete when they are read in turn, and the scanner for the
next text. -/
def readAll (g : Grammar) (scanner : Scanner) : List String → List Statement × Scanner
  | [] => ([], scanner)
  | text :: rest =>
    let front := scanner.read g text
    let back := front.2.readAll g rest
    (front.1 ++ back.1, back.2)

/-- The texts written as one. -/
def joined (g : Grammar) (scanner : Scanner) : List String → String
  | [] => ""
  | [text] => text
  | text :: next :: rest =>
    let after := (scanner.read g text).2
    text ++ after.separator g ++ after.joined g (next :: rest)

/-- No text ends in an escape with nothing to escape. -/
def Releases (g : Grammar) (scanner : Scanner) : List String → Prop
  | [] => True
  | text :: rest =>
    (scanner.resume.run g text.toList).escape = none ∧ (scanner.read g text).2.Releases g rest

/-- Two texts are read like one if the first ends inside a quotation. -/
theorem read_append_of_quoted (held : scanner.HasOpenWord) {front : String}
    (quoted : (scanner.read g front).2.openQuotes ≠ [])
    (released : (scanner.resume.run g front.toList).escape = none) (back : String) :
    scanner.read g (front ++ back) =
      ((scanner.read g front).1 ++ ((scanner.read g front).2.read g back).1,
        ((scanner.read g front).2.read g back).2) := by
  generalize hfront : scanner.resume.run g front.toList = done at released
  have hquoted : done.openQuotes ≠ [] := by
    rw [← Scan.openQuotes_close g done, ← hfront]
    exact quoted
  obtain ⟨stored, hread, hresume⟩ := exists_read_eq_of_quoted held hfront hquoted released
  have hback : done.run g back.toList =
      (stored.resume.run g back.toList).after done.statements := by
    rw [← Scan.run_after, hresume]
  rw [hread, read, String.toList_append, Scan.run_append, hfront, hback, Scan.close_after]
  rfl

/-- Two texts are read like one with the separator between them. -/
theorem read_append_separator (own : g.HasOwnDelimiter) (hterminator : g.terminator.isSome = true)
    (held : scanner.HasOpenWord) {front : String}
    (released : (scanner.resume.run g front.toList).escape = none) (back : String) :
    scanner.read g (front ++ (scanner.read g front).2.separator g ++ back) =
      ((scanner.read g front).1 ++ ((scanner.read g front).2.read g back).1,
        ((scanner.read g front).2.read g back).2) := by
  by_cases unquoted : (scanner.read g front).2.openQuotes = []
  · rw [separator, unquoted]
    exact read_join own hterminator unquoted released back
  · have hseparator : (scanner.read g front).2.separator g = "" := by
      simp [separator, unquoted]
    rw [hseparator, String.append_empty]
    exact read_append_of_quoted held unquoted released back

/-- Reading nothing changes nothing inside a quotation. -/
theorem read_empty_of_quoted (held : scanner.HasOpenWord) (quoted : scanner.openQuotes ≠ []) :
    scanner.read g "" = ([], scanner) := by
  obtain ⟨word, hword, nonempty⟩ := held quoted
  obtain ⟨front, hpending⟩ := List.getLast?_eq_some_iff.1 hword
  obtain ⟨openQuotes, pending⟩ := scanner
  simp_all [read, resume, Scan.close, Scan.isQuoted]

/-- With a terminator, reading nothing changes nothing. -/
theorem read_empty (hterminator : g.terminator.isSome = true) (held : scanner.HasOpenWord) :
    scanner.read g "" = ([], scanner) := by
  by_cases quoted : scanner.openQuotes = []
  · have hresume := resume_of_openQuotes_eq_nil quoted
    rw [read, String.toList_empty, Scan.run_nil, hresume, Scan.close_of_unquoted hterminator rfl,
      Scan.endWord_of_isBlankText rfl, ← quoted]
  · exact read_empty_of_quoted held quoted

/-- Reading texts in turn is reading them as one. -/
theorem HasOpenWord.readAll_eq (own : g.HasOwnDelimiter) (hterminator : g.terminator.isSome = true)
    (held : scanner.HasOpenWord) {texts : List String} (released : scanner.Releases g texts) :
    scanner.readAll g texts = scanner.read g (scanner.joined g texts) := by
  induction texts generalizing scanner with
  | nil => exact (read_empty hterminator held).symm
  | cons text rest ih =>
      obtain ⟨hfront, hrest⟩ := released
      have later := ih (held.read g text) hrest
      cases rest with
      | nil => simp [readAll, joined]
      | cons next rest =>
          rw [joined, read_append_separator own hterminator held hfront, ← later]
          rfl

/-- Let a grammar have a terminator and a delimiter of its own. In every state of a scanner, texts
that are read in turn complete the same statements, and leave the same words pending and the same
quotations open, as one text in which the delimiter follows each of them that does not end inside a
quotation. None of the texts may end in an escape with nothing to escape. -/
theorem readAll_eq_read_joined (own : g.HasOwnDelimiter) (hterminator : g.terminator.isSome = true)
    (calls : List Call) (texts : List String)
    (released : (fresh.performAll g calls).Releases g texts) :
    (fresh.performAll g calls).readAll g texts =
      (fresh.performAll g calls).read g ((fresh.performAll g calls).joined g texts) :=
  (hasOpenWord_fresh.performAll g calls).readAll_eq own hterminator released

/-- Statements that end in semicolons, with two quotes and an escape. -/
def quoting : Grammar :=
  { quotes := ['"', '\''], terminator := some ';', blocks := some ⟨'(', ')'⟩ }

/-- Three texts that follow an open quotation, of which the first ends inside another one. -/
theorem readAll_eq_read_joined_of_quotation :
    let scanner := fresh.performAll quoting [.read "x;say 'it", .reset, .read "say \"a "]
    scanner.openQuotes = ['"'] ∧
    scanner.Releases quoting ["'b", "c' d\" e\\;", "f; (g"] ∧
    scanner.joined quoting ["'b", "c' d\" e\\;", "f; (g"] = "'bc' d\" e\\; f; (g" ∧
    scanner.readAll quoting ["'b", "c' d\" e\\;", "f; (g"] =
      ([.command ["say", "\"a 'bc' d\"", "e;", "f"], .openBlock], ⟨[], ["g"]⟩) ∧
    scanner.readAll quoting ["'b", "c' d\" e\\;", "f; (g"] =
      scanner.read quoting (scanner.joined quoting ["'b", "c' d\" e\\;", "f; (g"]) := by
  intro scanner
  have own : quoting.HasOwnDelimiter :=
    { not_quote := by decide
      not_escape := by decide
      not_terminator := by decide
      not_block := by
        intro marks hmarks
        cases hmarks
        decide
      not_lineBreak := rfl }
  have released : scanner.Releases quoting ["'b", "c' d\" e\\;", "f; (g"] := by
    refine ⟨?_, ?_, ?_, trivial⟩ <;> decide +kernel
  exact ⟨by decide +kernel, released, by decide +kernel, by decide +kernel,
    readAll_eq_read_joined own rfl _ _ released⟩

end Scanner

end CommandEngine
