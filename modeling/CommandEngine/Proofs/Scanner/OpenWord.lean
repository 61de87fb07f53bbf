import CommandEngine.Proofs.Scanner.Carrying
import Mathlib.Data.List.Induction
/-!
# Complete scanners and open words

Whether a scanner is complete is read off its pending words alone, while the open quotations are
kept apart from them. The two agree, because an open quotation always leaves its word behind: a
complete scanner has no open quotation, and so it is as new (`Scanner.HasOpenWord.eq_fresh`).

What is left behind is the word as it was written. `Scanner.IsOpenWord` says this of a run of calls
without looking at what scanners store: some text came to a quote outside of quotations, and the
word is what was being read there, the quote, and then everything since, over as many texts as it
took. The induction is on the calls, from the last one backwards: a text either lies inside the
quotation from its start to its end or opens the quotation that is open at its end
(`Scan.staysQuoted_or_opens`).
-/

namespace CommandEngine

namespace Grammar

/-- What characters inside a quotation add to its word, if an escape may wait for the first of them.
Line breaks add nothing, and an escape is added before a quote and nowhere else. -/
def verbatimAfter (g : Grammar) : Option Char → List Char → List Char
  | _, [] => []
  | some escape, c :: rest =>
    (if g.isQuote c then [escape, c] else [c]) ++ g.verbatimAfter none rest
  | none, c :: rest =>
    if isLineBreak c then g.verbatimAfter none rest
    else if !g.isQuote c && g.escape == some c then g.verbatimAfter (some c) rest
    else c :: g.verbatimAfter none rest

/-- What a text inside a quotation adds to its word. -/
def verbatim (g : Grammar) (text : List Char) : List Char := g.verbatimAfter none text

end Grammar

namespace Scan

variable {g : Grammar} {s : Scan}

/-- A quotation is open in front of each of the characters, and behind the last one. -/
def StaysQuoted (g : Grammar) (s : Scan) : List Char → Prop
  | [] => s.openQuotes ≠ []
  | c :: rest => s.openQuotes ≠ [] ∧ (s.step g c).StaysQuoted g rest

theorem StaysQuoted.head {cs : List Char} (stays : s.StaysQuoted g cs) : s.openQuotes ≠ [] := by
  cases cs with
  | nil => exact stays
  | cons c rest => exact stays.1

/-- Inside a quotation, only line breaks, quotes and escapes are more than letters. -/
theorem role_quoted (g : Grammar) (c : Char) :
    g.role true c =
      if Grammar.isLineBreak c then .skipped
      else if g.isQuote c then .quote
      else if g.escape == some c then .escape
      else .letter := by
  simp [Grammar.role]

/-- A quote that does not close the last quotation only adds itself. -/
theorem takeQuote_of_staysQuoted {c : Char} (stays : (s.takeQuote c).openQuotes ≠ []) :
    s.takeQuote c = { s.extend c with openQuotes := toggleQuote c s.openQuotes } := by
  rw [takeQuote] at stays ⊢
  dsimp only at stays ⊢
  split
  case isTrue => rfl
  case isFalse closed =>
    rw [if_neg closed, openQuotes_endWord] at stays
    exact absurd (by simpa [isQuoted] using closed) stays

private theorem isEmpty_words_endStatement (s : Scan) : s.endStatement.words.isEmpty = true := by
  rw [endStatement]
  split
  case isTrue empty => exact empty
  case isFalse => rfl

/-- Inside a quotation, a character moves from the text to the word as it is written. -/
theorem step_of_staysQuoted {c : Char} (quoted : s.openQuotes ≠ [])
    (stays : (s.step g c).openQuotes ≠ []) :
    (s.step g c).words = s.words ∧ (s.step g c).statements = s.statements ∧
      ∀ rest, (s.step g c).word ++ String.ofList (g.verbatimAfter (s.step g c).escape rest) =
        s.word ++ String.ofList (g.verbatimAfter s.escape (c :: rest)) := by
  have hquoted : s.isQuoted = true := by simpa [isQuoted] using quoted
  rw [step, hquoted] at stays ⊢
  cases hescape : s.escape with
  | some escape =>
      dsimp only [takeEscaped]
      cases hquote : g.isQuote c <;>
        simp [extend, Grammar.verbatimAfter, hquote, ← String.toList_inj]
  | none =>
      rw [hescape] at stays
      dsimp only at stays ⊢
      rw [role_quoted] at stays ⊢
      split_ifs at stays ⊢ with hline hquote mark
      · simp [act, hescape, Grammar.verbatimAfter, hline]
      · simp [act, takeQuote_of_staysQuoted stays, extend, hescape, Grammar.verbatimAfter, hline,
          hquote, ← String.toList_inj]
      · simp [act, Grammar.verbatimAfter, hline, hquote, mark]
      · simp [act, extend, hescape, Grammar.verbatimAfter, hline, hquote, mark, ← String.toList_inj]

/-- Inside a quotation nothing happens but that the word grows by the text as it is written. -/
theorem run_of_staysQuoted {cs : List Char} (stays : s.StaysQuoted g cs) :
    (s.run g cs).words = s.words ∧ (s.run g cs).statements = s.statements ∧
      (s.run g cs).word = s.word ++ String.ofList (g.verbatimAfter s.escape cs) := by
  induction cs generalizing s with
  | nil => cases hescape : s.escape <;> simp [Grammar.verbatimAfter]
  | cons c rest ih =>
      obtain ⟨hwords, hstatements, hword⟩ := step_of_staysQuoted stays.1 stays.2.head
      obtain ⟨later, later', hlater⟩ := ih stays.2
      rw [run_cons]
      exact ⟨later.trans hwords, later'.trans hstatements, hlater.trans (hword rest)⟩

/-- A character that leads into a quotation is a quote that no escape precedes. -/
theorem step_of_opens {c : Char} (unquoted : s.openQuotes = [])
    (opens : (s.step g c).openQuotes ≠ []) :
    s.step g c = { s.extend c with openQuotes := [c] } ∧ s.escape = none := by
  cases hescape : s.escape with
  | some escape =>
      refine absurd ?_ opens
      rw [step, hescape]
      dsimp only [takeEscaped]
      split <;> exact unquoted
  | none =>
      rw [step_of_unquoted unquoted hescape] at opens ⊢
      by_cases hrole : g.role false c = .quote
      · rw [hrole]
        exact ⟨takeQuote_of_unquoted unquoted c, rfl⟩
      · rw [openQuotes_act_of_ne_quote s c hrole] at opens
        exact absurd unquoted opens

/-- After the quote that opened it, the word of a quotation is what was being read in front of the
quote, the quote, and what was read since. -/
theorem run_of_opens {front back : List Char} {quote : Char}
    (outside : (s.run g front).openQuotes = [])
    (stays : ((s.run g front).step g quote).StaysQuoted g back) :
    (s.run g (front ++ quote :: back)).words = (s.run g front).words ∧
      (s.run g (front ++ quote :: back)).word =
        (s.run g front).word ++ String.ofList (quote :: g.verbatim back) := by
  obtain ⟨hwords, -, hword⟩ := run_of_staysQuoted stays
  obtain ⟨hopens, released⟩ := step_of_opens outside stays.head
  rw [run_append, run_cons, hwords, hword, hopens]
  simp [extend, released, Grammar.verbatim, ← String.toList_inj]

/-- Characters that end inside a quotation lie inside of it altogether, or one of them opens it and
the others lie inside of it. -/
theorem staysQuoted_or_opens {cs : List Char} (quoted : (s.run g cs).openQuotes ≠ []) :
    s.StaysQuoted g cs ∨ ∃ front quote back, cs = front ++ quote :: back ∧
      (s.run g front).openQuotes = [] ∧ ((s.run g front).step g quote).StaysQuoted g back := by
  induction cs generalizing s with
  | nil => exact .inl quoted
  | cons c rest ih =>
      rcases ih quoted with stays | ⟨front, quote, back, rfl, outside, inside⟩
      · by_cases before : s.openQuotes = []
        · exact .inr ⟨[], c, rest, rfl, before, stays⟩
        · exact .inl ⟨before, stays⟩
      · exact .inr ⟨c :: front, quote, back, rfl, outside, inside⟩

end Scan

namespace Scanner

variable {g : Grammar} {scanner : Scanner}

/-! ## What is pending inside a quotation -/

private theorem performAll_concat (g : Grammar) (scanner : Scanner) (calls : List Call)
    (call : Call) :
    scanner.performAll g (calls ++ [call]) = ((scanner.performAll g calls).perform g call).2 := by
  simp [performAll]

@[simp]
theorem openQuotes_resume (scanner : Scanner) : scanner.resume.openQuotes = scanner.openQuotes := by
  unfold resume
  dsimp only
  split
  · rfl
  · split <;> rfl

/-- Inside a quotation, the last pending word is taken up again. -/
theorem resume_of_quoted (quoted : scanner.openQuotes ≠ []) {words : List String} {word : String}
    (hpending : scanner.pending = words ++ [word]) :
    scanner.resume = ⟨scanner.openQuotes, word, words, [], none⟩ := by
  simp [resume, quoted, hpending]

/-- Inside a quotation, the word being read becomes the last pending word as it stands. -/
theorem pending_read_of_quoted (held : scanner.HasOpenWord) {text : String}
    (quoted : (scanner.read g text).2.openQuotes ≠ []) :
    let done := scanner.resume.run g text.toList
    done.openQuotes ≠ [] ∧ (scanner.read g text).2.pending = done.words ++ [done.word] ∧
      done.word ≠ "" := by
  intro done
  have hquotes : done.openQuotes ≠ [] := by
    rw [← Scan.openQuotes_close g done]
    exact quoted
  have hquoted : done.isQuoted = true := by simpa [Scan.isQuoted] using hquotes
  have hword : done.word ≠ "" := held.resume.run g text.toList hquotes
  refine ⟨hquotes, ?_, hword⟩
  show (done.close g).words = done.words ++ [done.word]
  simp [Scan.close, hquoted, hword]

/-- After the calls, this word stands in an open quotation, behind these words of its statement. -/
inductive IsOpenWord (g : Grammar) : List Call → List String → String → Prop
  | /-- The quotation opens in the last text and stays open: the word is what was being read in
    front of the quote, the quote, and what follows it as it is written. -/
    opens {calls : List Call} {front back : List Char} {quote : Char} {begun : Scan}
      (hbegun : (fresh.performAll g calls).resume.run g front = begun)
      (outside : begun.openQuotes = []) (stays : (begun.step g quote).StaysQuoted g back) :
      IsOpenWord g (calls ++ [.read (String.ofList (front ++ quote :: back))]) begun.words
        (begun.word ++ String.ofList (quote :: g.verbatim back))
  | /-- The quotation was open before and stays open: the last text goes on with the word as it is
    written. -/
    goesOn {calls : List Call} {words : List String} {word : String}
      (isOpen : IsOpenWord g calls words word) {text : String}
      (stays : (fresh.performAll g calls).resume.StaysQuoted g text.toList) :
      IsOpenWord g (calls ++ [.read text]) words (word ++ String.ofList (g.verbatim text.toList))

/-- Whenever a quotation is open, its word is pending as it was written. -/
theorem exists_isOpenWord {calls : List Call}
    (quoted : (fresh.performAll g calls).openQuotes ≠ []) :
    ∃ words word, (fresh.performAll g calls).pending = words ++ [word] ∧ word ≠ "" ∧
      IsOpenWord g calls words word := by
  induction calls using List.reverseRecOn with
  | nil => exact absurd rfl quoted
  | append_singleton calls call ih =>
      rw [performAll_concat] at quoted ⊢
      cases call with
      | reset => exact absurd rfl quoted
      | read text =>
          have held := hasOpenWord_fresh.performAll g calls
          obtain ⟨inside, hpending, nonempty⟩ := pending_read_of_quoted held quoted
          refine ⟨_, _, hpending, nonempty, ?_⟩
          rcases Scan.staysQuoted_or_opens inside with
            stays | ⟨front, quote, back, htext, outside, stays⟩
          · have before : (fresh.performAll g calls).openQuotes ≠ [] := by
              rw [← openQuotes_resume]
              exact stays.head
            obtain ⟨words, word, hpending, -, isOpen⟩ := ih before
            obtain ⟨hwords, -, hword⟩ := Scan.run_of_staysQuoted stays
            have hresume := resume_of_quoted before hpending
            rw [hwords, hword, hresume]
            exact isOpen.goesOn stays
          · obtain ⟨hwords, hword⟩ := Scan.run_of_opens outside stays
            rw [← htext] at hwords hword
            rw [hwords, hword, ← String.ofList_toList (s := text), htext]
            exact .opens rfl outside stays

/-- Without a terminator, only an open quotation leaves anything pending. -/
theorem isComplete_read_iff (hterminator : g.terminator = none) (held : scanner.HasOpenWord)
    (text : String) :
    (scanner.read g text).2.isComplete = true ↔ (scanner.read g text).2.openQuotes = [] := by
  constructor
  · intro complete
    have hpending : (scanner.read g text).2.pending = [] := List.isEmpty_iff.1 complete
    rw [(held.read g text).eq_fresh hpending]
    rfl
  · intro unquoted
    have hquotes : (scanner.resume.run g text.toList).openQuotes = [] := by
      rw [← Scan.openQuotes_close g]
      exact unquoted
    have hquoted := Scan.isQuoted_of_openQuotes_eq_nil hquotes
    show ((scanner.resume.run g text.toList).close g).words.isEmpty = true
    rw [Scan.close, hquoted, if_neg Bool.false_ne_true, hterminator, Option.isNone_none, if_pos rfl]
    exact Scan.isEmpty_words_endStatement _

/-- What is seen of calls made in turn: the statements that each of them completes, and the words
that are pending after it. -/
def answers (g : Grammar) (scanner : Scanner) : List Call → List (List Statement × List String)
  | [] => []
  | call :: rest =>
    let answer := scanner.perform g call
    (answer.1, answer.2.pending) :: answer.2.answers g rest

/-- Let calls be made of a new scanner. If it is complete, no quotation is open, and it answers
whatever calls follow as a new one would. If a quotation is open, its word is pending as it was
written, behind the other words of its statement, and the next text goes on with it. In a grammar
without a terminator, a text leaves the scanner complete unless it ends inside a quotation. -/
theorem complete_or_carrying (g : Grammar) (calls : List Call) :
    let scanner := fresh.performAll g calls
    (scanner.isComplete = true → scanner.openQuotes = [] ∧
      ∀ later, scanner.answers g later = fresh.answers g later) ∧
    (scanner.openQuotes ≠ [] → ∃ words word, scanner.pending = words ++ [word] ∧ word ≠ "" ∧
      IsOpenWord g calls words word ∧
      scanner.resume = ⟨scanner.openQuotes, word, words, [], none⟩) ∧
    (g.terminator = none → ∀ text, (scanner.read g text).2.isComplete = true ↔
      (scanner.read g text).2.openQuotes = []) := by
  intro scanner
  have held : scanner.HasOpenWord := hasOpenWord_fresh.performAll g calls
  refine ⟨fun complete => ?_, fun quoted => ?_,
    fun hterminator => isComplete_read_iff hterminator held⟩
  · have renewed : scanner = fresh := held.eq_fresh (List.isEmpty_iff.1 complete)
    rw [renewed]
    exact ⟨rfl, fun _ => rfl⟩
  · obtain ⟨words, word, hpending, nonempty, isOpen⟩ := exists_isOpenWord quoted
    exact ⟨words, word, hpending, nonempty, isOpen, resume_of_quoted quoted hpending⟩

/-- A quotation over two texts: its blanks, an escaped quote and the quote of another kind are kept
as they were written, and the line break is not. -/
theorem complete_or_carrying_two_texts :
    let calls : List Call := [.read "x;say it\"a ", .read " b\\\" 'c \n"]
    let scanner := fresh.performAll quoting calls
    scanner.openQuotes = ['\'', '"'] ∧ scanner.pending = ["say", "it\"a  b\\\" 'c "] ∧
    ∃ words word, scanner.pending = words ++ [word] ∧ IsOpenWord quoting calls words word := by
  intro calls scanner
  have quoted : scanner.openQuotes ≠ [] := by decide +kernel
  obtain ⟨words, word, hpending, -, isOpen, -⟩ := (complete_or_carrying quoting calls).2.1 quoted
  exact ⟨by decide +kernel, by decide +kernel, words, word, hpending, isOpen⟩

end Scanner

end CommandEngine
