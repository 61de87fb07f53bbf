import CommandEngine.Proofs.Scanner.Pieces
/-!
# Plain text is split and trimmed

A text without quotes, escapes and block marks has no structure but its terminators and delimiters.
Reading it comes to splitting it at the terminator, splitting each piece at the delimiter, and
turning each field into a word (`Scanner.read_of_unmarked`). The pieces in front of the last
terminator are statements, and the last piece is one if the grammar has no terminator; otherwise it
is kept for the next text. What the scanner had kept stands before the first piece.

The grammar may use any characters for the two, one for both, or a blank. It only must not use a
line break, which is passed over before anything is made of it. Where the delimiter and the
terminator are the same, the piece between two terminators is a single field.

The proof follows the split. A part without the character that splits it is read by induction on its
characters, and the parts are put together by `splitOn_induction`, once for the fields of a piece
and once for the pieces of a text.
-/

namespace CommandEngine

/-- What holds of lists without the separator, and of a list whenever it holds of what comes after
its first separator, holds of all lists. -/
@[elab_as_elim]
theorem splitOn_induction {β : Type} [DecidableEq β] (separator : β) {motive : List β → Prop}
    (whole : ∀ values, separator ∉ values → motive values)
    (cut : ∀ front back, separator ∉ front → motive back → motive (front ++ separator :: back))
    (values : List β) : motive values := by
  induction hlength : values.length using Nat.strongRecOn generalizing values with
  | _ length ih =>
      by_cases here : separator ∈ values
      · obtain ⟨front, back, rfl, free⟩ := List.eq_append_cons_of_mem here
        refine cut front back free (ih back.length ?_ back rfl)
        simp only [List.length_append, List.length_cons] at hlength
        omega
      · exact whole values here

namespace Grammar

variable {g : Grammar} {c : Char}

/-- A character that is neither a quote nor the escape nor a block mark. -/
structure IsUnmarked (g : Grammar) (c : Char) : Prop where
  not_quote : c ∉ g.quotes
  not_escape : g.escape ≠ some c
  not_block : ∀ marks, g.blocks = some marks → c ≠ marks.opening ∧ c ≠ marks.closing

instance : Decidable (g.IsUnmarked c) :=
  decidable_of_iff (c ∉ g.quotes ∧ g.escape ≠ some c ∧
      ∀ marks ∈ g.blocks, c ≠ marks.opening ∧ c ≠ marks.closing)
    ⟨fun ⟨quote, escape, block⟩ => ⟨quote, escape, block⟩,
      fun unmarked => ⟨unmarked.not_quote, unmarked.not_escape, unmarked.not_block⟩⟩

/-- The grammar does not split at line breaks. -/
structure SplitsWithinLines (g : Grammar) : Prop where
  delimiter : isLineBreak g.delimiter = false
  terminator : ∀ c, g.terminator = some c → isLineBreak c = false

/-- Outside of a quotation, an unmarked character can at most end a word or a statement. -/
private theorem role_of_isUnmarked (unmarked : g.IsUnmarked c) :
    g.role false c =
      if isLineBreak c then .skipped
      else if g.terminator == some c then .terminator
      else if c == g.delimiter then .delimiter
      else if c == ' ' then .skipped
      else .letter := by
  simp [role, isQuote, unmarked.not_quote, opensBlock_eq_false unmarked.not_block,
    closesBlock_eq_false unmarked.not_block, unmarked.not_escape]

/-- Whether a character is left out of a word: a line break or a plain space. -/
def isLeftOut (c : Char) : Bool := isLineBreak c || c == ' '

/-- An unmarked character that ends nothing belongs to its word or is left out of it. -/
theorem role_of_isUnmarked_of_ne (unmarked : g.IsUnmarked c) (hterminator : g.terminator ≠ some c)
    (hdelimiter : c ≠ g.delimiter) :
    g.role false c = if isLeftOut c then .skipped else .letter := by
  rw [role_of_isUnmarked unmarked, isLeftOut]
  by_cases hbreak : isLineBreak c = true <;> simp [hbreak, hterminator, hdelimiter]

private theorem role_delimiter_of_isUnmarked (splits : g.SplitsWithinLines)
    (unmarked : g.IsUnmarked g.delimiter) (hterminator : g.terminator ≠ some g.delimiter) :
    g.role false g.delimiter = .delimiter := by
  simp [role_of_isUnmarked unmarked, splits.delimiter, hterminator]

private theorem role_terminator_of_isUnmarked (splits : g.SplitsWithinLines)
    (unmarked : g.IsUnmarked c) (hterminator : g.terminator = some c) :
    g.role false c = .terminator := by
  simp [role_of_isUnmarked unmarked, splits.terminator c hterminator, hterminator]

/-- The word that a field stands for, without the characters left out and the blanks around it. -/
def wordOf (field : List Char) : String :=
  Text.trim (String.ofList (field.filter (!isLeftOut ·)))

/-- The words of a piece: its fields between delimiters, without the empty ones. -/
def wordsOf (g : Grammar) (piece : List Char) : List String :=
  ((piece.splitOn g.delimiter).map wordOf).filter (!·.isEmpty)

/-- The pieces of a text between terminators; without a terminator, the text is one piece. -/
def piecesOf (g : Grammar) (text : List Char) : List (List Char) :=
  match g.terminator with
  | some terminator => text.splitOn terminator
  | none => [text]

/-- The words of each piece of a text, those of the first after the pending words. -/
def rowsOf (g : Grammar) (pending : List String) (text : List Char) : List (List String) :=
  ((g.piecesOf text).map g.wordsOf).modifyHead (pending ++ ·)

/-- The commands that rows of words make; an empty row makes none. -/
def commandsOf (rows : List (List String)) : List Statement :=
  (rows.filter (!·.isEmpty)).map .command

private theorem commandsOf_cons (row : List String) (rows : List (List String)) :
    commandsOf (row :: rows) = commandsOf [row] ++ commandsOf rows := by
  rw [commandsOf, ← List.singleton_append, List.filter_append, List.map_append]
  rfl

private theorem wordsOf_of_not_mem {piece : List Char} (free : g.delimiter ∉ piece) :
    g.wordsOf piece = [wordOf piece].filter (!·.isEmpty) := by
  rw [wordsOf, List.splitOn_eq_singleton free, List.map_singleton]

private theorem wordsOf_append_delimiter (g : Grammar) (front back : List Char) :
    g.wordsOf (front ++ g.delimiter :: back) = g.wordsOf front ++ g.wordsOf back := by
  rw [wordsOf, List.splitOn_append_cons_self, List.map_append, List.filter_append]
  rfl

variable {terminator : Char} (hterminator : g.terminator = some terminator)
include hterminator

private theorem rowsOf_of_not_mem {text : List Char} (free : terminator ∉ text)
    (pending : List String) :
    g.rowsOf pending text = [pending ++ g.wordsOf text] := by
  simp [rowsOf, piecesOf, hterminator, List.splitOn_eq_singleton free]

private theorem rowsOf_append_terminator {front : List Char} (free : terminator ∉ front)
    (back : List Char) (pending : List String) :
    g.rowsOf pending (front ++ terminator :: back) =
      (pending ++ g.wordsOf front) :: g.rowsOf [] back := by
  have hback (rows : List (List String)) : rows.modifyHead ([] ++ ·) = rows := by
    cases rows <;> rfl
  rw [rowsOf, rowsOf, hback]
  simp [piecesOf, hterminator, List.splitOn_append_cons_self_of_not_mem free]

private theorem rowsOf_ne_nil (pending : List String) (text : List Char) :
    g.rowsOf pending text ≠ [] := by
  simp [rowsOf, piecesOf, hterminator]

end Grammar

/-! ## Reading the parts of a text -/

namespace Scan

open Grammar

variable {g : Grammar} {words : List String} {statements : List Statement}

/-- The scan between two words, outside of a quotation. -/
def between (words : List String) (statements : List Statement) : Scan :=
  ⟨[], "", words, statements, none⟩

theorem endStatement_between (words : List String) (statements : List Statement) :
    (between words statements).endStatement = between [] (statements ++ commandsOf [words]) := by
  cases words with
  | nil => simp [between, endStatement, commandsOf]
  | cons word rest => simp [between, endStatement, emit, commandsOf]

/-- Unmarked characters open no quotation, and no escape waits after them. -/
theorem unquoted_run {s : Scan} (hquotes : s.openQuotes = []) (hescape : s.escape = none)
    {cs : List Char} (unmarked : ∀ c ∈ cs, g.IsUnmarked c) :
    (s.run g cs).openQuotes = [] ∧ (s.run g cs).escape = none := by
  induction cs generalizing s with
  | nil => exact ⟨hquotes, hescape⟩
  | cons c rest ih =>
      rw [List.forall_mem_cons] at unmarked
      have kept : (s.step g c).openQuotes = [] ∧ (s.step g c).escape = none := by
        rw [step_of_unquoted hquotes hescape, role_of_isUnmarked unmarked.1]
        split_ifs
        · exact ⟨hquotes, hescape⟩
        · rw [act, endStatement]
          split <;> exact ⟨hquotes, hescape⟩
        · exact ⟨hquotes, hescape⟩
        · exact ⟨hquotes, hescape⟩
        · exact ⟨hquotes, hescape⟩
      exact ih kept.1 kept.2 unmarked.2

/-- After unmarked characters, a character does what its role says. -/
theorem step_run_between {front : List Char} (unmarked : ∀ c ∈ front, g.IsUnmarked c) (c : Char) :
    ((between words statements).run g front).step g c =
      ((between words statements).run g front).act c (g.role false c) := by
  obtain ⟨hquotes, hescape⟩ := unquoted_run (s := between words statements) rfl rfl unmarked
  exact step_of_unquoted hquotes hescape c

/-- A field adds its characters to the word being read, without those left out. -/
theorem run_field {word : String} {field : List Char} (unmarked : ∀ c ∈ field, g.IsUnmarked c)
    (inside : ∀ c ∈ field, g.terminator ≠ some c) (free : g.delimiter ∉ field) :
    run g ⟨[], word, words, statements, none⟩ field =
      ⟨[], word ++ String.ofList (field.filter (!isLeftOut ·)), words, statements, none⟩ := by
  induction field generalizing word with
  | nil => simp
  | cons c rest ih =>
      rw [List.forall_mem_cons] at unmarked inside
      rw [List.mem_cons, not_or] at free
      rw [run_cons, step_of_unquoted rfl rfl,
        role_of_isUnmarked_of_ne unmarked.1 inside.1 (Ne.symm free.1)]
      by_cases leftOut : isLeftOut c = true
      · rw [if_pos leftOut, List.filter_cons_of_neg (by simpa using leftOut)]
        exact ih unmarked.2 inside.2 free.2
      · rw [if_neg leftOut, List.filter_cons_of_pos (by simpa using leftOut)]
        have hword : word.push c ++ String.ofList (rest.filter (!isLeftOut ·)) =
            word ++ String.ofList (c :: rest.filter (!isLeftOut ·)) := by
          rw [← String.toList_inj]
          simp
        rw [← hword]
        exact ih unmarked.2 inside.2 free.2

/-- A field that ends is read as the word it stands for. -/
theorem endWord_run_field {field : List Char} (unmarked : ∀ c ∈ field, g.IsUnmarked c)
    (inside : ∀ c ∈ field, g.terminator ≠ some c) (free : g.delimiter ∉ field) :
    ((between words statements).run g field).endWord =
      between (words ++ g.wordsOf field) statements := by
  rw [between, run_field unmarked inside free, String.empty_append, wordsOf_of_not_mem free,
    endWord, wordOf]
  by_cases blank : (Text.trim (String.ofList (field.filter (!isLeftOut ·)))).isEmpty = true <;>
    simp [blank, between]

/-- A piece that ends is read as its words. -/
theorem endWord_run_piece (splits : g.SplitsWithinLines) {piece : List Char}
    (unmarked : ∀ c ∈ piece, g.IsUnmarked c) (inside : ∀ c ∈ piece, g.terminator ≠ some c) :
    ((between words statements).run g piece).endWord =
      between (words ++ g.wordsOf piece) statements := by
  induction piece using splitOn_induction g.delimiter generalizing words with
  | whole piece free => exact endWord_run_field unmarked inside free
  | cut front back free ih =>
      rw [List.forall_mem_append, List.forall_mem_cons] at unmarked inside
      have hfront : ((between words statements).run g front).endWord =
          between (words ++ g.wordsOf front) statements :=
        endWord_run_field unmarked.1 inside.1 free
      rw [run_append, run_cons, step_run_between unmarked.1,
        role_delimiter_of_isUnmarked splits unmarked.2.1 inside.2.1, act, hfront,
        ih unmarked.2.2 inside.2.2, wordsOf_append_delimiter, List.append_assoc]

/-- A text is read as its rows: all but the last are statements, and the last one is open. -/
theorem endWord_run_text (splits : g.SplitsWithinLines) {terminator : Char}
    (hterminator : g.terminator = some terminator) {text : List Char}
    (unmarked : ∀ c ∈ text, g.IsUnmarked c) :
    ((between words statements).run g text).endWord =
      between ((g.rowsOf words text).getLastD [])
        (statements ++ commandsOf (g.rowsOf words text).dropLast) := by
  have inside {piece : List Char} (free : terminator ∉ piece) :
      ∀ c ∈ piece, g.terminator ≠ some c := by
    intro c here same
    rw [hterminator, Option.some.injEq] at same
    exact free (same ▸ here)
  induction text using splitOn_induction terminator generalizing words statements with
  | whole text free =>
      rw [endWord_run_piece splits unmarked (inside free), rowsOf_of_not_mem hterminator free]
      simp [commandsOf]
  | cut front back free ih =>
      rw [List.forall_mem_append, List.forall_mem_cons] at unmarked
      have hfront : ((between words statements).run g front).endWord =
          between (words ++ g.wordsOf front) statements :=
        endWord_run_piece splits unmarked.1 (inside free)
      have nonempty := rowsOf_ne_nil hterminator [] back
      rw [run_append, run_cons, step_run_between unmarked.1,
        role_terminator_of_isUnmarked splits unmarked.2.1 hterminator, act, hfront,
        endStatement_between, ih unmarked.2.2, rowsOf_append_terminator hterminator free,
        List.dropLast_cons_of_ne_nil nonempty, commandsOf_cons _ (g.rowsOf [] back).dropLast,
        List.append_assoc]
      cases hrows : g.rowsOf [] back with
      | nil => exact absurd hrows nonempty
      | cons row rest => rfl

end Scan

namespace Scanner

open Grammar

/-- An unmarked text is read as its rows, whatever the delimiter and the terminator and whatever
words are pending: all rows but the last are commands, unless they are empty, and the last one is
pending if the grammar has a terminator, and otherwise is a command as well. -/
theorem read_of_unmarked (g : Grammar) (scanner : Scanner) (text : String)
    (splits : g.SplitsWithinLines) (unquoted : scanner.openQuotes = [])
    (unmarked : ∀ c ∈ text.toList, g.IsUnmarked c) :
    scanner.read g text =
      let rows := g.rowsOf scanner.pending text.toList
      match g.terminator with
      | some _ => (commandsOf rows.dropLast, ⟨[], rows.getLastD []⟩)
      | none => (commandsOf rows, ⟨[], []⟩) := by
  have hresume : scanner.resume = Scan.between scanner.pending [] :=
    resume_of_openQuotes_eq_nil unquoted
  have hclose : ((Scan.between scanner.pending []).run g text.toList).isQuoted = false :=
    Scan.isQuoted_of_openQuotes_eq_nil (Scan.unquoted_run rfl rfl unmarked).1
  rw [read, hresume, Scan.close, hclose, if_neg Bool.false_ne_true]
  cases hterminator : g.terminator with
  | some terminator =>
      rw [Option.isNone_some, if_neg Bool.false_ne_true,
        Scan.endWord_run_text splits hterminator unmarked]
      rfl
  | none =>
      have inside : ∀ c ∈ text.toList, g.terminator ≠ some c := by simp [hterminator]
      have hrows : g.rowsOf scanner.pending text.toList =
          [scanner.pending ++ g.wordsOf text.toList] := by
        simp [rowsOf, piecesOf, hterminator]
      rw [Option.isNone_none, if_pos rfl, Scan.endWord_run_piece splits unmarked inside,
        Scan.endStatement_between, hrows]
      rfl

/-- An ideographic space is trimmed, a plain one dropped, and a line break passed over; the first
piece continues the pending statement, and an empty piece says nothing. -/
theorem read_of_unmarked_pending :
    let g : Grammar := { quotes := ['"'], delimiter := ',', terminator := some ';',
                         blocks := some ⟨'\x7b', '\x7d'⟩ }
    let text := "a b,\u3000c\u3000,;\n;li\nst,x"
    (read g ⟨[], ["say"]⟩ text) =
      ([.command ["say", "ab", "c"]], ⟨[], ["list", "x"]⟩) := by
  intro g text
  have splits : g.SplitsWithinLines := ⟨rfl, by rintro c ⟨rfl⟩; rfl⟩
  have unmarked : text.toList.all (g.IsUnmarked ·) = true := by decide +kernel
  have hread := read_of_unmarked g ⟨[], ["say"]⟩ text splits rfl fun c here =>
    of_decide_eq_true (List.all_eq_true.1 unmarked c here)
  exact hread.trans (by decide +kernel)

end Scanner

end CommandEngine
