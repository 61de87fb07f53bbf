import CommandEngine.Proofs.Scanner.Carrying
import CommandEngine.Quotation
/-!
# Writing words down

Any list of words can be written so that it is read back. A word without quotes is written with the
escape before each of its characters, and then it may contain delimiters, terminators, block marks
and line breaks; a word in quotes is written as it stands. Between the words stands the delimiter,
and after the last one the terminator, if there is one.

Reading keeps one form from word to word. `Scan.idle words` is a scan between two words, and reading
a written word from there and ending it leads to `Scan.idle` with one word more, whether the word
was ended by its last quote or is still being read (`Word.endWord_run_written`). The list follows by
induction, and `Scanner.read_write` adds what ends the statement.
-/

namespace CommandEngine

namespace Grammar

/-- A character that neither ends a line nor quotes nor marks a block. -/
structure IsBare (g : Grammar) (c : Char) : Prop where
  not_lineBreak : isLineBreak c = false
  not_quote : c ∉ g.quotes
  not_block : ∀ marks, g.blocks = some marks → c ≠ marks.opening ∧ c ≠ marks.closing

/-- The grammar can write words down: it has this escape, and escape, delimiter and terminator are
told apart from each other and from all other marks. -/
structure Writes (g : Grammar) (escape : Char) : Prop where
  escape_eq : g.escape = some escape
  escape_isBare : g.IsBare escape
  delimiter : g.HasOwnDelimiter
  terminator : ∀ c, g.terminator = some c → g.IsBare c ∧ c ≠ escape

variable {g : Grammar} {c escape : Char}

private theorem isLineBreak_eq_false_of_isBlank_eq_false (shown : Text.isBlank c = false) :
    isLineBreak c = false := by
  rw [isLineBreak, Bool.or_eq_false_iff, beq_eq_false_iff_ne, beq_eq_false_iff_ne]
  constructor
  · rintro rfl
    exact absurd shown (by decide)
  · rintro rfl
    exact absurd shown (by decide)

/-- Outside of a quotation, what a bare character does. -/
theorem role_of_isBare (bare : g.IsBare c) :
    g.role false c =
      if g.escape == some c then .escape
      else if g.terminator == some c then .terminator
      else if c == g.delimiter then .delimiter
      else if c == ' ' then .skipped
      else .letter := by
  simp [role, isQuote, bare.not_lineBreak, bare.not_quote, opensBlock_eq_false bare.not_block,
    closesBlock_eq_false bare.not_block]

theorem Writes.role_escape (writes : g.Writes escape) : g.role false escape = .escape := by
  simp [role_of_isBare writes.escape_isBare, writes.escape_eq]

theorem Writes.role_terminator (writes : g.Writes escape) (hterminator : g.terminator = some c) :
    g.role false c = .terminator := by
  obtain ⟨bare, apart⟩ := writes.terminator c hterminator
  simp [role_of_isBare bare, writes.escape_eq, hterminator, apart.symm]

/-- Inside a quotation only line breaks, quotes and the escape are more than letters. -/
theorem role_quoted_eq_letter (hline : isLineBreak c = false) (hquote : g.isQuote c = false)
    (hescape : g.escape ≠ some c) : g.role true c = .letter := by
  simp [role, hline, hquote, hescape]

end Grammar

namespace Scan

variable {g : Grammar} {s : Scan} {escape : Char}

/-- The scan between two words of a statement. -/
def idle (words : List String) : Scan := ⟨[], "", words, [], none⟩

private theorem endWord_idle (words : List String) : (idle words).endWord = idle words :=
  endWord_of_isBlankText rfl

theorem openQuotes_of_endWord_eq_idle {words : List String} (hword : s.endWord = idle words) :
    s.openQuotes = [] := by
  rw [← openQuotes_endWord, hword, idle]

theorem escape_of_endWord_eq_idle {words : List String} (hword : s.endWord = idle words) :
    s.escape = none := by
  have hsame : s.endWord.escape = s.escape := by rw [endWord_eq]
  rw [← hsame, hword, idle]

/-- A word without blanks at its ends is kept as it is. -/
theorem endWord_of_isTrimmed {word : String} (nonempty : word ≠ "")
    (trimmed : Text.isTrimmed word = true) (words : List String) :
    endWord ⟨[], word, words, [], none⟩ = idle (words ++ [word]) := by
  simp [endWord, idle, Text.trim_of_isTrimmed trimmed, nonempty]

/-- Characters behind escapes are letters. -/
theorem run_escaped (writes : g.Writes escape) (hquotes : s.openQuotes = [])
    (hescape : s.escape = none) {cs : List Char} (bare : ∀ c ∈ cs, g.isQuote c = false) :
    s.run g (cs.flatMap fun c => [escape, c]) = { s with word := s.word ++ String.ofList cs } := by
  induction cs generalizing s with
  | nil => simp
  | cons c rest ih =>
      have hquote := bare c List.mem_cons_self
      have hpair : (s.step g escape).step g c = s.extend c := by
        rw [step_of_unquoted hquotes hescape, writes.role_escape]
        simp [act, step, takeEscaped, hquote, extend, ← hescape]
      have later := ih (s := s.extend c) hquotes hescape
        fun c here => bare c (List.mem_cons_of_mem _ here)
      rw [List.flatMap_cons, List.cons_append, List.singleton_append, run_cons, run_cons, hpair,
        later]
      simp [extend, ← String.toList_inj]

/-- Letters extend the word being read. -/
theorem run_letters (hescape : s.escape = none) {cs : List Char}
    (letters : ∀ c ∈ cs, g.role s.isQuoted c = .letter) :
    s.run g cs = { s with word := s.word ++ String.ofList cs } := by
  induction cs generalizing s with
  | nil => simp
  | cons c rest ih =>
      have hstep : s.step g c = s.extend c := by
        simp [step, hescape, letters c List.mem_cons_self, act]
      have later := ih (s := s.extend c) hescape
        fun c here => letters c (List.mem_cons_of_mem _ here)
      rw [run_cons, hstep, later]
      simp [extend, ← String.toList_inj]

/-- The quote of the only open quotation closes it and ends the word. -/
theorem takeQuote_of_quoted {c : Char} (hquotes : s.openQuotes = [c]) :
    s.takeQuote c = ({ s.extend c with openQuotes := [] } : Scan).endWord := by
  simp [takeQuote, toggleQuote, hquotes, isQuoted]

theorem step_quote {c : Char} (hescape : s.escape = none)
    (hrole : ∀ inside, g.role inside c = .quote) : s.step g c = s.takeQuote c := by
  simp [step, hescape, hrole, act]

end Scan

/-- A word as it can be written down. -/
inductive Word
  | plain (text : String)
  | /-- A word that stands between two copies of a quote. -/
    quoted (quote : Char) (body : String)
  deriving DecidableEq

namespace Word

/-- The word as it is read. -/
def text : Word → String
  | plain text => text
  | quoted quote body => String.ofList (quote :: (body.toList ++ [quote]))

/-- The word as it is written. -/
def written (escape : Char) : Word → List Char
  | plain text => text.toList.flatMap fun c => [escape, c]
  | quoted quote body => quote :: (body.toList ++ [quote])

/-- Whether the word is one that can be written down. -/
def IsWritable (g : Grammar) (escape : Char) : Word → Prop
  | plain text => text ≠ "" ∧ Text.isTrimmed text = true ∧ text.toList.all (!g.isQuote ·) = true
  | quoted quote body =>
    (g.isQuote quote = true ∧ Text.isBlank quote = false) ∧
      body.toList.all (fun c => !g.isQuote c && c != escape && !Grammar.isLineBreak c) = true

instance (g : Grammar) (escape : Char) : (word : Word) → Decidable (word.IsWritable g escape)
  | plain _ => inferInstanceAs (Decidable (_ ∧ _))
  | quoted _ _ => inferInstanceAs (Decidable (_ ∧ _))

variable {g : Grammar} {escape quote : Char} {body : String}

private theorem isTrimmed_text_quoted (shown : Text.isBlank quote = false) (body : String) :
    Text.isTrimmed (quoted quote body).text = true := by
  have hlast : (quote :: (body.toList ++ [quote])).getLast? = some quote := by
    rw [← List.cons_append, List.getLast?_concat]
  simp [Text.isTrimmed, text, hlast, shown]

/-- A quotation is read from its first quote to its last, which ends the word. -/
theorem run_quoted (writes : g.Writes escape) (writable : (quoted quote body).IsWritable g escape)
    (words : List String) :
    (Scan.idle words).run g ((quoted quote body).written escape) =
      Scan.idle (words ++ [(quoted quote body).text]) := by
  obtain ⟨⟨known, shown⟩, letters⟩ := writable
  have hrole (inside : Bool) : g.role inside quote = .quote := by
    simp [Grammar.role, Grammar.isLineBreak_eq_false_of_isBlank_eq_false shown, known]
  have hletters : ∀ c ∈ body.toList, g.role true c = .letter := by
    intro c here
    have letter := List.all_eq_true.1 letters c here
    simp only [Bool.and_eq_true, Bool.not_eq_true', bne_iff_ne] at letter
    obtain ⟨⟨hquote, hescape⟩, hline⟩ := letter
    refine Grammar.role_quoted_eq_letter hline hquote ?_
    rw [writes.escape_eq]
    exact fun same => hescape (Option.some.inj same).symm
  have hopened : (Scan.idle words).step g quote =
      ⟨[quote], String.singleton quote, words, [], none⟩ := by
    rw [Scan.step_quote rfl hrole, Scan.takeQuote_of_unquoted rfl]
    rfl
  have hbody : Scan.run g ⟨[quote], String.singleton quote, words, [], none⟩ body.toList =
      ⟨[quote], String.singleton quote ++ body, words, [], none⟩ := by
    rw [Scan.run_letters rfl hletters, String.ofList_toList]
  have hclosed : Scan.step g ⟨[quote], String.singleton quote ++ body, words, [], none⟩ quote =
      Scan.endWord ⟨[], (quoted quote body).text, words, [], none⟩ := by
    have hword : (String.singleton quote ++ body).push quote = (quoted quote body).text := by
      simp [text, ← String.toList_inj]
    rw [Scan.step_quote rfl hrole, Scan.takeQuote_of_quoted rfl, Scan.extend, hword]
  have nonempty : (quoted quote body).text ≠ "" := by simp [text]
  rw [written, Scan.run_cons, hopened, Scan.run_append, hbody, Scan.run_cons, Scan.run_nil, hclosed,
    Scan.endWord_of_isTrimmed nonempty (isTrimmed_text_quoted shown body)]

/-- Between two words, reading a written word and ending it adds the word. -/
theorem endWord_run_written (writes : g.Writes escape) {word : Word}
    (writable : word.IsWritable g escape) (words : List String) :
    ((Scan.idle words).run g (word.written escape)).endWord = Scan.idle (words ++ [word.text]) := by
  cases word with
  | plain text =>
      obtain ⟨nonempty, trimmed, unquoted⟩ := writable
      have bare : ∀ c ∈ text.toList, g.isQuote c = false := by simpa using unquoted
      have hword : (Scan.idle words).word ++ String.ofList text.toList = text := by
        simp [Scan.idle]
      rw [written, Scan.run_escaped writes rfl rfl bare, hword]
      exact Scan.endWord_of_isTrimmed nonempty trimmed words
  | quoted quote body =>
      rw [run_quoted writes writable, Scan.endWord_idle]

/-- Words with delimiters between them are read one after another. -/
theorem endWord_run_intercalate (writes : g.Writes escape) {word : Word} {rest : List Word}
    (writable : ∀ other ∈ word :: rest, other.IsWritable g escape) (words : List String) :
    ((Scan.idle words).run g
      ([g.delimiter].intercalate ((word :: rest).map (written escape)))).endWord =
        Scan.idle (words ++ (word :: rest).map text) := by
  induction rest generalizing word words with
  | nil =>
    simpa using endWord_run_written writes (writable word List.mem_cons_self) words
  | cons next rest ih =>
    have hword := endWord_run_written writes (writable word List.mem_cons_self) words
    have later := ih (fun other here => writable other (List.mem_cons_of_mem _ here))
      (words ++ [word.text])
    generalize hdone : (Scan.idle words).run g (word.written escape) = done at hword
    have hquotes := Scan.openQuotes_of_endWord_eq_idle hword
    have hescape := Scan.escape_of_endWord_eq_idle hword
    have hstep : done.step g g.delimiter = Scan.idle (words ++ [word.text]) := by
      rw [Scan.step_of_unquoted hquotes hescape, Grammar.role_delimiter writes.delimiter, Scan.act,
        hword]
    simpa [hdone, hstep] using later

end Word

namespace Scanner

variable {g : Grammar} {escape : Char}

/-- The text that says these words: the delimiter between them, the terminator behind them. -/
def write (g : Grammar) (escape : Char) (words : List Word) : String :=
  String.ofList ([g.delimiter].intercalate (words.map (Word.written escape)) ++ g.terminator.toList)

/-- Words that are written down are read back: a scanner without anything pending reads one command
with exactly these words, and nothing stays pending. A word in quotes keeps them, and what stands
between them can be told from it. -/
theorem read_write (writes : g.Writes escape) {words : List Word} (nonempty : words ≠ [])
    (writable : ∀ word ∈ words, word.IsWritable g escape) :
    fresh.read g (write g escape words) = ([.command (words.map Word.text)], fresh) ∧
      ∀ quote body, Word.quoted quote body ∈ words →
        enclosingQuote g.quotes (Word.quoted quote body).text = some quote ∧
          unquote g.quotes (Word.quoted quote body).text = body := by
  constructor
  · obtain ⟨word, rest, rfl⟩ := List.exists_cons_of_ne_nil nonempty
    have hword := Word.endWord_run_intercalate writes writable []
    rw [List.nil_append] at hword
    generalize hdone : (Scan.idle []).run g
      ([g.delimiter].intercalate ((word :: rest).map (Word.written escape))) = done at hword
    have hquotes : done.openQuotes = [] := Scan.openQuotes_of_endWord_eq_idle hword
    have hescape : done.escape = none := Scan.escape_of_endWord_eq_idle hword
    have hended : done.endWord.endStatement =
        ⟨[], "", [], [.command ((word :: rest).map Word.text)], none⟩ := by
      rw [hword]
      rfl
    have hresume : fresh.resume = Scan.idle [] := rfl
    have hclosed : (done.run g g.terminator.toList).close g =
        ⟨[], "", [], [.command ((word :: rest).map Word.text)], none⟩ := by
      cases hterminator : g.terminator with
      | none =>
          rw [Option.toList_none, Scan.run_nil, Scan.close,
            Scan.isQuoted_of_openQuotes_eq_nil hquotes]
          simp [hterminator, hended]
      | some terminator =>
          rw [Option.toList_some, Scan.run_cons, Scan.run_nil,
            Scan.step_of_unquoted hquotes hescape, writes.role_terminator hterminator, Scan.act,
            hended, Scan.close_of_unquoted (by simp [hterminator]) rfl,
            Scan.endWord_of_isBlankText rfl]
    rw [read, write, hresume, String.toList_ofList, Scan.run_append, hdone, hclosed]
    rfl
  · intro quote body here
    obtain ⟨⟨hquote, -⟩, -⟩ := writable _ here
    have known : quote ∈ g.quotes := by simpa [Grammar.isQuote] using hquote
    refine ⟨enclosingQuote_wrapped known body.toList, ?_⟩
    rw [Word.text, unquote_wrapped known body.toList, String.ofList_toList]

/-- Words separated by commas, in statements that end in semicolons. -/
def listing : Grammar := { quoting with delimiter := ',' }

/-- Four words, with every mark and a line break in them. -/
theorem read_write_listing :
    let words : List Word := [.plain "(a,;\n \\", .quoted '"' " b;,( ", .plain ",", .quoted '\'' ""]
    write listing '\\' words = "\\(\\a\\,\\;\\\n\\ \\\\,\" b;,( \",\\,,'';" ∧
    words.map Word.text = ["(a,;\n \\", "\" b;,( \"", ",", "''"] ∧
    listing.Writes '\\' ∧ (∀ word ∈ words, word.IsWritable listing '\\') ∧
    fresh.read listing (write listing '\\' words) = ([.command (words.map Word.text)], fresh) ∧
    ∀ quote body, Word.quoted quote body ∈ words →
      enclosingQuote listing.quotes (Word.quoted quote body).text = some quote ∧
        unquote listing.quotes (Word.quoted quote body).text = body := by
  intro words
  have bare (c : Char) (hline : Grammar.isLineBreak c = false) (hquote : c ∉ listing.quotes)
      (hblock : c ≠ '(' ∧ c ≠ ')') : listing.IsBare c :=
    ⟨hline, hquote, fun marks hmarks => by cases hmarks; exact hblock⟩
  have writes : listing.Writes '\\' :=
    { escape_eq := rfl
      escape_isBare := bare '\\' rfl (by decide) (by decide)
      delimiter :=
        { not_quote := by decide
          not_escape := by decide
          not_terminator := by decide
          not_block := (bare ',' rfl (by decide) (by decide)).not_block
          not_lineBreak := rfl }
      terminator := by
        rintro c ⟨⟩
        exact ⟨bare ';' rfl (by decide) (by decide), by decide⟩ }
  have writable : ∀ word ∈ words, word.IsWritable listing '\\' := by decide +kernel
  exact ⟨by decide +kernel, by decide +kernel, writes, writable,
    read_write writes (by simp [words]) writable⟩

end Scanner

end CommandEngine
