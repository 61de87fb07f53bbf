import CommandEngine.Proofs.Scanner.Carrying
import CommandEngine.Proofs.Session.LineBreaks
/-!
# Quotations over several lines

A quotation that is open at the end of a line goes on in the next one, and nothing comes between the
two: once the quotation is over, the session is what it would be if the lines had been written as
one (`Session.accept_join_quoted`). Statements that an earlier line completed have nodes by then,
and in the one line they have numbers, so this rests on planting in two parts, as for other lines.

One thing is lost, and the result has to exclude it. A session does not read blank lines, inside a
quotation neither, so the blanks of such a line do not become part of the quoted word. Lines of
nothing but line breaks do no harm: a line break never belongs to a word.
-/

namespace CommandEngine

namespace Scanner

variable {g : Grammar} {scanner : Scanner}

/-- A quotation is open after each text but the last. -/
def KeepsQuoting (g : Grammar) (scanner : Scanner) : List String → Prop
  | [] => True
  | text :: rest =>
    (rest ≠ [] → (scanner.read g text).2.openQuotes ≠ []) ∧
      (scanner.read g text).2.KeepsQuoting g rest

/-- Line breaks are passed over. -/
theorem run_lineBreaks (g : Grammar) {s : Scan} (released : s.escape = none) {cs : List Char}
    (breaks : ∀ c ∈ cs, Grammar.isLineBreak c = true) : s.run g cs = s := by
  induction cs with
  | nil => rfl
  | cons c rest ih =>
      have hstep : s.step g c = s := by
        rw [Scan.step, released, Grammar.role, if_pos (breaks c List.mem_cons_self)]
        rfl
      rw [Scan.run_cons, hstep]
      exact ih fun other here => breaks other (List.mem_cons_of_mem _ here)

theorem escape_resume (scanner : Scanner) : scanner.resume.escape = none := by
  unfold resume
  split
  · rfl
  · split <;> rfl

/-- A text of nothing but line breaks changes nothing inside a quotation. -/
theorem read_lineBreaks_of_quoted (held : scanner.HasOpenWord) (quoted : scanner.openQuotes ≠ [])
    {text : String} (breaks : ∀ c ∈ text.toList, Grammar.isLineBreak c = true) :
    scanner.read g text = ([], scanner) := by
  have hempty := read_empty_of_quoted (g := g) held quoted
  rw [read, String.toList_empty, Scan.run_nil] at hempty
  rw [read, run_lineBreaks g scanner.escape_resume breaks]
  exact hempty

/-- Such a text opens no quotation. -/
theorem openQuotes_read_lineBreaks {text : String}
    (breaks : ∀ c ∈ text.toList, Grammar.isLineBreak c = true) :
    (fresh.read g text).2.openQuotes = [] := by
  rw [read, run_lineBreaks g fresh.escape_resume breaks]
  exact Scan.openQuotes_close g _

/-- Texts between which a quotation stays open are read as one text. -/
theorem HasOpenWord.readAll_eq_of_keepsQuoting (held : scanner.HasOpenWord) {texts : List String}
    (nonempty : texts ≠ []) (quoting : scanner.KeepsQuoting g texts)
    (released : scanner.Releases g texts) :
    scanner.readAll g texts = scanner.read g (String.join texts) := by
  induction texts generalizing scanner with
  | nil => exact absurd rfl nonempty
  | cons text rest ih =>
      by_cases last : rest = []
      · subst last
        simp [readAll]
      · rw [String.join_cons, read_append_of_quoted held (quoting.1 last) released.1,
          ← ih (held.read g text) last quoting.2 released.2]
        rfl

end Scanner

namespace Session

variable {ω : Type} {session after : Session ω} {settings : Settings ω}

private theorem hasOpenWord_acceptStatements (held : session.scanner.HasOpenWord)
    (statements : List Statement) :
    (session.acceptStatements statements).2.scanner.HasOpenWord := by
  unfold acceptStatements
  dsimp only
  split
  · exact Scanner.hasOpenWord_fresh
  · split
    · exact Scanner.hasOpenWord_fresh
    · exact held

private theorem hasOpenWord_accept (held : session.scanner.HasOpenWord) (line : String) :
    (session.accept line).2.scanner.HasOpenWord := by
  unfold accept
  split
  · exact held
  · have held' := held.read session.settings.grammar line
    dsimp only
    split
    · exact held'
    · exact hasOpenWord_acceptStatements held' _

private theorem hasOpenWord_execute (held : session.scanner.HasOpenWord) (world : ω) :
    (session.execute world).2.1.scanner.HasOpenWord := by
  rcases execute_cases session world with ⟨hsame, -⟩ | ⟨hcleared, -⟩
  · rw [hsame]
    exact held
  · rw [hcleared]
    exact held

private theorem hasOpenWord_edit (held : session.scanner.HasOpenWord) (handle : Handle)
    (change : Invocation → Except CatalogError Unit × Invocation) :
    (session.edit handle change).2.scanner.HasOpenWord := by
  rw [Session.edit]
  split <;> exact held

private theorem hasOpenWord_serve (held : session.scanner.HasOpenWord) (world : ω)
    (request : Request ω) :
    (session.serve world request).2.1.scanner.HasOpenWord :=
  serve_of_keeps (P := fun session => session.scanner.HasOpenWord)
    (fun line held => hasOpenWord_accept held line)
    (fun world held => hasOpenWord_execute held world)
    (fun _ => Scanner.hasOpenWord_fresh) (fun _ held => held) held world request

private theorem hasOpenWord_perform (held : session.scanner.HasOpenWord) (world : ω)
    (call : Call ω) :
    (session.perform world call).2.1.scanner.HasOpenWord := by
  cases call with
  | request request => exact hasOpenWord_serve held world request
  | editTree edit => exact held
  | changeNode handle change => exact held
  | newNode name =>
      simp only [Session.perform, Session.newNode]
      split <;> exact held
  | attachOption handle option => exact hasOpenWord_edit held handle _
  | renameNode handle name => exact hasOpenWord_edit held handle _

theorem Reachable.hasOpenWord (reached : Reachable settings session) :
    session.scanner.HasOpenWord := by
  induction reached with
  | start => exact Scanner.hasOpenWord_fresh
  | perform _ world call held => exact hasOpenWord_perform held world call
  | exchangeTree _ _ held => exact held

/-! ## Lines in turn -/

/-- The session accepts several lines, one after another, and this is what it comes to. -/
def AcceptsInTurn (session : Session ω) : List String → Session ω → Prop
  | [], after => after = session
  | line :: rest, after =>
    ∃ next, session.accept line = (.accepted, next) ∧ next.AcceptsInTurn rest after

theorem acceptsInTurn_cons {line : String} {rest : List String}
    (hverdict : (session.accept line).1 = .accepted)
    (later : (session.accept line).2.AcceptsInTurn rest after) :
    session.AcceptsInTurn (line :: rest) after :=
  ⟨(session.accept line).2, Prod.ext hverdict rfl, later⟩

theorem accept_eq_acceptRead_of_shown {line : String} (shown : Text.isBlankText line = false) :
    session.accept line =
      session.acceptRead (session.scanner.read session.settings.grammar line).1
        (session.scanner.read session.settings.grammar line).2 := by
  rw [accept, shown]
  rfl

/-- Inside a quotation, a line is read unless blanks are all that it has to add. -/
theorem accept_eq_acceptRead_of_quoted (held : session.scanner.HasOpenWord)
    (quoted : session.scanner.openQuotes ≠ []) {line : String}
    (visible : Text.isBlankText line = true → ∀ c ∈ line.toList, Grammar.isLineBreak c = true) :
    session.accept line =
      session.acceptRead (session.scanner.read session.settings.grammar line).1
        (session.scanner.read session.settings.grammar line).2 := by
  cases blank : Text.isBlankText line with
  | false => exact accept_eq_acceptRead_of_shown blank
  | true =>
      rw [accept, blank, Scanner.read_lineBreaks_of_quoted held quoted (visible blank)]
      rfl

/-- Lines that are accepted in turn are taken in together, if the first is read and those after it
go on with its quotation. -/
theorem absorbs_of_acceptsInTurn (sound : session.Sound) (held : session.scanner.HasOpenWord)
    {line : String} {rest : List String}
    (shown : session.accept line =
      session.acceptRead (session.scanner.read session.settings.grammar line).1
        (session.scanner.read session.settings.grammar line).2)
    (quoting : session.scanner.KeepsQuoting session.settings.grammar (line :: rest))
    (visible : ∀ later ∈ rest, Text.isBlankText later = true →
      ∀ c ∈ later.toList, Grammar.isLineBreak c = true)
    (accepted : session.AcceptsInTurn (line :: rest) after) :
    session.Absorbs (session.scanner.readAll session.settings.grammar (line :: rest)).1
      (session.scanner.readAll session.settings.grammar (line :: rest)).2 after := by
  induction rest generalizing session line with
  | nil =>
      obtain ⟨next, haccept, rfl⟩ := accepted
      rw [shown] at haccept
      simpa [Scanner.readAll] using absorbs_of_acceptRead sound haccept
  | cons following rest ih =>
      obtain ⟨next, haccept, later⟩ := accepted
      rw [shown] at haccept
      have first := absorbs_of_acceptRead sound haccept
      obtain ⟨hscanner, hsettings⟩ := scanner_of_acceptRead_eq_accepted sound haccept
      have held' : next.scanner.HasOpenWord := hscanner ▸ held.read _ line
      have quoted : next.scanner.openQuotes ≠ [] := by
        rw [hscanner]
        exact quoting.1 (List.cons_ne_nil following rest)
      have shown' := accept_eq_acceptRead_of_quoted held' quoted
        (visible following List.mem_cons_self)
      have second := ih (first.sound sound) held' shown'
        (by rw [hscanner, hsettings]; exact quoting.2)
        (fun other here => visible other (List.mem_cons_of_mem following here)) later
      rw [hscanner, hsettings] at second
      exact first.append sound second

/-- Let the input be complete in a session that the host has brought about in any way, and let the
session accept several lines in turn, between which a quotation stays open; none of them ends in an
escape with nothing to escape. Then it accepts them as one line, and what it comes to is the same in
every respect. Of several lines, those that are blank must consist of line breaks alone. -/
theorem accept_join_quoted (reached : Reachable settings session)
    (complete : session.isComplete = true) {lines : List String}
    (quoting : session.scanner.KeepsQuoting session.settings.grammar lines)
    (released : session.scanner.Releases session.settings.grammar lines)
    (visible : ∀ line ∈ lines, lines ≠ [line] → Text.isBlankText line = true →
      ∀ c ∈ line.toList, Grammar.isLineBreak c = true)
    (accepted : session.AcceptsInTurn lines after) :
    session.accept (String.join lines) = (.accepted, after) := by
  rw [isComplete, Bool.and_eq_true] at complete
  have sound := reached.sound
  have held := reached.hasOpenWord
  have hfresh := held.eq_fresh (List.isEmpty_iff.1 complete.1)
  cases lines with
  | nil =>
      cases accepted
      rfl
  | cons line rest =>
      by_cases last : rest = []
      · subst last
        obtain ⟨next, haccept, rfl⟩ := accepted
        simpa using haccept
      · have several (other : String) : line :: rest ≠ [other] :=
          fun same => last (List.cons.inj same).2
        -- A quotation is open after the first line, so something has been written on it.
        have shown : Text.isBlankText line = false := by
          rw [Bool.eq_false_iff]
          intro blank
          apply quoting.1 last
          rw [hfresh]
          exact Scanner.openQuotes_read_lineBreaks
            (visible line List.mem_cons_self (several line) blank)
        have whole : Text.isBlankText (String.join (line :: rest)) = false := by
          rw [Text.isBlankText] at shown
          rw [String.join_cons, Text.isBlankText, String.toList_append, List.all_append, shown]
          rfl
        have together := absorbs_of_acceptsInTurn sound held (accept_eq_acceptRead_of_shown shown)
          quoting (fun other here => visible other (List.mem_cons_of_mem line here) (several other))
          accepted
        have hread := held.readAll_eq_of_keepsQuoting (List.cons_ne_nil line rest) quoting
          released
        rw [accept_eq_acceptRead_of_shown whole, ← hread]
        exact together.acceptRead_eq sound

/-- The arguments of all commands in the tree of a session. -/
def argumentsInTree (session : Session ω) : List String :=
  session.tree.labels.flatMap fun invocation =>
    invocation.occurrences.flatMap Occurrence.arguments

/-- A quotation over three lines, of which the first ends a statement and the second is empty but
for its line break. -/
theorem accept_join_quoted_of_lineBreak :
    let session := (ofSettings bracketed).performAll (registering "a")
    let lines := ["a; a \"x ", "\n", " y\";"]
    ∃ after, session.AcceptsInTurn lines after ∧ after.argumentsInTree = ["\"x  y\""] ∧
      session.accept (String.join lines) = (.accepted, after) := by
  intro session lines
  have reached : Reachable bracketed session := Reachable.start.performAll (registering "a")
  have quoting : session.scanner.KeepsQuoting session.settings.grammar lines :=
    ⟨fun _ => by decide +kernel, fun _ => by decide +kernel, fun h => absurd rfl h, trivial⟩
  have released : session.scanner.Releases session.settings.grammar lines :=
    ⟨by decide +kernel, by decide +kernel, by decide +kernel, trivial⟩
  have visible : ∀ line ∈ lines, Text.isBlankText line = true →
      ∀ c ∈ line.toList, Grammar.isLineBreak c = true := by
    intro line here blank
    simp only [lines, List.mem_cons, List.not_mem_nil, or_false] at here
    rcases here with rfl | rfl | rfl
    · exact absurd blank (by decide +kernel)
    · exact List.all_eq_true.1 (by decide +kernel)
    · exact absurd blank (by decide +kernel)
  have accepted : session.AcceptsInTurn lines _ :=
    acceptsInTurn_cons (by decide +kernel) (acceptsInTurn_cons (by decide +kernel)
      (acceptsInTurn_cons (by decide +kernel) rfl))
  exact ⟨_, accepted, by decide +kernel,
    accept_join_quoted reached (by decide +kernel) quoting released
      (fun line here _ => visible line here) accepted⟩

/-- With a line of one blank inside the quotation the two differ: this blank is lost. -/
theorem accept_drops_quoted_blank :
    let session := (ofSettings bracketed).performAll (registering "a")
    let lines := ["a \"x", " ", "y\";"]
    ∃ after joined, session.isComplete = true ∧
      session.scanner.KeepsQuoting session.settings.grammar lines ∧
      session.scanner.Releases session.settings.grammar lines ∧
      session.AcceptsInTurn lines after ∧ after.argumentsInTree = ["\"xy\""] ∧
      session.accept (String.join lines) = (.accepted, joined) ∧
      joined.argumentsInTree = ["\"x y\""] := by
  intro session lines
  have quoting : session.scanner.KeepsQuoting session.settings.grammar lines :=
    ⟨fun _ => by decide +kernel, fun _ => by decide +kernel, fun h => absurd rfl h, trivial⟩
  have released : session.scanner.Releases session.settings.grammar lines :=
    ⟨by decide +kernel, by decide +kernel, by decide +kernel, trivial⟩
  have accepted : session.AcceptsInTurn lines _ :=
    acceptsInTurn_cons (by decide +kernel) (acceptsInTurn_cons (by decide +kernel)
      (acceptsInTurn_cons (by decide +kernel) rfl))
  have hjoined : (session.accept (String.join lines)).1 = .accepted := by decide +kernel
  exact ⟨_, (session.accept (String.join lines)).2, by decide +kernel, quoting, released, accepted,
    by decide +kernel, Prod.ext hjoined rfl, by decide +kernel⟩

end Session

end CommandEngine
