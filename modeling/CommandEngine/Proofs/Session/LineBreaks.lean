import CommandEngine.Proofs.Scanner.Pieces
import CommandEngine.Proofs.Session.Calls
/-!
# Line breaks do not matter

A text may be given line by line or, with a delimiter in place of the line break, as one line. The
session comes out the same (`Session.accept_join`), although it gets there in different ways: blocks
opened by the first part refer to nodes when the second part is another line, and to numbers of the
same batch when it is not. Both amount to planting, and planting in two parts is planting the parts
in turn.

Only one direction holds. A session that takes the whole text as one line refuses it as a whole,
while the first of two lines may be accepted before the second is refused.
-/

namespace CommandEngine

namespace Session

variable {ω : Type} {session first second : Session ω} {front back : List Statement}
variable {scanner scanner' : Scanner}

/-- Planting the second part where the first has been planted is planting both. -/
theorem Plants.append {last last' : Nesting} {grown grown' : InvocationTree} (sound : session.Sound)
    (hfront : session.Plants front last grown)
    (hback : ({ session with scanner, tree := grown, nesting := last } : Session ω).Plants
      back last' grown') : session.Plants (front ++ back) last' grown' := by
  obtain ⟨hknown, batch, anchor, rooted, hitems, hanchor, hplant⟩ := hfront
  obtain ⟨hknown', batch', anchor', rooted', hitems', hanchor', hplant'⟩ := hback
  obtain ⟨wg, hhead, -⟩ := Batch.anchor_spec sound.tree hanchor
  obtain ⟨-, -, hhead', -⟩ := Batch.plant_spec wg (wg.inTree_head hhead) hplant
  rw [hhead] at hhead'
  rw [Batch.anchor_of_head _ _ hhead'] at hanchor'
  cases hanchor'
  have hlive : ({ session with scanner, tree := grown, nesting := last } : Session ω).liveNesting =
      last := by
    simp [liveNesting, Forest.isEmpty, hhead']
  rw [hlive] at hplant'
  refine ⟨?_, batch ++ batch', anchor, rooted, ?_, hanchor, ?_⟩
  · rw [Batch.firstUnknown?, List.filterMap_append, List.find?_append]
    exact (congrArg (Option.or · _) hknown).trans hknown'
  · rw [Batch.items_append, hitems]
    dsimp only
    rw [hitems']
    rfl
  · rw [Batch.plant_append, hplant]
    exact hplant'

/-- Accept what has been read of a line, without asking whether the line is blank. -/
def acceptRead (session : Session ω) (statements : List Statement) (scanner : Scanner) :
    Verdict × Session ω :=
  if statements.isEmpty then (.accepted, { session with scanner })
  else ({ session with scanner } : Session ω).acceptStatements statements

/-- The session takes in what has been read: there is none of it, or it can be planted. -/
def Absorbs (session : Session ω) (statements : List Statement) (scanner : Scanner)
    (after : Session ω) : Prop :=
  (statements = [] ∧ after = { session with scanner }) ∨
  ∃ last grown, statements ≠ [] ∧ session.Plants statements last grown ∧
    after = { session with scanner, tree := grown, nesting := last }

/-- What has been read is accepted only if the session takes it in. -/
theorem absorbs_of_acceptRead (sound : session.Sound)
    (haccept : session.acceptRead front scanner = (.accepted, first)) :
    session.Absorbs front scanner first := by
  cases front with
  | nil => exact .inl ⟨rfl, (Prod.mk.inj haccept).2.symm⟩
  | cons statement rest =>
      have sound' : ({ session with scanner } : Session ω).Sound := ⟨sound.tree, sound.nesting⟩
      have hresult : ({ session with scanner } : Session ω).acceptStatements (statement :: rest) =
          (.accepted, first) := haccept
      rcases acceptStatements_cases sound' (statement :: rest) with
        ⟨verdict, hverdict, hrefused⟩ | ⟨last, grown, hplants, htaken⟩
      · rw [hrefused] at hresult
        exact absurd (Prod.mk.inj hresult).1 hverdict
      · rw [htaken] at hresult
        exact .inr ⟨last, grown, nofun, hplants, (Prod.mk.inj hresult).2.symm⟩

theorem Absorbs.sound (sound : session.Sound) (absorbs : session.Absorbs front scanner first) :
    first.Sound := by
  rcases absorbs with ⟨-, rfl⟩ | ⟨last, grown, -, hplants, rfl⟩
  · exact ⟨sound.tree, sound.nesting⟩
  · obtain ⟨wf, hsettled⟩ := sound.plants hplants
    exact ⟨wf, hsettled⟩

/-- What the session takes in is accepted. -/
theorem Absorbs.acceptRead_eq (sound : session.Sound)
    (absorbs : session.Absorbs front scanner first) :
    session.acceptRead front scanner = (.accepted, first) := by
  rcases absorbs with ⟨rfl, rfl⟩ | ⟨last, grown, nonempty, hplants, rfl⟩
  · rfl
  · have sound' : ({ session with scanner } : Session ω).Sound := ⟨sound.tree, sound.nesting⟩
    rw [acceptRead, if_neg (by simpa using nonempty)]
    exact acceptStatements_of_plants sound' hplants

/-- What is taken in in two parts is taken in as a whole. -/
theorem Absorbs.append (sound : session.Sound) (hfirst : session.Absorbs front scanner first)
    (hsecond : first.Absorbs back scanner' second) :
    session.Absorbs (front ++ back) scanner' second := by
  rcases hfirst with ⟨rfl, rfl⟩ | ⟨last, grown, nonempty, hplants, rfl⟩
  · exact hsecond
  · rcases hsecond with ⟨rfl, rfl⟩ | ⟨last', grown', -, hplants', rfl⟩
    · rw [List.append_nil]
      exact .inr ⟨last, grown, nonempty, hplants, rfl⟩
    · exact .inr ⟨last', grown', by simp [nonempty], hplants.append sound hplants', rfl⟩

/-- What is accepted in two parts is accepted as a whole. -/
theorem acceptRead_append (sound : session.Sound)
    (hfirst : session.acceptRead front scanner = (.accepted, first))
    (hsecond : first.acceptRead back scanner' = (.accepted, second)) :
    session.acceptRead (front ++ back) scanner' = (.accepted, second) := by
  have absorbs := absorbs_of_acceptRead sound hfirst
  have absorbs' := absorbs_of_acceptRead (absorbs.sound sound) hsecond
  exact (absorbs.append sound absorbs').acceptRead_eq sound

/-- Outside of a quotation it makes no difference that blank lines are not read. -/
theorem accept_eq_acceptRead (hterminator : session.settings.grammar.terminator.isSome = true)
    (visible : session.settings.grammar.HasVisibleMarks) {line : String}
    (unquoted : Text.isBlankText line = true → session.scanner.openQuotes = []) :
    session.accept line =
      session.acceptRead (session.scanner.read session.settings.grammar line).1
        (session.scanner.read session.settings.grammar line).2 := by
  rw [accept]
  split
  case isTrue blank =>
    rw [Scanner.read_blank visible hterminator (unquoted blank) blank]
    rfl
  case isFalse => rfl

theorem scanner_of_acceptRead_eq_accepted (sound : session.Sound)
    (haccept : session.acceptRead front scanner = (.accepted, first)) :
    first.scanner = scanner ∧ first.settings = session.settings := by
  rcases absorbs_of_acceptRead sound haccept with ⟨-, rfl⟩ | ⟨last, grown, -, -, rfl⟩
  · exact ⟨rfl, rfl⟩
  · exact ⟨rfl, rfl⟩

/-- Let a grammar have a terminator, a delimiter of its own and marks that are not blank. If a
session that the host has brought about in any way accepts two lines one after another, and the
first ends neither inside a quotation nor in an escape, then it accepts them as one line with the
delimiter between them, and what it comes to is the same in every respect. -/
theorem accept_join {settings : Settings ω} {session first second : Session ω}
    (reached : Reachable settings session)
    (hterminator : session.settings.grammar.terminator.isSome = true)
    (own : session.settings.grammar.HasOwnDelimiter)
    (visible : session.settings.grammar.HasVisibleMarks) {line line' : String}
    (hfirst : session.accept line = (.accepted, first))
    (hsecond : first.accept line' = (.accepted, second))
    (unquoted : first.scanner.openQuotes = [])
    (released : (session.scanner.resume.run session.settings.grammar line.toList).escape = none) :
    session.accept
      (line ++ String.singleton session.settings.grammar.delimiter ++ line') =
        (.accepted, second) := by
  have sound := reached.sound
  have outside : Text.isBlankText line = true → session.scanner.openQuotes = [] := by
    intro blank
    rw [accept, if_pos blank] at hfirst
    rw [(Prod.mk.inj hfirst).2]
    exact unquoted
  have outside' : Text.isBlankText
      (line ++ String.singleton session.settings.grammar.delimiter ++ line') = true →
      session.scanner.openQuotes = [] := by
    intro blank
    apply outside
    simp only [Text.isBlankText, String.toList_append, List.all_append, Bool.and_eq_true] at blank
    exact blank.1.1
  rw [accept_eq_acceptRead hterminator visible outside] at hfirst
  obtain ⟨hscanner, hsettings⟩ := scanner_of_acceptRead_eq_accepted sound hfirst
  rw [accept_eq_acceptRead (by rwa [hsettings]) (by rwa [hsettings]) fun _ => unquoted, hscanner,
    hsettings] at hsecond
  rw [hscanner] at unquoted
  rw [accept_eq_acceptRead hterminator visible outside',
    Scanner.read_join own hterminator unquoted released]
  exact acceptRead_append sound hfirst hsecond

/-- Lines whose statements end in semicolons and nest in brackets. -/
def bracketed : Settings Unit where
  grammar :=
    { quotes := ['"']
      terminator := some ';'
      blocks := some ⟨'(', ')'⟩ }
  onUnknownCommand _ world := (.ok (), world)
  onUnknownOption _ world := (.ok (), world)

/-- The run in which a command is registered, and nothing else happens. -/
def registering (name : String) : List (Call Unit × Unit) :=
  [(.request (.changeCatalog (.register name none Action.idle)), ())]

/-- A block that one line opens and the next closes may be written in one line. -/
theorem accept_join_of_block :
    ∃ session first second : Session Unit,
      session = (ofSettings bracketed).performAll (registering "a") ∧
      session.accept "a;(" = (.accepted, first) ∧ first.isComplete = false ∧
      first.accept "a;)" = (.accepted, second) ∧ second.tree.size = 3 ∧
      session.accept ("a;(" ++ String.singleton ' ' ++ "a;)") = (.accepted, second) := by
  have own : bracketed.grammar.HasOwnDelimiter :=
    { not_quote := by decide
      not_escape := by decide
      not_terminator := by decide
      not_block := by
        intro marks hmarks
        cases hmarks
        decide
      not_lineBreak := rfl }
  have visible : bracketed.grammar.HasVisibleMarks :=
    { quotes := by
        intro mark here
        rw [List.mem_singleton.1 here]
        rfl
      escape := by
        intro mark hmark
        cases hmark
        rfl
      terminator := by
        intro mark hmark
        cases hmark
        rfl
      blocks := by
        intro marks hmarks
        cases hmarks
        exact ⟨rfl, rfl⟩ }
  let session := (ofSettings bracketed).performAll (registering "a")
  have hverdict : (session.accept "a;(").1 = .accepted := by decide +kernel
  have hverdict' : ((session.accept "a;(").2.accept "a;)").1 = .accepted := by decide +kernel
  have hopen : (session.accept "a;(").2.isComplete = false := by decide +kernel
  have hsize : ((session.accept "a;(").2.accept "a;)").2.tree.size = 3 := by decide +kernel
  have unquoted : (session.accept "a;(").2.scanner.openQuotes = [] := by decide +kernel
  have released : (session.scanner.resume.run bracketed.grammar "a;(".toList).escape = none := by
    decide +kernel
  generalize hfirst : session.accept "a;(" = outcome at *
  obtain ⟨verdict, first⟩ := outcome
  cases hverdict
  generalize hsecond : first.accept "a;)" = outcome' at *
  obtain ⟨verdict', second⟩ := outcome'
  cases hverdict'
  have reached : Reachable bracketed session := Reachable.start.performAll (registering "a")
  exact ⟨session, first, second, rfl, hfirst, hopen, hsecond, hsize,
    accept_join reached rfl own visible hfirst hsecond unquoted released⟩

end Session

end CommandEngine
