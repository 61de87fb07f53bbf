import CommandEngine.Text.Cluster.Kind
/-!
# The clusters of a text

A cluster is what a reader counts as one sign. A text is divided from left to right, and whether it
goes on in the same cluster is decided between every two characters: from the kind of the second and
from what the characters before it have prepared. Most kinds look at the character before them
alone. Three look further back: the second letter of a flag needs an odd number of flag letters
before it, a pictograph needs another one and a joiner, and a stacked letter needs another one and
a linking sign, with nothing but marks between.

The division loses nothing (`flatten_clusters`) and makes no empty cluster
(`ne_nil_of_mem_clusters`).
-/

namespace CommandEngine.Text

/-- Whether characters of the kind stand alone. The one exception is a line break made of a carriage
return and a line feed. -/
def ClusterKind.standsAlone : ClusterKind → Bool
  | .control | .carriageReturn | .lineFeed => true
  | _ => false

/-- How far a bond over marks has come: a pictograph or letter begins it, a joiner or linking sign
completes it. -/
inductive Bond where
  | absent
  /-- The first partner, with marks on it. -/
  | begun
  /-- The first partner and the sign that binds it to a second one. -/
  | complete
  deriving DecidableEq, Repr

/-- What the characters before a boundary have prepared. -/
structure Lead where
  last : ClusterKind := .control
  oddFlagLetters : Bool := false
  /-- The bond of pictographs over a joiner. -/
  pictographs : Bond := .absent
  /-- The bond of stacked letters over a linking sign. -/
  letters : Bond := .absent
  deriving DecidableEq, Repr

namespace Bond

/-- The bond of pictographs after one more character. -/
def nextOfPictographs (bond : Bond) : ClusterKind → Bond
  | .pictograph => .begun
  | .extender => if bond = .begun then .begun else .absent
  | .joiner => if bond = .begun then .complete else .absent
  | _ => .absent

/-- The bond of stacked letters after one more character. -/
def nextOfLetters (bond : Bond) (c : Char) : ClusterKind → Bond
  | .stacking => .begun
  | .extender | .joiner =>
    if bond = .absent || isNonJoiner c then .absent
    else if isLinker c then .complete else bond
  | _ => .absent

end Bond

namespace Lead

/-- What is prepared after one more character. -/
def next (lead : Lead) (c : Char) : Lead :=
  let kind := ClusterKind.of c
  { last := kind
    oddFlagLetters := kind = .flagLetter && !lead.oddFlagLetters
    pictographs := lead.pictographs.nextOfPictographs kind
    letters := lead.letters.nextOfLetters c kind }

/-- Whether a character of the given kind belongs to the cluster before it. -/
def joins (lead : Lead) (kind : ClusterKind) : Bool :=
  if kind.standsAlone || lead.last.standsAlone then
    lead.last = .carriageReturn && kind = .lineFeed
  else lead.last = .leader ||
    match kind with
    | .extender | .joiner | .spacing => true
    | .leading | .openSyllable | .closedSyllable => lead.last = .leading
    | .vowel => [.leading, .vowel, .openSyllable].contains lead.last
    | .trailing => [.vowel, .openSyllable, .trailing, .closedSyllable].contains lead.last
    | .flagLetter => lead.oddFlagLetters
    | .pictograph => lead.pictographs = .complete
    | .stacking => lead.letters = .complete
    | _ => false

end Lead

/-- What is left of the cluster before a text, and the clusters after it. -/
def continued (lead : Lead) : List Char → List Char × List (List Char)
  | [] => ([], [])
  | c :: rest =>
    let (sign, later) := continued (lead.next c) rest
    if lead.joins (ClusterKind.of c) then (c :: sign, later) else ([], (c :: sign) :: later)

/-- The clusters of a text. -/
def clusters : List Char → List (List Char)
  | [] => []
  | c :: rest =>
    let (sign, later) := continued (Lead.next {} c) rest
    (c :: sign) :: later

private theorem append_flatten_continued (lead : Lead) (cs : List Char) :
    (continued lead cs).1 ++ (continued lead cs).2.flatten = cs := by
  induction cs generalizing lead with
  | nil => rfl
  | cons c rest ih =>
    rw [continued]
    by_cases joined : lead.joins (ClusterKind.of c) <;> simp [joined, ih]

@[simp]
theorem flatten_clusters (cs : List Char) : (clusters cs).flatten = cs := by
  cases cs with
  | nil => rfl
  | cons c rest => simp [clusters, append_flatten_continued]

private theorem ne_nil_of_mem_continued {lead : Lead} {cs sign : List Char}
    (found : sign ∈ (continued lead cs).2) : sign ≠ [] := by
  induction cs generalizing lead with
  | nil => simp [continued] at found
  | cons c rest ih =>
    rw [continued] at found
    by_cases joined : lead.joins (ClusterKind.of c)
    · simp only [joined, if_true] at found
      exact ih found
    · simp only [joined, Bool.false_eq_true, if_false, List.mem_cons] at found
      rcases found with rfl | found
      · simp
      · exact ih found

/-- No cluster is empty. -/
theorem ne_nil_of_mem_clusters {cs sign : List Char} (found : sign ∈ clusters cs) : sign ≠ [] := by
  cases cs with
  | nil => simp [clusters] at found
  | cons c rest =>
    simp only [clusters, List.mem_cons] at found
    rcases found with rfl | found
    · simp
    · exact ne_nil_of_mem_continued found

end CommandEngine.Text
