import CommandEngine.Text.Cluster
/-!
# Lines with corrections

Whoever types a line may take characters back with the backspace. When the input is a file, the
backspaces are still in it, and the line that counts is the one a reader would have seen: a
backspace takes back the cluster before it, and nothing at the beginning of the line.

What is taken back is measured in bytes. The size of a cluster is kept in a single byte, so of a
cluster of 256 bytes or more only what exceeds a multiple of 256 bytes is taken back. A line without
a backspace is its own correction (`corrected_of_not_mem`).
-/

namespace CommandEngine.Demo

open CommandEngine.Text

/-- The character that takes back the cluster before it. -/
def backspace : Char := '\x08'

/-- A line as far as it is typed. -/
structure TypedLine where
  reversed : List Char := []
  /-- The sizes of the clusters that can be taken back, from the last to the first. -/
  sizes : List Nat := []
  deriving DecidableEq, Repr

/-- The size that is kept of a cluster: its bytes, as far as a single byte can count them. -/
def keptSize (cluster : List Char) : Nat :=
  cluster.foldl (fun size c => size + c.utf8Size) 0 % 256

/-- The characters without the first of them, as many as fit into the given number of bytes. -/
def dropBytes : Nat → List Char → List Char
  | _, [] => []
  | bytes, c :: rest =>
    if c.utf8Size ≤ bytes then dropBytes (bytes - c.utf8Size) rest else c :: rest

namespace TypedLine

def takeBack (line : TypedLine) : TypedLine :=
  match line.sizes with
  | [] => line
  | size :: sizes => { reversed := dropBytes size line.reversed, sizes }

def type (line : TypedLine) (cluster : List Char) : TypedLine :=
  if cluster = [backspace] then line.takeBack
  else
    { reversed := cluster.reverse ++ line.reversed
      sizes := keptSize cluster :: line.sizes }

end TypedLine

/-- The line that is left when every backspace has had its effect. -/
def corrected (cs : List Char) : List Char :=
  ((clusters cs).foldl TypedLine.type {}).reversed.reverse

private theorem reversed_foldl_type {signs : List (List Char)} (line : TypedLine)
    (clean : [backspace] ∉ signs) :
    (signs.foldl TypedLine.type line).reversed = signs.flatten.reverse ++ line.reversed := by
  induction signs generalizing line with
  | nil => rfl
  | cons sign rest ih =>
    rw [List.mem_cons, not_or] at clean
    have typed : (line.type sign).reversed = sign.reverse ++ line.reversed := by
      simp [TypedLine.type, Ne.symm clean.1]
    simp [ih (line.type sign) clean.2, typed]

/-- A line without a backspace is its own correction. -/
theorem corrected_of_not_mem {cs : List Char} (clean : backspace ∉ cs) : corrected cs = cs := by
  have noneTyped : [backspace] ∉ clusters cs := fun found =>
    clean (flatten_clusters cs ▸ List.mem_flatten_of_mem found (List.mem_singleton_self _))
  simp [corrected, reversed_foldl_type {} noneTyped]

end CommandEngine.Demo
