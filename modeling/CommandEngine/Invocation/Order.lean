import CommandEngine.Invocation
import CommandEngine.StableSort
/-!
# The order in which occurrences run

Occurrences run in descending order of effective priority, and those of equal priority in ascending
order of rank. The sort is stable, so occurrences that agree in both keep the order in which they
were attached. Every priority is looked up before anything is sorted: one option that is no longer
registered is an error of the whole invocation, and the first one in the order of attachment is the
one reported.
-/

namespace CommandEngine.Invocation

variable {ω : Type}

/-- Each occurrence with its effective priority. -/
def withPriorities (entry : Entry ω) :
    List Occurrence → Except CatalogError (List (Int32 × Occurrence))
  | [] => .ok []
  | occurrence :: rest =>
    match entry.runningPriority occurrence.option with
    | .error cause => .error cause
    | .ok priority => (withPriorities entry rest).map ((priority, occurrence) :: ·)

/-- Whether one occurrence may run before another, each given with its priority. -/
def mayPrecede (first second : Int32 × Occurrence) : Bool :=
  second.1 < first.1 || (first.1 == second.1 && first.2.rank ≤ second.2.rank)

/-- The occurrences in the order in which they run. -/
def ordered (catalog : Catalog ω) (invocation : Invocation) :
    Except CatalogError (List Occurrence) :=
  match catalog.entry invocation.name with
  | .error cause => .error cause
  | .ok entry =>
    (withPriorities entry invocation.occurrences).map fun keyed =>
      (stableSort mayPrecede keyed).map Prod.snd

end CommandEngine.Invocation
