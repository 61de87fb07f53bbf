import CommandEngine.Grammar.Description
import CommandEngine.Main
import CommandEngine.Path.Lookup
import CommandEngine.Proofs.Forest.WellFormed
import CommandEngine.Proofs.Forest.Subtree
import CommandEngine.Proofs.Forest.Links
import CommandEngine.Proofs.Forest.Grafting
import CommandEngine.Proofs.Forest.Editing
import CommandEngine.Proofs.Forest.Growth
import CommandEngine.Proofs.Forest.Splicing
import CommandEngine.Proofs.Forest.Retaining
import CommandEngine.Proofs.Forest.Addressing
import CommandEngine.Proofs.Scanner.Pieces
import CommandEngine.Proofs.Scanner.Carrying
import CommandEngine.Proofs.Batch.Planting
import CommandEngine.Proofs.Batch.BlockOrder
import CommandEngine.Proofs.Session.Acceptance
import CommandEngine.Proofs.Session.Calls
import CommandEngine.Proofs.Session.Atomicity
import CommandEngine.Proofs.Session.WritingOrder
import CommandEngine.Proofs.Session.LineBreaks
import CommandEngine.Proofs.Scanner.Writing
import CommandEngine.Proofs.Forest.Epochs
import CommandEngine.Proofs.Session.Epochs
import CommandEngine.Proofs.Session.Parents
import CommandEngine.Proofs.Session.Renewal
import CommandEngine.Proofs.Session.Running
import CommandEngine.Proofs.Catalog.Refusals
import CommandEngine.Proofs.Path.Spelling
import CommandEngine.Proofs.Catalog.Naming
import CommandEngine.Proofs.Invocation.Building
import CommandEngine.Proofs.Forest.Validity
import CommandEngine.Proofs.Session.Quotations
import CommandEngine.Proofs.Session.OpenBlocks
import CommandEngine.Proofs.Selection.Openings
import CommandEngine.Proofs.Invocation.Editing
import CommandEngine.Proofs.Invocation.Ordering
import CommandEngine.Proofs.Batch.Matching
import CommandEngine.Proofs.Catalog.Changing
import CommandEngine.Proofs.Catalog.Sequence
import CommandEngine.Proofs.Invocation.MainOption
import CommandEngine.Proofs.Invocation.Attaching
import CommandEngine.Proofs.Forest.Admission
import CommandEngine.Proofs.Forest.Rearranging
import CommandEngine.Proofs.Scanner.Splitting
import CommandEngine.Proofs.Session.Faults
import CommandEngine.Proofs.Scanner.OpenWord
import CommandEngine.Proofs.Scanner.Words
import CommandEngine.Proofs.Catalog.Invariant
import CommandEngine.Proofs.Forest.Listing
