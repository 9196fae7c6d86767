import SemanticMemory.Datum.Coding
import SemanticMemory.Diagnostics
import SemanticMemory.Layer.Faulty
import SemanticMemory.Layer.Reversed
import SemanticMemory.Memory.Dependence
import SemanticMemory.Memory.History
import SemanticMemory.Memory.Scan
import SemanticMemory.Proofs.Soundness
import SemanticMemory.Request
import SemanticMemory.Setup
import SemanticMemory.Survey
import SemanticMemory.Trial
import SemanticMemory.Proofs.Growth
import SemanticMemory.Proofs.Cascade
import SemanticMemory.Proofs.Renaming
import SemanticMemory.Proofs.Integrity
import SemanticMemory.Proofs.Erasure
import SemanticMemory.Proofs.Spelling
import SemanticMemory.Proofs.Numbering
import SemanticMemory.Proofs.Ownership
import SemanticMemory.Proofs.Answers
import SemanticMemory.Proofs.Members
import SemanticMemory.Proofs.Sets
import SemanticMemory.Proofs.Building
import SemanticMemory.Proofs.Reversal
import SemanticMemory.Proofs.Programs
import SemanticMemory.Proofs.Likeness
import SemanticMemory.Proofs.Clearing
import SemanticMemory.Proofs.Requests
import SemanticMemory.Proofs.Refusals
import SemanticMemory.Proofs.Permanence
import SemanticMemory.Proofs.Undoing
import SemanticMemory.Proofs.OrderFreedom
import SemanticMemory.Proofs.Departure
import SemanticMemory.Proofs.Interruption
import SemanticMemory.Proofs.Neighborhoods
import SemanticMemory.Proofs.Additions
import SemanticMemory.Proofs.Catalogs
import SemanticMemory.Proofs.Assignment
import SemanticMemory.Proofs.Cones
import SemanticMemory.Proofs.Bootstrapping
import SemanticMemory.Proofs.Readability
import SemanticMemory.Proofs.Naming
import SemanticMemory.Proofs.Injection
