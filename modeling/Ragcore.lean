import Ragcore.Condition.Knowledge
import Ragcore.Invariant.Accounting
import Ragcore.Invariant.DoubleConfidence
import Ragcore.Invariant.Interference
import Ragcore.Invariant.Journal
import Ragcore.Invariant.NewestContradiction
import Ragcore.Operation.Interleaving
import Ragcore.Operation.Reference
import Ragcore.Operation.StatsUpdate
import Ragcore.Packing
import Ragcore.Role.Assignment
import Ragcore.Rule.Agreement
import Ragcore.Rule.Taxonomy
import Ragcore.Snapshot.Canonical
import Ragcore.Snapshot.Untouched
import Ragcore.Snapshot.WellShaped
