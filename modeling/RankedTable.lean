import RankedTable.Main
import RankedTable.Proofs.Command.PageSize
import RankedTable.Proofs.Command.RefusedInput
import RankedTable.Proofs.Command.Separation
import RankedTable.Proofs.Geo.LimitedSearch
import RankedTable.Proofs.Remote.Projection
import RankedTable.Proofs.Score.Malformed
import RankedTable.Proofs.SortedSet.Admission
import RankedTable.Proofs.SortedSet.Draining
import RankedTable.Proofs.SortedSet.Membership
import RankedTable.Proofs.SortedSet.NameRanges
import RankedTable.Proofs.SortedSet.PartialRanks
import RankedTable.Proofs.SortedSet.PartialReads
import RankedTable.Proofs.SortedSet.Ties
import RankedTable.Proofs.SortedSet.Uncontended
import RankedTable.Proofs.Table.Following
import RankedTable.Proofs.Table.Guards
import RankedTable.Proofs.Table.History
import RankedTable.Proofs.Table.Sweep
import RankedTable.Proofs.Table.Transaction
