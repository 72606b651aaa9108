import TableView.Text.Blank
import TableView.Text.Search
import TableView.Decimal.Notation
import TableView.Json.Reader
import TableView.Json.Writer
import TableView.Sort.Routine
import TableView.Render
import TableView.Definition.Edit
import TableView.Definition.Issue
import TableView.Definition.Row
import TableView.Repository.Memory
import TableView.Repository.Files
import TableView.Store
import TableView.Proofs.Group.Partition
import TableView.Proofs.Render.Composition
import TableView.Proofs.Render.Blocks
import TableView.Proofs.Render.Blank
import TableView.Proofs.Render.Sorted
import TableView.Proofs.Render.Presentation
import TableView.Proofs.Edit.Accepted
import TableView.Proofs.Edit.Locked
import TableView.Proofs.Binary64.Nearest
import TableView.Proofs.Binary64.Whole
import TableView.Proofs.Sort.Order
import TableView.Proofs.Decimal.Value
import TableView.Proofs.Decimal.ReadBack
import TableView.Proofs.ItemByItem
import TableView.Proofs.Json.Number
import TableView.Proofs.Json.Text
import TableView.Proofs.Json.Scan
import TableView.Proofs.Json.RoundTrip
import TableView.Proofs.Json.Nesting
import TableView.Proofs.Json.Expressible
import TableView.Proofs.Json.Spelled
import TableView.Proofs.Instant.RoundTrip
import TableView.Proofs.Definition.Numbers
import TableView.Proofs.Definition.Filter
import TableView.Proofs.Definition.View
import TableView.Proofs.Definition.Finite
import TableView.Proofs.Definition.RoundTrip
import TableView.Proofs.Repository.Run
import TableView.Proofs.Repository.Saved
import TableView.Proofs.Repository.Files
import TableView.Proofs.Repository.GiveBack
import TableView.Proofs.Repository.Memory
import TableView.Proofs.Repository.Mirror
import TableView.Proofs.Store.Run
import TableView.Proofs.Store.WellFormed
import TableView.Proofs.Store.Presentation
import TableView.Proofs.Store.Tickets
import TableView.Proofs.Store.SaveLoad
import TableView.Proofs.Store.Completions
import TableView.Proofs.Sort.Stable
import TableView.Proofs.Render.Hidden
import TableView.Proofs.Store.Hidden
import TableView.Proofs.Repository.Stored
import TableView.Proofs.Store.NewIds
import TableView.Proofs.Binary64.Key
import TableView.Proofs.Group.Lookup
import TableView.Proofs.Group.Table
import TableView.Proofs.Condition.Complement
import TableView.Proofs.Filter.Dual
import TableView.Proofs.Condition.Literal
import TableView.Proofs.Render.Labels
import TableView.Proofs.Filter.Monotone
import TableView.Proofs.Render.Warning
import TableView.Proofs.Sort.Ties
import TableView.Proofs.Sort.Passes
import TableView.Proofs.Render.Tightened
import TableView.Proofs.Sort.Reversed
import TableView.Proofs.Binary64.Monotone
import TableView.Proofs.Condition.Range
import TableView.Proofs.Repository.Ordered
import TableView.Proofs.Sort.Range
import TableView.Proofs.Repository.Outcome
import TableView.Proofs.Edit.Selection
import TableView.Proofs.Edit.Deletions
import TableView.Proofs.Store.Independent
import TableView.Proofs.Json.Parts
import TableView.Proofs.Json.Read
import TableView.Proofs.Definition.Depth
import TableView.Proofs.Repository.Selection
import TableView.Proofs.Edit.Fitting
import TableView.Proofs.Store.Fitting
import TableView.Proofs.Store.Repair
import TableView.Proofs.Edit.Moves
import TableView.Proofs.Binary64.Exact
import TableView.Proofs.Group.Durations
import TableView.Proofs.Render.Subtotals
import TableView.Proofs.Edit.InPlace
import TableView.Proofs.Binary64.Meaning
import TableView.Proofs.Duration.ReadBack
