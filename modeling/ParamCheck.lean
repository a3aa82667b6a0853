import ParamCheck.Text.Blank
import ParamCheck.Text.Case
import ParamCheck.Text.Digit
import ParamCheck.Text.Quoted
import ParamCheck.Number.Shortest
import ParamCheck.Number.Reading
import ParamCheck.Value.Entries
import ParamCheck.Value.Text
import ParamCheck.Pattern.Mask
import ParamCheck.Fault
import ParamCheck.Nested.Options
import ParamCheck.Directive
import ParamCheck.Merge
import ParamCheck.Alias
import ParamCheck.Options
import ParamCheck.Nested.Shared
import ParamCheck.Validator.Run
import ParamCheck.Stock
import ParamCheck.Registry
import ParamCheck.Profile
import ParamCheck.Document.Yaml
import ParamCheck.Profile.Load
import ParamCheck.Main
import ParamCheck.Proofs.Entries
import ParamCheck.Proofs.Nested.RoundTrip
import ParamCheck.Proofs.Merge.Contribution
import ParamCheck.Proofs.Returns
import ParamCheck.Proofs.Alias
import ParamCheck.Proofs.Merge.Precedence
import ParamCheck.Proofs.Report
import ParamCheck.Proofs.Validator.Upkeep
import ParamCheck.Proofs.Validator.Reachable
import ParamCheck.Proofs.Check
import ParamCheck.Proofs.Validator.Turn
import ParamCheck.Proofs.Validator.Plan
import ParamCheck.Proofs.Validator.Verdict
import ParamCheck.Proofs.Validator.Restoration
import ParamCheck.Proofs.Journal
import ParamCheck.Proofs.Merge.Policy
import ParamCheck.Proofs.Merge.Union
import ParamCheck.Proofs.Merge.Order
import ParamCheck.Proofs.Validator.Construction
import ParamCheck.Proofs.Validator.History
import ParamCheck.Proofs.Validator.Balance
import ParamCheck.Proofs.Validator.Congruence
import ParamCheck.Proofs.Validator.Toggles
import ParamCheck.Proofs.Validator.Freshness
import ParamCheck.Proofs.Check.Reading
import ParamCheck.Proofs.Validator.Passing
import ParamCheck.Proofs.Validator.Permutation
import ParamCheck.Proofs.Validator.Order
import ParamCheck.Proofs.Alias.Moves
import ParamCheck.Proofs.Validator.Independence
import ParamCheck.Proofs.Validator.Filtered
import ParamCheck.Proofs.Validator.Abort
import ParamCheck.Proofs.Validator.Renaming
import ParamCheck.Proofs.Nested.Settled
import ParamCheck.Proofs.Validator.Child
import ParamCheck.Proofs.Validator.Selection
import ParamCheck.Proofs.Validator.Abreast
import ParamCheck.Proofs.Validator.Policies
import ParamCheck.Proofs.Number.Overflow
import ParamCheck.Proofs.Check.Arguments
import ParamCheck.Proofs.Validator.Returning
import ParamCheck.Proofs.Nested.Spelling
import ParamCheck.Proofs.Nested.Lossless
import ParamCheck.Proofs.Nested.Gathering
import ParamCheck.Proofs.Nested.Placing
import ParamCheck.Proofs.Nested.Reordering
import ParamCheck.Proofs.Nested.Writing
import ParamCheck.Proofs.Nested.Overwriting
import ParamCheck.Proofs.Nested.Links
import ParamCheck.Proofs.Nested.Made
import ParamCheck.Proofs.Nested.Assembly
import ParamCheck.Proofs.Nested.Unentangled
import ParamCheck.Proofs.Nested.Sharing
import ParamCheck.Proofs.Validator.Steady
import ParamCheck.Proofs.Alias.Resolution
import ParamCheck.Proofs.Validator.Singly
import ParamCheck.Proofs.Validator.Callback
import ParamCheck.Proofs.Filter
import ParamCheck.Proofs.Validator.Targets
import ParamCheck.Proofs.Validator.Requirement
import ParamCheck.Proofs.Validator.Override
import ParamCheck.Proofs.Filter.Idempotence
import ParamCheck.Proofs.Filter.Strip
import ParamCheck.Proofs.Validator.Failures
import ParamCheck.Proofs.Profile.Update
import ParamCheck.Proofs.Profile.Document
import ParamCheck.Proofs.Check.Counting
import ParamCheck.Proofs.Pattern.Mask
import ParamCheck.Proofs.Check.Forms
import ParamCheck.Proofs.Command
