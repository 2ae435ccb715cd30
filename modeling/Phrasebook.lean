import Phrasebook.Candidates
import Phrasebook.Catalog
import Phrasebook.Decimal.Double
import Phrasebook.Decimal.Layout
import Phrasebook.Decimal.Nearest
import Phrasebook.Decimal.Shortest
import Phrasebook.Event
import Phrasebook.Failure
import Phrasebook.Json.Reader
import Phrasebook.Json.Token
import Phrasebook.Key
import Phrasebook.Locale
import Phrasebook.Localizer
import Phrasebook.Markup
import Phrasebook.Members
import Phrasebook.Notice
import Phrasebook.Options
import Phrasebook.Plural.Builtin
import Phrasebook.Plural.Rule
import Phrasebook.Proofs.Markup.Safety
import Phrasebook.Proofs.Options.Layers
import Phrasebook.Proofs.Resolution.Guards
import Phrasebook.Proofs.Resolution.Tokens
import Phrasebook.Proofs.Run.Agreement
import Phrasebook.Proofs.Run.Results
import Phrasebook.Proofs.Template.Pieces
import Phrasebook.Proofs.Template.Scan
import Phrasebook.Reporting
import Phrasebook.Resolution
import Phrasebook.Run
import Phrasebook.Setting
import Phrasebook.Settings.Basic
import Phrasebook.Settings.Conversion
import Phrasebook.Settings.Source
import Phrasebook.Template.Interpolation
import Phrasebook.Template.Marks
import Phrasebook.Template.Nested
import Phrasebook.Template.Nesting
import Phrasebook.Template.Split
import Phrasebook.Text.Blank
import Phrasebook.Text.Cut
import Phrasebook.Text.Mark
import Phrasebook.Text.Quoted
import Phrasebook.Text.Unprintable
import Phrasebook.Value
import Phrasebook.Proofs.Run.Endings
import Phrasebook.Proofs.Template.Leftmost
import Phrasebook.Proofs.Template.Order
import Phrasebook.Proofs.Template.Substitution
import Phrasebook.Proofs.Resolution.SinglePass
import Phrasebook.Proofs.Resolution.Containment
import Phrasebook.Proofs.Resolution.Search
import Phrasebook.Proofs.Resolution.Breaks
import Phrasebook.Proofs.Resolution.FailFast
import Phrasebook.Proofs.Resolution.Transparency
import Phrasebook.Proofs.Resolution.Fuel
import Phrasebook.Proofs.Resolution.Occurrences
import Phrasebook.Proofs.Resolution.Depth
import Phrasebook.Proofs.Resolution.Chains
import Phrasebook.Proofs.Resolution.Constancy
import Phrasebook.Proofs.Catalog.Entries
import Phrasebook.Proofs.Catalog.Writing
import Phrasebook.Proofs.Resolution.Commitment
import Phrasebook.Proofs.Resolution.Ladder
import Phrasebook.Proofs.Catalog.Paths
import Phrasebook.Proofs.Catalog.Merging
import Phrasebook.Proofs.Catalog.History
import Phrasebook.Proofs.Json.Grammar
import Phrasebook.Proofs.Json.Completeness
import Phrasebook.Proofs.Template.Brackets
import Phrasebook.Proofs.Template.InlineOptions
import Phrasebook.Proofs.Json.Integers
import Phrasebook.Proofs.Template.Filling
import Phrasebook.Proofs.Resolution.InlineValues
import Phrasebook.Proofs.Options.Merging
import Phrasebook.Proofs.Plural.Forms
import Phrasebook.Proofs.Catalog.Leaves
import Phrasebook.Proofs.Resolution.Repetitions
import Phrasebook.Proofs.Key.Splitting
import Phrasebook.Proofs.Resolution.Qualification
import Phrasebook.Proofs.Locale.Tags
import Phrasebook.Proofs.Markup.Entities
import Phrasebook.Proofs.Template.Closing
import Phrasebook.Proofs.Template.Stretches
import Phrasebook.Proofs.Text.Trimming
import Phrasebook.Proofs.Catalog.Lookups
