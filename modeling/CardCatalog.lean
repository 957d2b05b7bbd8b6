import CardCatalog.Text.Case
import CardCatalog.Text.Scan
import CardCatalog.Dict
import CardCatalog.Query.Compile
import CardCatalog.Json
import CardCatalog.Collection.Settings
import CardCatalog.Search
import CardCatalog.Report
import CardCatalog.Command.FileTree
import CardCatalog.Command.Run
import CardCatalog.Main
import CardCatalog.Proofs.Index.Latest
import CardCatalog.Proofs.Index.Postings
import CardCatalog.Proofs.Index.Meaning
import CardCatalog.Proofs.Dict
import CardCatalog.Proofs.Index.Hits
import CardCatalog.Proofs.Query.Shape
import CardCatalog.Proofs.Index.Reachable
import CardCatalog.Proofs.Collection.Valid
import CardCatalog.Proofs.Index.Session
import CardCatalog.Proofs.Index.Refinement
import CardCatalog.Proofs.Index.Search
import CardCatalog.Proofs.Text.Scan
import CardCatalog.Proofs.Text.Stripped
import CardCatalog.Proofs.Query.Reading
import CardCatalog.Proofs.Query.Markers
import CardCatalog.Proofs.Text.Joined
import CardCatalog.Proofs.Query.Item
import CardCatalog.Proofs.Query.ItemYears
import CardCatalog.Proofs.Query.Segments
import CardCatalog.Proofs.Query.ItemScopes
import CardCatalog.Proofs.Query.ItemPhrases
import CardCatalog.Proofs.Query.RoundTrip
import CardCatalog.Proofs.Index.History
import CardCatalog.Proofs.Index.Upkeep
import CardCatalog.Proofs.Index.Ranking
import CardCatalog.Proofs.Index.Window
import CardCatalog.Proofs.Search.Run
import CardCatalog.Proofs.Search.Pages
import CardCatalog.Proofs.Link
import CardCatalog.Proofs.Collection.Accepted
import CardCatalog.Proofs.Search.Following
import CardCatalog.Proofs.Text.Case
import CardCatalog.Proofs.Text.Parted
import CardCatalog.Proofs.Index.Runs
import CardCatalog.Proofs.Query.Quotation
import CardCatalog.Proofs.Search.Verbatim
import CardCatalog.Proofs.Query.Standing
import CardCatalog.Proofs.Query.Keyword
import CardCatalog.Proofs.Index.Spelling
import CardCatalog.Proofs.Suggestion
import CardCatalog.Proofs.Search.Suggestions
import CardCatalog.Proofs.Query.Columns
import CardCatalog.Proofs.Search.Faults
import CardCatalog.Proofs.Text.Spacing
import CardCatalog.Proofs.Query.Phrases
import CardCatalog.Proofs.Query.PhraseSpacing
import CardCatalog.Proofs.Query.Content
import CardCatalog.Proofs.Query.Vocabulary
import CardCatalog.Proofs.Query.ScopeSpacing
import CardCatalog.Proofs.Query.Sense
import CardCatalog.Proofs.Search.Narrowing
import CardCatalog.Proofs.Query.Respacing
import CardCatalog.Proofs.Search.Dated
import CardCatalog.Proofs.Search.Selections
import CardCatalog.Proofs.Index.Reopening
import CardCatalog.Proofs.Index.Archive
import CardCatalog.Proofs.Command.FileTree
import CardCatalog.Proofs.Command.Intake
import CardCatalog.Proofs.Command.TakingIn
import CardCatalog.Proofs.Text.Gapped
import CardCatalog.Proofs.Query.Clean
import CardCatalog.Proofs.Query.WellFormed
import CardCatalog.Proofs.Query.Conjunction
import CardCatalog.Proofs.Search.Typeable
import CardCatalog.Proofs.Search.Navigation
import CardCatalog.Proofs.Query.Blanks
import CardCatalog.Proofs.Query.Pairing
import CardCatalog.Proofs.Query.EveryField
import CardCatalog.Proofs.Query.Unbroken
import CardCatalog.Proofs.Text.Division
import CardCatalog.Proofs.Query.YearDivision
import CardCatalog.Proofs.Paging
import CardCatalog.Proofs.Rewriting
import CardCatalog.Proofs.Candidates
import CardCatalog.Proofs.Index.EditDistance
import CardCatalog.Proofs.Index.Vocabulary
import CardCatalog.Proofs.Index.Nearest
import CardCatalog.Proofs.Collection.Dates
import CardCatalog.Proofs.Index.Stored
import CardCatalog.Proofs.Index.Markup
import CardCatalog.Proofs.Index.Highlight
import CardCatalog.Proofs.Search.Highlights
import CardCatalog.Proofs.Collection.Settings
import CardCatalog.Proofs.Collection.Sorting
import CardCatalog.Proofs.Search.QueryString
