import SqlSelect.Builder.Call
import SqlSelect.Execution.Layer
import SqlSelect.Execution.Stats
import SqlSelect.Json.Interchange
import SqlSelect.Query.Equal
import SqlSelect.Proofs.Placement
import SqlSelect.Proofs.Binding
import SqlSelect.Proofs.Growth
import SqlSelect.Proofs.Account
import SqlSelect.Proofs.Arguments
import SqlSelect.Proofs.Numeral
import SqlSelect.Proofs.Phrase
import SqlSelect.Proofs.Scan
import SqlSelect.Proofs.Lexer
import SqlSelect.Proofs.Lexing
import SqlSelect.Proofs.Comments
import SqlSelect.Proofs.Injection
import SqlSelect.Proofs.Reader
import SqlSelect.Proofs.Tokens
import SqlSelect.Proofs.Reading
import SqlSelect.Proofs.Cursor
import SqlSelect.Proofs.Distinct
import SqlSelect.Proofs.Refinement
import SqlSelect.Proofs.Sources
import SqlSelect.Proofs.Validity
import SqlSelect.Proofs.Lineage
import SqlSelect.Proofs.OuterWords
import SqlSelect.Proofs.Paging
import SqlSelect.Proofs.Topics
import SqlSelect.Proofs.Bundles
import SqlSelect.Proofs.Rearrangement
import SqlSelect.Proofs.JoinKinds
import SqlSelect.Proofs.Forks
import SqlSelect.Proofs.Layers
import SqlSelect.Proofs.OpenSlots
import SqlSelect.Proofs.Collation
import SqlSelect.Proofs.Quotation
import SqlSelect.Proofs.LeftOver
import SqlSelect.Proofs.Outline
import SqlSelect.Proofs.Embedding
import SqlSelect.Proofs.Acceptance
import SqlSelect.Proofs.Metering
import SqlSelect.Proofs.Clipping
import SqlSelect.Proofs.Fragments
