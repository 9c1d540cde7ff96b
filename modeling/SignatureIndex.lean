import SignatureIndex.Main
import SignatureIndex.World.Edit
import SignatureIndex.Proofs.Outcomes
import SignatureIndex.Proofs.NamesInOrder
import SignatureIndex.Proofs.Extension
import SignatureIndex.Proofs.Resolution
import SignatureIndex.Proofs.Stages
import SignatureIndex.Proofs.Histories
import SignatureIndex.Proofs.Following
import SignatureIndex.Proofs.Scanning
import SignatureIndex.Proofs.Ends
import SignatureIndex.Proofs.Refusals
import SignatureIndex.Proofs.Stops
import SignatureIndex.Proofs.Expansion
import SignatureIndex.Proofs.Course
import SignatureIndex.Proofs.Lexemes
import SignatureIndex.Proofs.Characters
import SignatureIndex.Proofs.QuotedParts
import SignatureIndex.Proofs.Stillness
import SignatureIndex.Proofs.Likeness
import SignatureIndex.Proofs.LikeSignatures
import SignatureIndex.Proofs.OpaqueTokens
import SignatureIndex.Proofs.Contexts
import SignatureIndex.Proofs.Opacity
import SignatureIndex.Proofs.AlikeWorlds
import SignatureIndex.Proofs.Rewriting
import SignatureIndex.Proofs.LineEnds
import SignatureIndex.Proofs.Positions
import SignatureIndex.Proofs.CommentText
import SignatureIndex.Proofs.Adjacency
import SignatureIndex.Proofs.Places
import SignatureIndex.Proofs.Passages
import SignatureIndex.Proofs.Printing
import SignatureIndex.Proofs.Unfolding
import SignatureIndex.Proofs.InclusionForms
import SignatureIndex.Proofs.Pasting
import SignatureIndex.Proofs.Hindrances
import SignatureIndex.Proofs.Terminators
import SignatureIndex.Proofs.FirstFaults
import SignatureIndex.Proofs.Invocations
import SignatureIndex.Proofs.Verbosity
import SignatureIndex.Proofs.Rows
import SignatureIndex.Proofs.Unread
import SignatureIndex.Proofs.Reports
import SignatureIndex.Proofs.Printouts
import SignatureIndex.Proofs.Loading
import SignatureIndex.Proofs.CommandFaults
import SignatureIndex.Proofs.Quotations
import SignatureIndex.Proofs.Signs
import SignatureIndex.Proofs.Heads
import SignatureIndex.Proofs.Arguments
import SignatureIndex.Proofs.Nesting
import SignatureIndex.Proofs.QuotedNames
import SignatureIndex.Proofs.VariableRuns
import SignatureIndex.Proofs.Folding
import SignatureIndex.Proofs.Parentheses
import SignatureIndex.Proofs.Overrides
import SignatureIndex.Proofs.Numerals
import SignatureIndex.Proofs.References
import SignatureIndex.Proofs.Operators
import SignatureIndex.Proofs.DisplayedLines
import SignatureIndex.Proofs.Carets
import SignatureIndex.Proofs.CatalogDocuments
import SignatureIndex.Proofs.SettingsDocuments
import SignatureIndex.Proofs.Seeding
import SignatureIndex.Proofs.SearchOrder
import SignatureIndex.Proofs.Ancestors
import SignatureIndex.Proofs.Renderings
import SignatureIndex.Proofs.Completions
import SignatureIndex.Proofs.Unwinding
import SignatureIndex.Proofs.ScanReports
import SignatureIndex.Proofs.ClearedText
import SignatureIndex.Proofs.NumberedCharacters
import SignatureIndex.Proofs.BytePositions
