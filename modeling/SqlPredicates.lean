import SqlPredicates.Visit
import SqlPredicates.CommandLine
import SqlPredicates.Main
import SqlPredicates.Proofs.NodeOrder
import SqlPredicates.Proofs.Rule.Inference
import SqlPredicates.Proofs.Rule.Typing
import SqlPredicates.Proofs.Rule.TypeSoundness
import SqlPredicates.Proofs.Like.Matching
import SqlPredicates.Proofs.Reading
import SqlPredicates.Proofs.Rule.Erasure
import SqlPredicates.Proofs.Rule.Spelling
import SqlPredicates.Proofs.Rule.ParserSoundness
import SqlPredicates.Proofs.Rule.ParserCompleteness
import SqlPredicates.Proofs.Token.Cuts
import SqlPredicates.Proofs.Rule.CanonicalText
import SqlPredicates.Proofs.Rule.Grammar
import SqlPredicates.Proofs.Search.Meaning
import SqlPredicates.Proofs.Binary64.ReadBack
import SqlPredicates.Proofs.Search.Shape
import SqlPredicates.Proofs.Search.Spelling
import SqlPredicates.Proofs.Search.ParserCompleteness
import SqlPredicates.Proofs.Search.CanonicalText
import SqlPredicates.Proofs.Search.Height
import SqlPredicates.Proofs.Search.Grammar
import SqlPredicates.Proofs.Outcome
import SqlPredicates.Proofs.Heights
import SqlPredicates.Proofs.Comparison
import SqlPredicates.Proofs.Rule.Comparison
import SqlPredicates.Proofs.Search.Comparison
import SqlPredicates.Proofs.Layout
import SqlPredicates.Proofs.Refusal
import SqlPredicates.Proofs.Rule.Viability
import SqlPredicates.Proofs.Search.Viability
import SqlPredicates.Proofs.FirstFault
import SqlPredicates.Proofs.Text.Slices
import SqlPredicates.Proofs.Token.Gaps
import SqlPredicates.Proofs.Token.LongestMatch
import SqlPredicates.Proofs.Token.Coverage
import SqlPredicates.Proofs.Token.Slices
import SqlPredicates.Proofs.Rule.Places
import SqlPredicates.Proofs.Search.Places
import SqlPredicates.Proofs.Places
import SqlPredicates.Proofs.Token.Composition
import SqlPredicates.Proofs.Rule.CanonicalMeaning
import SqlPredicates.Proofs.Rule.InferredTypes
import SqlPredicates.Proofs.Rule.FalseAlarms
import SqlPredicates.Proofs.Rule.NameResolution
import SqlPredicates.Proofs.Rule.AcceptedRules
import SqlPredicates.Proofs.Rule.CheckerReuse
import SqlPredicates.Proofs.Rule.UnknownTypes
import SqlPredicates.Proofs.Nesting
import SqlPredicates.Proofs.Moving
import SqlPredicates.Proofs.Position
import SqlPredicates.Proofs.Calls
import SqlPredicates.Proofs.Reuse
import SqlPredicates.Proofs.Traversal
import SqlPredicates.Proofs.NestedLists
import SqlPredicates.Proofs.Rule.Outline
import SqlPredicates.Proofs.Search.Outline
import SqlPredicates.Proofs.Outline
import SqlPredicates.Proofs.Loading
import SqlPredicates.Proofs.NameChecks
import SqlPredicates.Proofs.Token.Faults
import SqlPredicates.Proofs.ErrorPlaces
import SqlPredicates.Proofs.Diagnostics
import SqlPredicates.Proofs.Text.Words
import SqlPredicates.Proofs.Rule.Arithmetic
import SqlPredicates.Proofs.Search.Algebra
import SqlPredicates.Proofs.Search.Preservation
import SqlPredicates.Proofs.Search.Passages
import SqlPredicates.Proofs.Search.Proximity
import SqlPredicates.Proofs.Text.Case
import SqlPredicates.Proofs.Like.Predicates
import SqlPredicates.Proofs.Like.Length
import SqlPredicates.Proofs.Rule.Substrings
import SqlPredicates.Proofs.Lines
import SqlPredicates.Proofs.Caret
import SqlPredicates.Proofs.Text.Order
import SqlPredicates.Proofs.RulesByKind
