import Descent.Collection.Lookahead
import Descent.Collection.OrderedMap
import Descent.Collection.Stack
import Descent.Collection.Window
import Descent.Text.LineIndex
import Descent.Text.Numeral
import Descent.Unicode.Folding
import Descent.Token.Scanner
import Descent.Grammar.Document
import Descent.Rule.Compilation
import Descent.Tree.Arena
import Descent.Language
import Descent.Proofs.Collection.Window
import Descent.Proofs.Collection.Cursor
import Descent.Proofs.Search.Derivation
import Descent.Proofs.Search.Unification
import Descent.Proofs.Search.Move
import Descent.Proofs.Search.Beginning
import Descent.Proofs.Search.Path
import Descent.Proofs.Search.Steps
import Descent.Proofs.Search.FirstDerivation
import Descent.Proofs.Search.Soundness
import Descent.Proofs.Search.Reached
import Descent.Proofs.Search.MoreRules
import Descent.Proofs.Search.Failing
import Descent.Proofs.Search.Termination
import Descent.Proofs.Search.WholeText
import Descent.Proofs.Text.Utf8
import Descent.Proofs.Text.Cut
import Descent.Proofs.Text.Position
import Descent.Proofs.Text.Excerpt
import Descent.Proofs.Pattern.Front
import Descent.Proofs.Pattern.Boundary
import Descent.Proofs.Token.Items
import Descent.Proofs.Token.Ending
import Descent.Proofs.Token.Declared
import Descent.Proofs.Token.Matches
import Descent.Proofs.Token.Tiling
import Descent.Proofs.Token.SpacePath
import Descent.Proofs.Token.Maker
import Descent.Proofs.Rule.Course
import Descent.Proofs.Rule.Making
import Descent.Proofs.Rule.Invariant
import Descent.Proofs.Rule.NodeNames
import Descent.Proofs.Rule.Expression
import Descent.Proofs.Rule.Meaning
import Descent.Proofs.Rule.Phrase
import Descent.Proofs.Rule.WellFormed
import Descent.Proofs.Rule.Appended
import Descent.Proofs.Rule.Compiled
import Descent.Proofs.Rule.Generation
import Descent.Proofs.Rule.Balance
import Descent.Proofs.Rule.Closed
import Descent.Proofs.Rule.Origin
import Descent.Proofs.Rule.NodeSequences
import Descent.Proofs.Rule.MarkedRules
import Descent.Proofs.Tree.Bracketed
import Descent.Proofs.Tree.Leaves
import Descent.Proofs.Tree.KeptTokens
import Descent.Proofs.Tree.Expected
import Descent.Proofs.Tree.Nodes
import Descent.Proofs.Tree.MarkedNodes
import Descent.Proofs.Tree.Independence
import Descent.Proofs.Tree.OneMoreRule
import Descent.Proofs.Search.SideBySide
import Descent.Proofs.Search.Visited
import Descent.Proofs.Search.Furthest
import Descent.Proofs.Search.Uses
import Descent.Proofs.Search.Scope
import Descent.Proofs.Search.Agenda
import Descent.Proofs.Search.Resumption
import Descent.Proofs.Search.Brackets
import Descent.Proofs.Search.Innermost
import Descent.Proofs.Tree.Contents
import Descent.Proofs.Tree.Counted
import Descent.Proofs.Search.Recorded
import Descent.Proofs.Tree.Noted
import Descent.Proofs.Tree.Spaced
import Descent.Proofs.Tree.Placed
import Descent.Proofs.Tree.Neighbours
import Descent.Proofs.Tree.Held
import Descent.Proofs.Tree.Linked
import Descent.Proofs.Tree.WellLinked
import Descent.Proofs.Unicode.Intervals
import Descent.Proofs.Unicode.Variants
import Descent.Proofs.Pattern.Members
import Descent.Proofs.Pattern.Composition
import Descent.Proofs.Pattern.Ways
import Descent.Proofs.Pattern.Runs
import Descent.Proofs.Pattern.Choice
import Descent.Proofs.Pattern.Leaves
import Descent.Proofs.Pattern.Alternatives
import Descent.Proofs.Pattern.Seam
import Descent.Proofs.Pattern.BracketSeam
import Descent.Proofs.Pattern.Splice
import Descent.Proofs.Pattern.Reading
import Descent.Proofs.Pattern.Engine
import Descent.Proofs.Token.Dialect
import Descent.Proofs.Grammar.Instructions
import Descent.Proofs.Grammar.Skips
import Descent.Proofs.Grammar.Lines
import Descent.Proofs.Grammar.Lookahead
