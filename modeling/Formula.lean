import Formula.Main
import Formula.Proofs.Graph.Calls
import Formula.Proofs.Graph.Compiled
import Formula.Proofs.Graph.Faults
import Formula.Proofs.Graph.Integers
import Formula.Proofs.Graph.Merging
import Formula.Proofs.Token.Tiling
import Formula.Proofs.Grammar.Lookup
import Formula.Proofs.Grammar.Registry
import Formula.Proofs.Grammar.Inputs
import Formula.Proofs.Literal
import Formula.Proofs.Grammar.Extending
import Formula.Proofs.Graph.Respelling
import Formula.Proofs.Token.Respelling
import Formula.Proofs.Grammar.Precedence
import Formula.Proofs.Graph.Passes
import Formula.Proofs.Token.Twins
import Formula.Proofs.Graph.Rereading
import Formula.Proofs.Graph.Regrouping
import Formula.Proofs.Phrase.Unknown
import Formula.Proofs.Token.Pointing
import Formula.Proofs.Token.Spacing
import Formula.Proofs.Grammar.Arranging
import Formula.Proofs.Phrase.Keeping
import Formula.Proofs.Phrase.Tables
import Formula.Proofs.Graph.Omitted
import Formula.Proofs.Literal.Parts
import Formula.Proofs.Literal.Reading
import Formula.Proofs.Numeric.Expansion
import Formula.Proofs.Token.Refusing
import Formula.Proofs.Graph.Values
import Formula.Proofs.Graph.Numbers
import Formula.Proofs.Numeric.Guard
import Formula.Proofs.Literal.Accepted
import Formula.Proofs.Literal.Longest
import Formula.Proofs.Grammar.Consistent
import Formula.Proofs.Postfix.Aligned
import Formula.Proofs.Postfix.Reports
