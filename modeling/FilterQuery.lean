import FilterQuery.Bench
import FilterQuery.Config.Read
import FilterQuery.Journal
import FilterQuery.Node.Clause
import FilterQuery.Node.Walk
import FilterQuery.Proofs.Config.Validation
import FilterQuery.Proofs.Node.Benches
import FilterQuery.Proofs.Node.Visiting
import FilterQuery.Proofs.Operator.Symbols
import FilterQuery.Proofs.Query.Composition
import FilterQuery.Proofs.Query.Conservation
import FilterQuery.Proofs.Query.Expression
import FilterQuery.Proofs.Query.Extension
import FilterQuery.Proofs.Query.Nesting
import FilterQuery.Proofs.Query.Rereading
import FilterQuery.Proofs.Query.RoundTrip
import FilterQuery.Proofs.Query.Spacing
import FilterQuery.Proofs.Query.Stopping
import FilterQuery.Proofs.Query.Substitution
import FilterQuery.Proofs.Token.Failures
import FilterQuery.Proofs.Token.Literals
import FilterQuery.Proofs.Token.Lossless
import FilterQuery.Proofs.Token.Munch
import FilterQuery.Proofs.Token.Quoting
import FilterQuery.Proofs.Token.Splitting
import FilterQuery.Sketch
import FilterQuery.Token.Pattern
