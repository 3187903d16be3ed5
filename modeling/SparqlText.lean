import SparqlText.Results.Document
import SparqlText.Session
import SparqlText.Template
import SparqlText.Proofs.Arrow.Reading
import SparqlText.Proofs.Graph.Flatten
import SparqlText.Proofs.Session.Safety
import SparqlText.Proofs.Value.Tokens
import SparqlText.Proofs.Graph.Forest
import SparqlText.Proofs.Graph.Triples
import SparqlText.Proofs.Session.Failure
import SparqlText.Proofs.Session.Rendering
import SparqlText.Proofs.Term.Grammar
import SparqlText.Proofs.Term.Shape
import SparqlText.Proofs.Binary64.Rounding
import SparqlText.Proofs.Binary64.ReadBack
import SparqlText.Proofs.Results.RoundTrip
import SparqlText.Proofs.Calendar.Days
import SparqlText.Proofs.Timestamp.ReadBack
import SparqlText.Proofs.Results.Instants
import SparqlText.Proofs.Graph.Nulls
import SparqlText.Proofs.Description.Grammar
import SparqlText.Proofs.Description.Reading
import SparqlText.Proofs.Graph.Predicates
import SparqlText.Proofs.Graph.Renumbering
import SparqlText.Proofs.Graph.Grouping
import SparqlText.Proofs.Session.Accumulation
import SparqlText.Proofs.Session.Interleaving
import SparqlText.Proofs.Graph.Expansion
import SparqlText.Proofs.Value.Defects
import SparqlText.Proofs.Literal.Delimited
import SparqlText.Proofs.Value.Clean
import SparqlText.Proofs.Digest.Naming
import SparqlText.Proofs.Term.Normal
import SparqlText.Proofs.Description.Written
import SparqlText.Proofs.Graph.Recursion
import SparqlText.Proofs.Term.Keys
import SparqlText.Proofs.Session.Keys
import SparqlText.Proofs.Arrow.Safety
import SparqlText.Proofs.Template.Splicing
import SparqlText.Proofs.Timestamp.Forms
import SparqlText.Proofs.Session.Describing
import SparqlText.Proofs.Arrow.Rendering
import SparqlText.Proofs.Results.Integers
import SparqlText.Proofs.Results.Reencoding
import SparqlText.Proofs.Pattern.Lines
