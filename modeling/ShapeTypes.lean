import ShapeTypes.Cardinality
import ShapeTypes.CommandLine.Outcome
import ShapeTypes.CommandLine.Request
import ShapeTypes.Compiler
import ShapeTypes.ConstraintStack
import ShapeTypes.Curie
import ShapeTypes.Default
import ShapeTypes.Inference.Alias
import ShapeTypes.Inference.Classification
import ShapeTypes.Inference.Error
import ShapeTypes.Inference.Infer
import ShapeTypes.Inference.Resolve
import ShapeTypes.Inference.State
import ShapeTypes.Keyed
import ShapeTypes.Main
import ShapeTypes.Name
import ShapeTypes.Numeric.Binary64
import ShapeTypes.Numeric.Binary64.Shortest
import ShapeTypes.Numeric.Decimal
import ShapeTypes.Numeric.Integer
import ShapeTypes.Numeric.Power
import ShapeTypes.Path
import ShapeTypes.Path.Reader
import ShapeTypes.Prefixes.Scan
import ShapeTypes.Prefixes.Table
import ShapeTypes.Proofs.Arena.Compact
import ShapeTypes.Proofs.Arena.Reachable
import ShapeTypes.Proofs.Arena.StructuralCycle
import ShapeTypes.Proofs.Cardinality
import ShapeTypes.Proofs.CardinalityText
import ShapeTypes.Proofs.Curie
import ShapeTypes.Proofs.CurieHistory
import ShapeTypes.Proofs.Default
import ShapeTypes.Proofs.Dot.Drawing
import ShapeTypes.Proofs.Dot.Reading
import ShapeTypes.Proofs.Except
import ShapeTypes.Proofs.Identifier
import ShapeTypes.Proofs.Inference.AliasChain
import ShapeTypes.Proofs.Inference.Alike
import ShapeTypes.Proofs.Inference.Answers
import ShapeTypes.Proofs.Inference.Bare
import ShapeTypes.Proofs.Inference.Checked
import ShapeTypes.Proofs.Inference.CompositeKind
import ShapeTypes.Proofs.Inference.Final
import ShapeTypes.Proofs.Inference.Growth
import ShapeTypes.Proofs.Inference.History
import ShapeTypes.Proofs.Inference.Indifferent
import ShapeTypes.Proofs.Inference.Lawful
import ShapeTypes.Proofs.Inference.Leaving
import ShapeTypes.Proofs.Inference.MemberScope
import ShapeTypes.Proofs.Inference.Naming
import ShapeTypes.Proofs.Inference.Nesting
import ShapeTypes.Proofs.Inference.Noninterference
import ShapeTypes.Proofs.Inference.ObjectTyping
import ShapeTypes.Proofs.Inference.Outcome
import ShapeTypes.Proofs.Inference.OwnScope
import ShapeTypes.Proofs.Inference.Plain
import ShapeTypes.Proofs.Inference.Reentry
import ShapeTypes.Proofs.Inference.Refusals
import ShapeTypes.Proofs.Inference.Run
import ShapeTypes.Proofs.Inference.Scope
import ShapeTypes.Proofs.Inference.StandIn
import ShapeTypes.Proofs.Inference.Strictness
import ShapeTypes.Proofs.Inference.Visit
import ShapeTypes.Proofs.Lookup
import ShapeTypes.Proofs.Name
import ShapeTypes.Proofs.NameLadder
import ShapeTypes.Proofs.NameRequests
import ShapeTypes.Proofs.Path.Decoding
import ShapeTypes.Proofs.Path.Encoding
import ShapeTypes.Proofs.Path.Ends
import ShapeTypes.Proofs.Path.Form
import ShapeTypes.Proofs.Path.Notation
import ShapeTypes.Proofs.Rdf.Collection
import ShapeTypes.Proofs.Rdf.Graph
import ShapeTypes.Proofs.Rdf.ListChain
import ShapeTypes.Proofs.Rdf.TermText
import ShapeTypes.Proofs.Rdf.Turtle.Directives
import ShapeTypes.Proofs.Rdf.Turtle.Lexemes
import ShapeTypes.Proofs.Rdf.Turtle.LineByLine
import ShapeTypes.Proofs.Rdf.Turtle.PlainDirective
import ShapeTypes.Proofs.Schema.Acceptance
import ShapeTypes.Proofs.Schema.Acyclic
import ShapeTypes.Proofs.Schema.AliasReplacement
import ShapeTypes.Proofs.Schema.ClosedArena
import ShapeTypes.Proofs.Schema.Coherence
import ShapeTypes.Proofs.Schema.Compaction
import ShapeTypes.Proofs.Schema.CompositeKind
import ShapeTypes.Proofs.Schema.CycleReport
import ShapeTypes.Proofs.Schema.Cycles
import ShapeTypes.Proofs.Schema.DeclaredProperties
import ShapeTypes.Proofs.Schema.Defaults
import ShapeTypes.Proofs.Schema.Described
import ShapeTypes.Proofs.Schema.Failure
import ShapeTypes.Proofs.Schema.Honesty
import ShapeTypes.Proofs.Schema.Inferred
import ShapeTypes.Proofs.Schema.MemberCardinality
import ShapeTypes.Proofs.Schema.NodeNames
import ShapeTypes.Proofs.Schema.Noninterference
import ShapeTypes.Proofs.Schema.ObjectTyping
import ShapeTypes.Proofs.Schema.OrderIndependence
import ShapeTypes.Proofs.Schema.OwnConstraints
import ShapeTypes.Proofs.Schema.Renaming
import ShapeTypes.Proofs.Schema.Settled
import ShapeTypes.Proofs.Schema.Strictness
import ShapeTypes.Proofs.Schema.Termination
import ShapeTypes.Proofs.Shape.Discovery
import ShapeTypes.Proofs.Shape.ListReading
import ShapeTypes.Proofs.Shape.LoadErrors
import ShapeTypes.Proofs.Shape.PropertyOrder
import ShapeTypes.Proofs.Shape.References
import ShapeTypes.Proofs.Shape.SameTriples
import ShapeTypes.Rdf.Collection
import ShapeTypes.Rdf.Graph
import ShapeTypes.Rdf.IriReference
import ShapeTypes.Rdf.LanguageTag
import ShapeTypes.Rdf.Term
import ShapeTypes.Rdf.Turtle.Character
import ShapeTypes.Rdf.Turtle.Document
import ShapeTypes.Rdf.Turtle.Source
import ShapeTypes.Rdf.Turtle.Token
import ShapeTypes.Rdf.Vocabulary
import ShapeTypes.Schema.Basic
import ShapeTypes.Schema.Dot
import ShapeTypes.Schema.ItemType
import ShapeTypes.Schema.Reachable
import ShapeTypes.Schema.StructuralCycle
import ShapeTypes.Schema.Text
import ShapeTypes.Shape.Basic
import ShapeTypes.Shape.Description
import ShapeTypes.Shape.LoadError
import ShapeTypes.Shape.Loader
import ShapeTypes.Shape.ShapesGraph
import ShapeTypes.Shape.Vocabulary
import ShapeTypes.Text.Hex
import ShapeTypes.Text.Hidden
import ShapeTypes.Text.Quoted
import ShapeTypes.Text.WordCharacter
import ShapeTypes.Proofs.Prefixes.Lines
import ShapeTypes.Proofs.Prefixes.Table
import ShapeTypes.Proofs.IntegerDefaults
import ShapeTypes.Proofs.ConstraintStack
import ShapeTypes.Proofs.Keyed
import ShapeTypes.Proofs.Shape.Additions
