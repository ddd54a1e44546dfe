import Relational.Command.Basic
import Relational.Compiler.Basic
import Relational.Eval.Basic
import Relational.Expr.Equality
import Relational.Main
import Relational.Proofs.NumberOrder
import Relational.Proofs.ValueOrder
import Relational.Proofs.Compositional
import Relational.Proofs.Fuel
import Relational.Proofs.Navigation
import Relational.Proofs.Parts
import Relational.Proofs.FreeNames
import Relational.Proofs.OrderedMap
import Relational.Proofs.OrderedSet
import Relational.Proofs.Hereditary
import Relational.Proofs.SafeRun
import Relational.Proofs.Steps
import Relational.Proofs.Invariant
import Relational.Proofs.Lowered
import Relational.Proofs.LooseNames
import Relational.Proofs.ScopeSafety
import Relational.Proofs.Termination
import Relational.Proofs.WellFormed
import Relational.Proofs.Slices
import Relational.Proofs.Totality
import Relational.Proofs.Placement
import Relational.Proofs.Shape
import Relational.Proofs.Destructuring
import Relational.Proofs.Likeness
import Relational.Proofs.Lockstep
import Relational.Proofs.Correspondence
import Relational.Proofs.Simulation
import Relational.Proofs.Pairing
import Relational.Proofs.Relevance
import Relational.Proofs.Quiet
import Relational.Proofs.Parentheses
import Relational.Proofs.Identities
import Relational.Proofs.Recursion
import Relational.Proofs.RecursiveTuple
import Relational.Proofs.Pairs
import Relational.Proofs.Sides
import Relational.Proofs.SideBySide
import Relational.Proofs.Relabel
import Relational.Proofs.TwoRuns
import Relational.Proofs.Session
import Relational.Proofs.Isolation
import Relational.Proofs.TagOrder
import Relational.Proofs.Latch
import Relational.Proofs.Quoting
import Relational.Proofs.Escapes
import Relational.Proofs.Sourced
import Relational.Proofs.Equality
import Relational.Proofs.Places
import Relational.Proofs.EqualExpressions
import Relational.Proofs.DocumentGrammar
import Relational.Proofs.DocumentWriting
import Relational.Proofs.Extensionality
import Relational.Proofs.Location
import Relational.Proofs.Paths
import Relational.Proofs.LocalImports
import Relational.Proofs.OperatorChains
import Relational.Proofs.ComparisonChains
import Relational.Proofs.SafeTails
import Relational.Proofs.Inquiry
import Relational.Proofs.PatternVariables
import Relational.Proofs.ArrayLengths
import Relational.Proofs.SetPatterns
import Relational.Proofs.Choices
import Relational.Proofs.SetAlgebra
import Relational.Proofs.Inclusions
import Relational.Proofs.PowerSet
import Relational.Proofs.Nesting
import Relational.Proofs.Concatenation
import Relational.Proofs.CommandLine
import Relational.Proofs.Spelling
import Relational.Proofs.Homomorphisms
import Relational.Proofs.Covering
import Relational.Proofs.BranchSpans
import Relational.Proofs.SpanMaking
import Relational.Proofs.Positions
