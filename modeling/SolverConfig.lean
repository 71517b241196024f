import SolverConfig.Number.Literal
import SolverConfig.Tree.Equality
import SolverConfig.Json.Value
import SolverConfig.Json.Writer
import SolverConfig.Toml.Document
import SolverConfig.Factory.Binding
import SolverConfig.Factory.Equality
import SolverConfig.Parse.Basic
import SolverConfig.CommandLine
import SolverConfig.Main
import SolverConfig.Proofs.Basic
import SolverConfig.Proofs.Tables
import SolverConfig.Proofs.Vocabularies
import SolverConfig.Proofs.Reading
import SolverConfig.Proofs.Acceptance
import SolverConfig.Proofs.Descent
import SolverConfig.Proofs.Configuration
import SolverConfig.Proofs.Inheritance
import SolverConfig.Proofs.Idempotence
import SolverConfig.Proofs.Binding
import SolverConfig.Proofs.Agreement
import SolverConfig.Proofs.Pruning
import SolverConfig.Proofs.Warnings
import SolverConfig.Proofs.Reordering
import SolverConfig.Proofs.Json.Integers
import SolverConfig.Proofs.Extension
import SolverConfig.Proofs.Registration
import SolverConfig.Proofs.Json.Agreement
import SolverConfig.Proofs.Json.Numerals
import SolverConfig.Proofs.Json.RoundTrip
import SolverConfig.Proofs.Faults
import SolverConfig.Proofs.Detection
import SolverConfig.Proofs.Errors
import SolverConfig.Proofs.ConcreteKinds
import SolverConfig.Proofs.Sharing
import SolverConfig.Proofs.CustomBuilders
import SolverConfig.Proofs.Spellings
import SolverConfig.Proofs.CommandLine
import SolverConfig.Proofs.RowMajor
import SolverConfig.Proofs.TreeEquality
import SolverConfig.Proofs.BuilderEquality
import SolverConfig.Proofs.Rebinding
import SolverConfig.Proofs.SingleObjects
import SolverConfig.Proofs.Rounding
import SolverConfig.Proofs.DoubleRounding
import SolverConfig.Proofs.Conversion
import SolverConfig.Proofs.Json.RepeatedKeys
