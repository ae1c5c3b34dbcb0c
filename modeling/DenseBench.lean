import DenseBench.Calendar.Date
import DenseBench.Calendar.Timestamp
import DenseBench.CommandLine
import DenseBench.Csv
import DenseBench.Decimal.Binary64
import DenseBench.Decimal.Layout
import DenseBench.Decimal.Reading
import DenseBench.Decimal.Shortest
import DenseBench.Double
import DenseBench.ElementType
import DenseBench.Engine
import DenseBench.Engine.Elimination
import DenseBench.Engine.Schedule
import DenseBench.Error
import DenseBench.FileTree
import DenseBench.Json.Decode
import DenseBench.Json.Found
import DenseBench.Json.Lexeme
import DenseBench.Json.Printer
import DenseBench.Main
import DenseBench.NDArray
import DenseBench.Proofs.Elimination.Steps
import DenseBench.Proofs.Schedule
import DenseBench.Random.Cipher
import DenseBench.Random.Source
import DenseBench.Run.Bench
import DenseBench.Run.Config
import DenseBench.Run.Host
import DenseBench.Run.HostFacts
import DenseBench.Run.Machine
import DenseBench.Run.Record
import DenseBench.Run.Stopwatch
import DenseBench.Scalar
import DenseBench.Settings.Environment
import DenseBench.Settings.File
import DenseBench.Settings.Load
import DenseBench.Settings.LogFilter
import DenseBench.Settings.Tree
import DenseBench.SymbolTable
import DenseBench.Text.Character
import DenseBench.Text.Numeral
import DenseBench.Toml.Document
import DenseBench.Toml.Lexeme
import DenseBench.Toml.Literal
import DenseBench.Ufunc
import DenseBench.Ufunc.Operand
import DenseBench.Ufunc.ScalarOp
import DenseBench.Workload
import DenseBench.Proofs.Elimination.Buffer
import DenseBench.Proofs.Elimination.Outcome
import DenseBench.Proofs.Elimination.Factors
import DenseBench.Proofs.Engine.Elementwise
import DenseBench.Proofs.Engine.Fill
import DenseBench.Proofs.Reduction
import DenseBench.Proofs.Run.Agreement
import DenseBench.Proofs.Run.Repeatable
import DenseBench.Proofs.Double.Bits
import DenseBench.Proofs.Run.Seeds
import DenseBench.Proofs.Run.Options
import DenseBench.Proofs.Run.Replay
import DenseBench.Proofs.Double.Parts
import DenseBench.Proofs.Double.Saturation
import DenseBench.Proofs.Double.Coercion
import DenseBench.Proofs.Guarded.Buffer
import DenseBench.Proofs.Guarded.Elimination
import DenseBench.Proofs.Guarded.Factors
import DenseBench.Proofs.Session
import DenseBench.Proofs.Calendar.Date
import DenseBench.Proofs.FileTree
import DenseBench.Proofs.Calendar.Timestamp
import DenseBench.Proofs.Json.Lexeme
import DenseBench.Proofs.Json.Printed
import DenseBench.Proofs.Run.Document
import DenseBench.Proofs.Csv
import DenseBench.Proofs.Run.Table
import DenseBench.Proofs.Run.Report
import DenseBench.Proofs.Run.Outputs
import DenseBench.Proofs.Run.Stage
import DenseBench.Proofs.Run.Aftermath
import DenseBench.Proofs.Settings.Chosen
import DenseBench.Proofs.Settings.Layers
import DenseBench.Proofs.Text.ByteOrder
import DenseBench.Proofs.SymbolTable
import DenseBench.Proofs.Elimination.Minors
import DenseBench.Proofs.Elimination.Unique
import DenseBench.Proofs.Run.Timing
import DenseBench.Proofs.Elimination.Recurrence
import DenseBench.Proofs.Elimination.Leading
import DenseBench.Proofs.Guarded.Pool
import DenseBench.Proofs.Double.Number
import DenseBench.Proofs.Engine.Reduce
import DenseBench.Proofs.Double.Order
import DenseBench.Proofs.Double.SingleOrder
import DenseBench.Proofs.Double.Projection
import DenseBench.Proofs.Double.Sample
import DenseBench.Proofs.Random.Samples
import DenseBench.Proofs.Engine.Position
import DenseBench.Proofs.Ufunc
import DenseBench.Proofs.Run.Estimate
import DenseBench.Proofs.Traversal
import DenseBench.Proofs.Text.Grammar
import DenseBench.Proofs.Run.SizeGrammar
import DenseBench.Proofs.Run.Precedence
import DenseBench.Proofs.Double.Word
import DenseBench.Proofs.Settings.Variable
import DenseBench.Proofs.Settings.Guess
import DenseBench.Proofs.Settings.SeedVariable
import DenseBench.Proofs.Settings.OutputVariable
import DenseBench.Proofs.Random.UnitInterval
import DenseBench.Proofs.ElementType
import DenseBench.Proofs.NDArray.Reordered
import DenseBench.Proofs.NDArray.Zeros
