import SchemaGo.Go.Section
import SchemaGo.Main
import SchemaGo.Proofs.Option.Idempotence
import SchemaGo.Proofs.Option.Permutation
import SchemaGo.Proofs.Option.UniformKeys
import SchemaGo.Proofs.Lower.Traversal
import SchemaGo.Proofs.Lower.Steps
import SchemaGo.Proofs.Lower.Flattening
import SchemaGo.Proofs.Comment.Render
import SchemaGo.Proofs.Option.Unwrap
import SchemaGo.Proofs.Lower.Location
import SchemaGo.Proofs.Lower.Lookup
import SchemaGo.Proofs.Lower.OptionMaps
import SchemaGo.Proofs.Path.FileTree
import SchemaGo.Proofs.Reading.Traced
import SchemaGo.Proofs.Reading.Load
import SchemaGo.Proofs.Reading.LoadDepth
import SchemaGo.Proofs.Reading.Lower
import SchemaGo.Proofs.Compile.Jobs
import SchemaGo.Proofs.Compile.Modes
import SchemaGo.Proofs.Compile.Failure
import SchemaGo.Proofs.Compile.Agreement
import SchemaGo.Proofs.Compile.Written
import SchemaGo.Proofs.Path.FileName
import SchemaGo.Proofs.Compile.Inside
import SchemaGo.Proofs.Comment.Store
import SchemaGo.Proofs.Option.Substitution
import SchemaGo.Proofs.Option.Entries
import SchemaGo.Proofs.Go.StructTag
import SchemaGo.Proofs.Wire.PlainDefault
import SchemaGo.Proofs.Wire.TagReading
import SchemaGo.Proofs.Lower.FieldTag
import SchemaGo.Proofs.Schema.Loading
import SchemaGo.Proofs.Compile.SchemaSet
import SchemaGo.Proofs.Lower.Position
import SchemaGo.Proofs.Lower.StructFields
import SchemaGo.Proofs.Compile.Pipelines
import SchemaGo.Proofs.Compile.Diagnostics
import SchemaGo.Proofs.Go.FieldCode
import SchemaGo.Proofs.Go.Imports
import SchemaGo.Proofs.Lower.FieldType
import SchemaGo.Proofs.Success
import SchemaGo.Proofs.Schema.Words
import SchemaGo.Proofs.Schema.SimpleNames
import SchemaGo.Proofs.Schema.Symbols
import SchemaGo.Proofs.Schema.References
import SchemaGo.Proofs.Lower.Naming
import SchemaGo.Proofs.Option.Positions
import SchemaGo.Proofs.Schema.UnusedImports
import SchemaGo.Proofs.Lower.FirstFault
import SchemaGo.Proofs.Schema.OwnName
import SchemaGo.Proofs.Comment.Directive
import SchemaGo.Proofs.Number.Numeral
import SchemaGo.Proofs.Number.Rounding
import SchemaGo.Proofs.Number.Shortest
import SchemaGo.Proofs.Option.Literal
import SchemaGo.Proofs.Wire.EscapeReading
import SchemaGo.Proofs.Wire.FloatLayout
import SchemaGo.Proofs.FirstByKey
import SchemaGo.Proofs.Compile.Dependencies
import SchemaGo.Proofs.Go.EnumTables
import SchemaGo.Proofs.Schema.SourceFaults
import SchemaGo.Proofs.Go.PackageName
