import Backtrace.Text
import Backtrace.Json.Node
import Backtrace.Json.Number
import Backtrace.Json.Reader
import Backtrace.Json.Writer
import Backtrace.Json.Decode
import Backtrace.TypeRef
import Backtrace.Method
import Backtrace.Trace.Json
import Backtrace.Method.Table
import Backtrace.Method.Origin
import Backtrace.Resolved
import Backtrace.Render
import Backtrace.Markup.Processor
import Backtrace.Trace
import Backtrace.Text.Literal
import Backtrace.Symbol.Legacy
import Backtrace.Symbol.V0.Printer
import Backtrace.Trace.Load
import Backtrace.Command.Request
import Backtrace.Command.Surroundings
import Backtrace.Command.Run
import Backtrace.Main
import Backtrace.Proofs.Markup.LineGrammar
import Backtrace.Proofs.Trace.FinalText
import Backtrace.Proofs.Trace.Unmarked
import Backtrace.Proofs.Trace.Boundary
import Backtrace.Proofs.Markup.AppendedTexts
import Backtrace.Proofs.Method.LinkedTable
import Backtrace.Proofs.Resolver.Transparency
import Backtrace.Proofs.Trace.Causes
import Backtrace.Proofs.Cache.Fifo
import Backtrace.Proofs.Method.MachineNames
import Backtrace.Proofs.Trace.Messages
import Backtrace.Proofs.Trace.Numbering
import Backtrace.Proofs.Render.TupleNames
import Backtrace.Proofs.Render.SplitTexts
import Backtrace.Proofs.Method.MemberKinds
import Backtrace.Proofs.Json.Written
import Backtrace.Proofs.Json.Retold
import Backtrace.Proofs.Json.Told
import Backtrace.Proofs.TypeRef.Json
import Backtrace.Proofs.Method.Json
import Backtrace.Proofs.Trace.Json
import Backtrace.Proofs.Markup.BoundaryLines
import Backtrace.Proofs.Markup.NestedTags
import Backtrace.Proofs.Method.Sources
import Backtrace.Proofs.Resolver.Stripped
import Backtrace.Proofs.Method.WellFormed
import Backtrace.Proofs.TypeRef.FullNames
import Backtrace.Proofs.Outcomes
import Backtrace.Proofs.Trace.Loading
import Backtrace.Proofs.Method.GenericArguments
import Backtrace.Proofs.Options
import Backtrace.Proofs.Command.Silence
