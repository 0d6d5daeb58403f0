import CommandConsole.Interchange
import CommandConsole.Main
import CommandConsole.Proofs.CallSite.Innermost
import CommandConsole.Proofs.Field.Splitting
import CommandConsole.Proofs.Evaluation.Run
import CommandConsole.Proofs.Evaluation.WellFormed
import CommandConsole.Proofs.Literal.Asking
import CommandConsole.Proofs.Reduction.Pending
import CommandConsole.Proofs.Expression.Basic
import CommandConsole.Proofs.Expression.Reading
import CommandConsole.Proofs.Expression.Evaluation
import CommandConsole.Proofs.Reduction.Trail
import CommandConsole.Proofs.Evaluation.LiteralText
import CommandConsole.Proofs.Evaluation.CallNames
import CommandConsole.Proofs.Evaluation.Log
import CommandConsole.Proofs.Evaluation.Reports
import CommandConsole.Proofs.Evaluation.Length
import CommandConsole.Proofs.Evaluation.TextArguments
import CommandConsole.Proofs.Completion.Accepting
import CommandConsole.Proofs.Console.Changes
import CommandConsole.Proofs.Console.Reachable
import CommandConsole.Proofs.Console.SubmitTwice
import CommandConsole.Proofs.Console.Input
import CommandConsole.Proofs.Console.Draft
import CommandConsole.Proofs.Reduction.Waiting
import CommandConsole.Proofs.Transcript.Retention
import CommandConsole.Proofs.Transcript.Reading
import CommandConsole.Proofs.Transcript.Keeping
import CommandConsole.Proofs.History.IntegerCursor
import CommandConsole.Proofs.Registry.Resolution
import CommandConsole.Proofs.Receivers.Calls
import CommandConsole.Proofs.Console.Panel
import CommandConsole.Proofs.Console.RepeatedSubmit
import CommandConsole.Proofs.Registry.Registration
import CommandConsole.Proofs.Invocation.Dispatch
import CommandConsole.Proofs.Session.Frame
import CommandConsole.Proofs.Session.Closed
import CommandConsole.Proofs.Session.Turns
import CommandConsole.Proofs.Session.Printing
import CommandConsole.Proofs.CallSite.Locating
import CommandConsole.Proofs.Field.Joining
import CommandConsole.Proofs.Evaluation.QuickCommands
import CommandConsole.Proofs.Transcript.Fitting
import CommandConsole.Proofs.Invocation.Blind
import CommandConsole.Proofs.Evaluation.Tracing
import CommandConsole.Proofs.Literal.Grammar
import CommandConsole.Proofs.Literal.Integers
import CommandConsole.Proofs.Suggestions.Filtering
import CommandConsole.Proofs.Completion.Replacing
import CommandConsole.Proofs.Completion.LastOpen
import CommandConsole.Proofs.Help.Grouping
import CommandConsole.Proofs.Session.Forwarding
import CommandConsole.Proofs.Arena.Addition
import CommandConsole.Proofs.Arena.Health
import CommandConsole.Proofs.Toml.Documents
import CommandConsole.Proofs.Toml.InlineTables
import CommandConsole.Proofs.Json.Tokens
import CommandConsole.Proofs.Json.Numerals
import CommandConsole.Proofs.Files.Reading
