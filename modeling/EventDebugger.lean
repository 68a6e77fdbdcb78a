import EventDebugger.CommandLine
import EventDebugger.Condition
import EventDebugger.Config
import EventDebugger.Debugger.Sections
import EventDebugger.Kdl.Writer
import EventDebugger.Main
import EventDebugger.Program.Reading
import EventDebugger.Recording
import EventDebugger.Script.Execution
import EventDebugger.Script.Scopes
import EventDebugger.Proofs.Observation.Dump
import EventDebugger.Proofs.Renewal.Restart
import EventDebugger.Proofs.Replay.Portrait
import EventDebugger.Proofs.Schedule.Preparation
import EventDebugger.Proofs.Solo.Stepping
import EventDebugger.Proofs.Ticket.Finishing
import EventDebugger.Proofs.Ticket.Handling
import EventDebugger.Proofs.Ticket.Interrupting
import EventDebugger.Proofs.Ticket.Reasons
import EventDebugger.Proofs.Ticket.Restart
import EventDebugger.Proofs.Ticket.Restoration
import EventDebugger.Proofs.Ticket.Snapshots
import EventDebugger.Proofs.Ticket.Waking
import EventDebugger.Proofs.Ticket.EarlyCommands
import EventDebugger.Proofs.Ticket.Search
import EventDebugger.Proofs.Ticket.Progress
import EventDebugger.Proofs.Pursuit.Spent
import EventDebugger.Proofs.Ticket.LatestHalt
import EventDebugger.Proofs.Sections.Nesting
import EventDebugger.Proofs.Ticket.Returning
import EventDebugger.Proofs.Commands.Arguments
import EventDebugger.Proofs.Commands.Failures
import EventDebugger.Proofs.Ticket.DeadBindings
import EventDebugger.Proofs.Attribution.Dump
import EventDebugger.Proofs.Condition.Literals
import EventDebugger.Proofs.Host.Journal
import EventDebugger.Proofs.Production.Cleanup
import EventDebugger.Proofs.PostMortem.Dump
import EventDebugger.Proofs.Condition.Operands
import EventDebugger.Proofs.Condition.Copies
import EventDebugger.Proofs.Scope.Effects
import EventDebugger.Proofs.FileName.Components
import EventDebugger.Proofs.FileName.Bytes
import EventDebugger.Proofs.Condition.Values
import EventDebugger.Proofs.DebuggerThreads
import EventDebugger.Proofs.Ticket.Suspensions
import EventDebugger.Proofs.Ticket.Filings
