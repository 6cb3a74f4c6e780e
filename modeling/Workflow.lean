import Workflow.Activity.Schedule
import Workflow.Api.Application
import Workflow.Expense
import Workflow.Hook.Script
import Workflow.Json.Printer
import Workflow.Proofs.Api.Answered
import Workflow.Proofs.Api.CopyOnWrite
import Workflow.Proofs.Api.Refusals
import Workflow.Proofs.Document.Faithful
import Workflow.Proofs.Engine.Aborted
import Workflow.Proofs.Engine.Linear
import Workflow.Proofs.Engine.Listed
import Workflow.Proofs.Engine.Notified
import Workflow.Proofs.Engine.Sound
import Workflow.Proofs.Engine.Starts
import Workflow.Proofs.Engine.Told
import Workflow.Proofs.Engine.Undisturbed
import Workflow.Proofs.Expense.Application
import Workflow.Proofs.Graph.Coloured
import Workflow.Proofs.Graph.Drawing
import Workflow.Proofs.Registry.Catalogue
import Workflow.Proofs.Registry.Refused
import Workflow.Proofs.Registry.Versions
import Workflow.Proofs.Run.Acyclic
import Workflow.Proofs.Run.Answered
import Workflow.Proofs.Run.AtRest
import Workflow.Proofs.Run.Crossing
import Workflow.Proofs.Run.ExactLog
import Workflow.Proofs.Run.Fates
import Workflow.Proofs.Run.Foretold
import Workflow.Proofs.Run.Found
import Workflow.Proofs.Run.Origins
import Workflow.Proofs.Run.Replay
import Workflow.Proofs.Run.Sorted
import Workflow.Proofs.Run.Stopped
import Workflow.Proofs.Run.Truncated
import Workflow.Proofs.Schedule.Paired
