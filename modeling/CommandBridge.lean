import CommandBridge.Bridge.Clocked
import CommandBridge.Config.Document
import CommandBridge.Scripted.Machine
import CommandBridge.Proofs.Input.Holds
import CommandBridge.Proofs.Session.Calculus
import CommandBridge.Proofs.Session.Tracking
import CommandBridge.Proofs.Bridge.Stages
import CommandBridge.Proofs.Bridge.Frames
import CommandBridge.Proofs.Memory.Writing
import CommandBridge.Proofs.Session.Admitted
import CommandBridge.Proofs.Bridge.Agreement
import CommandBridge.Proofs.Bridge.Courses
import CommandBridge.Proofs.Bridge.Outcomes
import CommandBridge.Proofs.Bridge.Loop
import CommandBridge.Proofs.Bridge.Simulation
import CommandBridge.Proofs.Bridge.Protection
import CommandBridge.Proofs.Queue.TicketRuns
import CommandBridge.Proofs.Queue.Traces
import CommandBridge.Proofs.Memory.Store
import CommandBridge.Proofs.Bridge.Sequential
import CommandBridge.Proofs.Session.Replay
import CommandBridge.Proofs.Bridge.Timelines
import CommandBridge.Proofs.Queue.Handovers
import CommandBridge.Proofs.Bridge.Accounts
import CommandBridge.Proofs.Bridge.Survival
import CommandBridge.Proofs.Config.RoundTrip
import CommandBridge.Proofs.Input.Operations
import CommandBridge.Proofs.Input.Laws
import CommandBridge.Proofs.Input.Reordering
import CommandBridge.Proofs.Memory.Interrupted
import CommandBridge.Proofs.Bridge.Failures
import CommandBridge.Proofs.Memory.Lookup
import CommandBridge.Proofs.Memory.WriteChecks
import CommandBridge.Proofs.Bridge.Latency
import CommandBridge.Proofs.Bridge.Chronicles
import CommandBridge.Proofs.Memory.Overlaps
import CommandBridge.Proofs.Session.Questions
import CommandBridge.Proofs.Session.Batches
import CommandBridge.Proofs.Bridge.Standstill
import CommandBridge.Proofs.Bridge.CutTicks
import CommandBridge.Proofs.Memory.Spelling
import CommandBridge.Proofs.Time.Conversion
