import Sessions.Attributes
import Sessions.Attributes.Sheet
import Sessions.Calendar
import Sessions.Call
import Sessions.Clock
import Sessions.Crowd
import Sessions.Engine
import Sessions.Engine.Background
import Sessions.Engine.Command
import Sessions.Engine.Run
import Sessions.Engine.Timer
import Sessions.Factory
import Sessions.Fault
import Sessions.Fault.Code
import Sessions.Files
import Sessions.Handle
import Sessions.Handle.Rehearsal
import Sessions.Host
import Sessions.Log
import Sessions.Log.Logger
import Sessions.Manager
import Sessions.Program
import Sessions.Proofs.Attributes.Contents
import Sessions.Proofs.Attributes.History
import Sessions.Proofs.Calendar.Days
import Sessions.Proofs.Calendar.Rendering
import Sessions.Proofs.Crowd.Exclusivity
import Sessions.Proofs.Crowd.Expiry
import Sessions.Proofs.Crowd.Protocol
import Sessions.Proofs.Engine.Background
import Sessions.Proofs.Engine.Chronicle
import Sessions.Proofs.Engine.Commands
import Sessions.Proofs.Engine.Conduct
import Sessions.Proofs.Engine.Faults
import Sessions.Proofs.Engine.History
import Sessions.Proofs.Engine.Ledger
import Sessions.Proofs.Engine.Logging
import Sessions.Proofs.Engine.Notices
import Sessions.Proofs.Engine.Passage
import Sessions.Proofs.Engine.Policy
import Sessions.Proofs.Engine.Population
import Sessions.Proofs.Engine.Precedence
import Sessions.Proofs.Engine.Timers
import Sessions.Proofs.Engine.Tracking
import Sessions.Proofs.Engine.Undisturbed
import Sessions.Proofs.Engine.View
import Sessions.Proofs.Handle.Absorption
import Sessions.Proofs.Handle.Coherence
import Sessions.Proofs.Handle.Frame
import Sessions.Proofs.Handle.Probe
import Sessions.Proofs.Handle.Replacement
import Sessions.Proofs.Host.Grammar
import Sessions.Proofs.Log.Influence
import Sessions.Proofs.Log.Levels
import Sessions.Proofs.Manager.Access
import Sessions.Proofs.Manager.Asking
import Sessions.Proofs.Manager.Conserving
import Sessions.Proofs.Manager.Failure
import Sessions.Proofs.Manager.Lookup
import Sessions.Proofs.Manager.Probe
import Sessions.Proofs.Manager.Prudence
import Sessions.Proofs.Manager.Refinement
import Sessions.Proofs.Manager.Reporting
import Sessions.Proofs.Manager.Room
import Sessions.Proofs.Manager.Service
import Sessions.Proofs.Manager.Session
import Sessions.Proofs.Manager.Setting
import Sessions.Proofs.Manager.Supervision
import Sessions.Proofs.Manager.Sweep
import Sessions.Proofs.Manager.Transparency
import Sessions.Proofs.Record.Effect
import Sessions.Proofs.Record.Guard
import Sessions.Proofs.Record.Idle
import Sessions.Proofs.Record.Life
import Sessions.Proofs.Record.Mapping
import Sessions.Proofs.Registry.Delivery
import Sessions.Proofs.Registry.Frame
import Sessions.Proofs.Settings.Environment
import Sessions.Proofs.Store.Accounting
import Sessions.Proofs.Store.Capacity
import Sessions.Proofs.Store.Contents
import Sessions.Proofs.Store.Eviction
import Sessions.Proofs.Store.Finality
import Sessions.Proofs.Store.Loading
import Sessions.Proofs.Store.Population
import Sessions.Proofs.Sweeper.Accounting
import Sessions.Proofs.Sweeper.Callers
import Sessions.Proofs.Sweeper.Loop
import Sessions.Proofs.Sweeper.Task
import Sessions.Proofs.Sweeper.Threads
import Sessions.Proofs.Text.Decimal
import Sessions.Proofs.Text.Numeral
import Sessions.Proofs.Text.Pieces
import Sessions.Record
import Sessions.Record.Sheet
import Sessions.Registry
import Sessions.Registry.Scene
import Sessions.Settings
import Sessions.Settings.Environment
import Sessions.Store
import Sessions.Store.Desk
import Sessions.Store.Persistence
import Sessions.Store.Roster
import Sessions.Sweeper
import Sessions.Sweeper.Owner
import Sessions.Sweeper.Traffic
import Sessions.Text
import Sessions.Text.Numeral
import Sessions.Text.Significant
import Sessions.Version
