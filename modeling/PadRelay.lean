import PadRelay.ClientError
import PadRelay.Coder
import PadRelay.CommandLine.Grammar
import PadRelay.CommandLine.Host
import PadRelay.CommandLine.Join
import PadRelay.CommandLine.Server
import PadRelay.CommandLine.Tool
import PadRelay.Config.Basic
import PadRelay.Config.Client
import PadRelay.Config.Server
import PadRelay.Console.Allocation
import PadRelay.Console.Basic
import PadRelay.Document
import PadRelay.Emulator
import PadRelay.Enumeration
import PadRelay.FrameQueue
import PadRelay.Game.Basic
import PadRelay.Game.Buttons
import PadRelay.Game.Inbound
import PadRelay.Game.Start
import PadRelay.Ids
import PadRelay.Listener
import PadRelay.Lobby
import PadRelay.Mailroom
import PadRelay.Main
import PadRelay.Member
import PadRelay.Message.Basic
import PadRelay.Message.Fields
import PadRelay.Message.Status
import PadRelay.Message.Text
import PadRelay.Net.Address
import PadRelay.Net.Endpoint
import PadRelay.Network
import PadRelay.Pad
import PadRelay.Port
import PadRelay.Proofs.Coder
import PadRelay.Proofs.Coder.Exact
import PadRelay.Proofs.Console.Allotment
import PadRelay.Proofs.Console.Members
import PadRelay.Proofs.Console.Ports
import PadRelay.Proofs.Console.SlowReader
import PadRelay.Proofs.Console.Treatment
import PadRelay.Proofs.FrameQueue
import PadRelay.Proofs.FrameQueue.Absorbed
import PadRelay.Proofs.FrameQueue.History
import PadRelay.Proofs.FrameQueue.LastFrame
import PadRelay.Proofs.FrameQueue.Views
import PadRelay.Proofs.Game.Acceptance
import PadRelay.Proofs.Game.Buttons
import PadRelay.Proofs.Game.Catching
import PadRelay.Proofs.Game.Delays
import PadRelay.Proofs.Game.FailedPut
import PadRelay.Proofs.Game.Joining
import PadRelay.Proofs.Game.LocalInput
import PadRelay.Proofs.Game.Reading
import PadRelay.Proofs.Game.RemoteReads
import PadRelay.Proofs.Game.Restart
import PadRelay.Proofs.Game.Runs
import PadRelay.Proofs.Game.Slots
import PadRelay.Proofs.Game.Start
import PadRelay.Proofs.Ids
import PadRelay.Proofs.Lobby.Basic
import PadRelay.Proofs.Lobby.Limit
import PadRelay.Proofs.Mailroom
import PadRelay.Proofs.Party.Agreement
import PadRelay.Proofs.Party.Basic
import PadRelay.Proofs.Party.Complete
import PadRelay.Proofs.Party.Flow
import PadRelay.Proofs.Party.Gathering
import PadRelay.Proofs.Party.Handshake
import PadRelay.Proofs.Party.Identity
import PadRelay.Proofs.Party.Moves
import PadRelay.Proofs.Party.Origins
import PadRelay.Proofs.Party.Play
import PadRelay.Proofs.Party.Reads
import PadRelay.Proofs.Party.Reception
import PadRelay.Proofs.Party.Schedule
import PadRelay.Proofs.Party.Seats
import PadRelay.Proofs.Party.Starting
import PadRelay.Proofs.Party.Stock
import PadRelay.Proofs.Party.Supply
import PadRelay.Proofs.Party.Turns
import PadRelay.Proofs.Server.Admission
import PadRelay.Proofs.Server.Anonymous
import PadRelay.Proofs.Server.Attendance
import PadRelay.Proofs.Server.Bindings
import PadRelay.Proofs.Server.Changes
import PadRelay.Proofs.Server.Claims
import PadRelay.Proofs.Server.Delivery
import PadRelay.Proofs.Server.Departed
import PadRelay.Proofs.Server.Directory
import PadRelay.Proofs.Server.FirstBinding
import PadRelay.Proofs.Server.GapFree
import PadRelay.Proofs.Server.Isolation
import PadRelay.Proofs.Server.KeyRelay
import PadRelay.Proofs.Server.Lagging
import PadRelay.Proofs.Server.Layout
import PadRelay.Proofs.Server.LifeCycle
import PadRelay.Proofs.Server.Numbering
import PadRelay.Proofs.Server.Operation
import PadRelay.Proofs.Server.Outset
import PadRelay.Proofs.Server.Players
import PadRelay.Proofs.Server.Plugging
import PadRelay.Proofs.Server.PortExclusivity
import PadRelay.Proofs.Server.Provenance
import PadRelay.Proofs.Server.Pump
import PadRelay.Proofs.Server.Readiness
import PadRelay.Proofs.Server.Refusal
import PadRelay.Proofs.Server.Register
import PadRelay.Proofs.Server.Relay
import PadRelay.Proofs.Server.Shutdown
import PadRelay.Proofs.Server.StartFirst
import PadRelay.Proofs.Server.Statuses
import PadRelay.Proofs.Server.StreamEnd
import PadRelay.Proofs.Server.Streams
import PadRelay.Proofs.Server.Traffic
import PadRelay.Proofs.Session.Entry
import PadRelay.Proofs.Session.Joining
import PadRelay.Proofs.Slots
import PadRelay.Proofs.SortedMap
import PadRelay.Proofs.TimingLog
import PadRelay.Proofs.TimingLog.Text
import PadRelay.Proofs.Toml.Line
import PadRelay.Proofs.Toml.Number
import PadRelay.Proofs.Toml.Rows
import PadRelay.Proofs.Wire.Fields
import PadRelay.Proofs.Wire.RoundTrip
import PadRelay.Rpc
import PadRelay.Server
import PadRelay.Session
import PadRelay.Slots
import PadRelay.SortedMap
import PadRelay.Text.Combining
import PadRelay.Text.Quoted
import PadRelay.Text.Unprintable
import PadRelay.TimingLog
import PadRelay.TimingLog.Text
import PadRelay.Toml.File
import PadRelay.Toml.Lexical
import PadRelay.Toml.Moment
import PadRelay.Toml.Number
import PadRelay.Toml.Quoted
import PadRelay.Toml.Tree
import PadRelay.Toml.Value
import PadRelay.Verbosity
import PadRelay.Wire.Codec
import PadRelay.Wire.Frame
import PadRelay.Wire.RawField
import PadRelay.Wire.Varint
import PadRelay.WorkerPool
