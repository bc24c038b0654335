import Mlvpn.Buffer.Fifo
import Mlvpn.Buffer.Freebuffer
import Mlvpn.Buffer.Pktbuffer
import Mlvpn.Config.Entries
import Mlvpn.Config.File
import Mlvpn.Config.General
import Mlvpn.Config.Lines
import Mlvpn.Config.Load
import Mlvpn.Config.Outcome
import Mlvpn.Config.Plan
import Mlvpn.Config.Process
import Mlvpn.Config.Reload
import Mlvpn.Config.Restart
import Mlvpn.Config.Roundtrip
import Mlvpn.Config.SectionOrder
import Mlvpn.Config.Spacing
import Mlvpn.Config.Text
import Mlvpn.Config.Unchanged
import Mlvpn.Control.Bounds
import Mlvpn.Control.Client
import Mlvpn.Control.Descriptors
import Mlvpn.Control.Formats
import Mlvpn.Control.Framing
import Mlvpn.Control.Outcome
import Mlvpn.Control.Reading
import Mlvpn.Control.Status
import Mlvpn.Control.Stream
import Mlvpn.Control.WriteBuffer
import Mlvpn.Crypto
import Mlvpn.Daemon.Acts
import Mlvpn.Daemon.Address
import Mlvpn.Daemon.Balance
import Mlvpn.Daemon.Bypass
import Mlvpn.Daemon.Cargo
import Mlvpn.Daemon.Counters
import Mlvpn.Daemon.Device
import Mlvpn.Daemon.Estimates
import Mlvpn.Daemon.Farewell
import Mlvpn.Daemon.Frames
import Mlvpn.Daemon.Gate
import Mlvpn.Daemon.Handshake
import Mlvpn.Daemon.Keepalives
import Mlvpn.Daemon.Links
import Mlvpn.Daemon.Loop
import Mlvpn.Daemon.Moves
import Mlvpn.Daemon.Nonces
import Mlvpn.Daemon.Order
import Mlvpn.Daemon.References
import Mlvpn.Daemon.Reports
import Mlvpn.Daemon.Resolution
import Mlvpn.Daemon.Rotation
import Mlvpn.Daemon.RoundRobin
import Mlvpn.Daemon.Scripts
import Mlvpn.Daemon.Sends
import Mlvpn.Daemon.Shipping
import Mlvpn.Daemon.Silence
import Mlvpn.Daemon.Sockets
import Mlvpn.Daemon.State
import Mlvpn.Daemon.Status
import Mlvpn.Daemon.Strokes
import Mlvpn.Daemon.Table
import Mlvpn.Daemon.Timers
import Mlvpn.Daemon.Tolerance
import Mlvpn.Daemon.Transit
import Mlvpn.Daemon.Wakeup
import Mlvpn.Daemon.Weights
import Mlvpn.Library.Bytes
import Mlvpn.Library.Countdown
import Mlvpn.Library.Dispatch
import Mlvpn.Library.History
import Mlvpn.Library.Json
import Mlvpn.Library.Ledger
import Mlvpn.Library.Lines
import Mlvpn.Library.Loop
import Mlvpn.Library.Machine
import Mlvpn.Library.MaskedRing
import Mlvpn.Library.Printf
import Mlvpn.Library.Program
import Mlvpn.Library.Registry
import Mlvpn.Library.Word
import Mlvpn.Packet
import Mlvpn.Privsep.Acts
import Mlvpn.Privsep.Exchange
import Mlvpn.Privsep.Parent
import Mlvpn.Privsep.Privilege
import Mlvpn.Privsep.Scripts
import Mlvpn.Privsep.Serving
import Mlvpn.Privsep.Stubs
import Mlvpn.Receive.Delivery
import Mlvpn.Receive.Device
import Mlvpn.Receive.Ledger
import Mlvpn.Receive.Path
import Mlvpn.Receive.Pending
import Mlvpn.Receive.Pool
import Mlvpn.Receive.Provenance
import Mlvpn.Receive.Sorting
import Mlvpn.Reorder.Addressing
import Mlvpn.Reorder.Buffer
import Mlvpn.Reorder.Conservation
import Mlvpn.Reorder.Interleaving
import Mlvpn.Reorder.Ledger
import Mlvpn.Reorder.Refinement
import Mlvpn.Reorder.Rings
import Mlvpn.Reorder.Span
import Mlvpn.Reorder.Translation
import Mlvpn.Reorder.Window
import Mlvpn.Tunnel.Link
import Mlvpn.Tunnel.LossWindow
import Mlvpn.Tunnel.Quiet
import Mlvpn.Tunnel.State
import Mlvpn.Wire.Framing
import Mlvpn.Wire.Integrity
import Mlvpn.Wire.Proto
import Mlvpn.Wire.Roundtrip
import Mlvpn.Wire.Timestamps
