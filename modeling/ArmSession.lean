import ArmSession.Config
import ArmSession.ConfigFile
import ArmSession.ControlLoop
import ArmSession.Digits
import ArmSession.Double
import ArmSession.Duration
import ArmSession.Failure
import ArmSession.Fault
import ArmSession.Library
import ArmSession.Link
import ArmSession.Log
import ArmSession.Mode
import ArmSession.Motion
import ArmSession.Negotiation
import ArmSession.Net.Address
import ArmSession.Net.Datagrams
import ArmSession.Net.Host
import ArmSession.Net.Io
import ArmSession.Net.NetworkLink
import ArmSession.Net.Resolve
import ArmSession.Net.Stream
import ArmSession.NetworkSession
import ArmSession.Phase
import ArmSession.Proofs.Accounts
import ArmSession.Proofs.Admission
import ArmSession.Proofs.Bursts
import ArmSession.Proofs.Calls
import ArmSession.Proofs.Checks
import ArmSession.Proofs.CommandCodec
import ArmSession.Proofs.CommandMessage
import ArmSession.Proofs.CommandParts
import ArmSession.Proofs.ConfigFiles
import ArmSession.Proofs.Conformance
import ArmSession.Proofs.Course
import ArmSession.Proofs.Establishment
import ArmSession.Proofs.FirstFailure
import ArmSession.Proofs.HeaderChecks
import ArmSession.Proofs.Intake
import ArmSession.Proofs.Interruptions
import ArmSession.Proofs.Layout
import ArmSession.Proofs.LibraryCalls
import ArmSession.Proofs.LibraryHandles
import ArmSession.Proofs.LinkChanges
import ArmSession.Proofs.Lockstep
import ArmSession.Proofs.MessageLanguage
import ArmSession.Proofs.Operations
import ArmSession.Proofs.PeerFilter
import ArmSession.Proofs.Periods
import ArmSession.Proofs.PlainLines
import ArmSession.Proofs.Preconditions
import ArmSession.Proofs.ReadAhead
import ArmSession.Proofs.Readings
import ArmSession.Proofs.RealtimePorts
import ArmSession.Proofs.ReceiveTime
import ArmSession.Proofs.Reconnecting
import ArmSession.Proofs.Rehearsals
import ArmSession.Proofs.RunEvents
import ArmSession.Proofs.ScriptedRun
import ArmSession.Proofs.ServiceFraming
import ArmSession.Proofs.ServiceReading
import ArmSession.Proofs.SessionOrder
import ArmSession.Proofs.SignificantBits
import ArmSession.Proofs.SingleReads
import ArmSession.Proofs.StateCodec
import ArmSession.Proofs.StateMessage
import ArmSession.Proofs.StateStream
import ArmSession.Proofs.Stretch
import ArmSession.Proofs.Termination
import ArmSession.Proofs.Traced
import ArmSession.Proofs.Traffic
import ArmSession.Proofs.TypedCalls
import ArmSession.Proofs.WireValues
import ArmSession.Reading
import ArmSession.Realtime
import ArmSession.Receiver
import ArmSession.RobotCommand
import ArmSession.RobotState
import ArmSession.ScriptedLink
import ArmSession.Session
import ArmSession.Toml.Document
import ArmSession.Toml.Number
import ArmSession.Toml.Scalar
import ArmSession.Toml.Text
import ArmSession.Toml.Value
import ArmSession.TypedControl
import ArmSession.Wire.Bytes
import ArmSession.Wire.Error
import ArmSession.Wire.Flags
import ArmSession.Wire.Handshake
import ArmSession.Wire.Header
import ArmSession.Wire.Kind
import ArmSession.Wire.Sizes
