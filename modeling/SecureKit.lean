import SecureKit.Cloud.Provisioning
import SecureKit.Proofs.Board.BusLock
import SecureKit.Proofs.Element.Transaction
import SecureKit.Proofs.Host.Inbox
import SecureKit.Proofs.Protocol.Grammar
import SecureKit.Proofs.Protocol.Response
import SecureKit.Proofs.Protocol.Tunnel
import SecureKit.Simulation.Bench
import SecureKit.Proofs.Element.Calls
import SecureKit.Proofs.Host.Report
import SecureKit.Proofs.Protocol.Dispatch
import SecureKit.Proofs.Protocol.Dialogue
import SecureKit.Proofs.Cloud.Session
import SecureKit.Proofs.Protocol.Status
import SecureKit.Proofs.Protocol.Isolation
import SecureKit.Proofs.Protocol.Effects
import SecureKit.Proofs.Cloud.Pacing
import SecureKit.Proofs.Cloud.Numbering
import SecureKit.Proofs.Fan.Window
import SecureKit.Proofs.Fan.Law
import SecureKit.Proofs.Element.Search
import SecureKit.Proofs.Protocol.Devices
import SecureKit.Proofs.Timing.Calendar
import SecureKit.Proofs.Protocol.Truncation
import SecureKit.Proofs.Protocol.SetTime
import SecureKit.Proofs.Cloud.Configure
import SecureKit.Proofs.Cloud.Delivery
import SecureKit.Proofs.Protocol.Forwarding
import SecureKit.Proofs.Protocol.Spelling
import SecureKit.Proofs.Peripheral.Script
import SecureKit.Proofs.Protocol.Resumed
import SecureKit.Proofs.Host.Retry
import SecureKit.Proofs.Element.Checksum
import SecureKit.Proofs.Timing.Countdown
import SecureKit.Proofs.Timing.Round
import SecureKit.Proofs.Timing.Timekeeping
import SecureKit.Proofs.Fan.SpeedMap
import SecureKit.Proofs.Cloud.Naming
import SecureKit.Proofs.Element.Stability
import SecureKit.Proofs.Element.PublicKey
import SecureKit.Proofs.Protocol.InPlace
