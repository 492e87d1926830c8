import Nfs3.File.Naming
import Nfs3.File.Listing
import Nfs3.File.Data
import Nfs3.File.Volume
import Nfs3.Rpc.Message
import Nfs3.Rpc.Program
import Nfs3.Mount
import Nfs3.Text.Utf8
import Nfs3.Text.Quoted
import Nfs3.MessageBuffer
import Nfs3.Net.AddressPool
import Nfs3.Duration
import Nfs3.Rpc.Call
import Nfs3.Rpc.Record
import Nfs3.Procedures
import Nfs3.Client.Schedule
import Nfs3.Client.Playback
import Nfs3.Client.Session
import Nfs3.FileTime
import Nfs3.Exchange.Operation
import Nfs3.Proofs.BigEndian
import Nfs3.Proofs.Client.Mounting
import Nfs3.Proofs.Client.Retry
import Nfs3.Proofs.Client.Sends
import Nfs3.Proofs.Client.Escalation
import Nfs3.Proofs.Rpc.Marshalling
import Nfs3.Proofs.Rpc.Fragments
import Nfs3.Proofs.Rpc.Framing
import Nfs3.Proofs.Rpc.CallForm
import Nfs3.Proofs.Rpc.ReplyHead
import Nfs3.Proofs.Wire.BufferRun
import Nfs3.Proofs.Wire.Canonical
import Nfs3.Proofs.Wire.Catalogue
import Nfs3.Proofs.Wire.File
import Nfs3.Proofs.Client.Run
import Nfs3.Proofs.Client.Answer
import Nfs3.Proofs.Client.Calls
import Nfs3.Proofs.Client.Handshake
import Nfs3.Proofs.Rpc.PlainForm
import Nfs3.Proofs.Client.CallBytes
import Nfs3.Proofs.Client.HandshakeFailure
import Nfs3.Proofs.Rpc.FileCall
import Nfs3.Proofs.Client.StaleRoot
import Nfs3.Proofs.Client.Interleaving
import Nfs3.Proofs.Client.Watched
import Nfs3.Proofs.Client.RefreshProtocol
import Nfs3.Proofs.Client.Concurrency
import Nfs3.Proofs.Client.SharedRefresh
import Nfs3.Proofs.Client.Scheduling
import Nfs3.Proofs.Client.CallHead
import Nfs3.Proofs.Client.CallRecord
import Nfs3.Proofs.Client.HandshakeOrder
import Nfs3.Proofs.Client.Timeline
import Nfs3.Proofs.Client.RequestOrder
import Nfs3.Proofs.Client.Attempts
import Nfs3.Proofs.Net.AddressPool
import Nfs3.Proofs.Client.Stages
import Nfs3.Proofs.Client.Portmap
import Nfs3.Proofs.Client.Budget
import Nfs3.Proofs.Client.Lookups
import Nfs3.Proofs.Client.Routing
import Nfs3.Proofs.Client.Affinity
import Nfs3.Proofs.Client.Paths
import Nfs3.Proofs.Client.SharedLookups
import Nfs3.Proofs.Wire.Truncation
import Nfs3.Proofs.Wire.FieldForms
import Nfs3.Proofs.Rpc.WriteForm
import Nfs3.Proofs.Client.Restart
import Nfs3.Proofs.Wire.Finalizing
import Nfs3.Proofs.Rpc.UnixCredential
import Nfs3.Proofs.Client.Pauses
import Nfs3.Proofs.Client.Tracking
import Nfs3.Proofs.Wire.Skipping
import Nfs3.Proofs.ExportPath
import Nfs3.Proofs.FileTime
