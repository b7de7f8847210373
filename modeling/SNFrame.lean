import SNFrame.Library.Transition
import SNFrame.Receive.Refinement
import SNFrame.System.Reconnect
import SNFrame.System.Wakeup
import SNFrame.Receive.RoundTrip
import SNFrame.Send.SendStream
import SNFrame.Receive.Callback
import SNFrame.Receive.Promptness
import SNFrame.Receive.Termination
import SNFrame.Base.BufferCustody
import SNFrame.System.Jobs
import SNFrame.System.Scaling
import SNFrame.System.NodeTable
import SNFrame.System.Returns
import SNFrame.System.Authentication
import SNFrame.System.Failures
import SNFrame.Receive.ReceiveInvariant
import SNFrame.System.FirstBytes
import SNFrame.Receive.Placement
import SNFrame.Send.Routing
import SNFrame.Send.Preference
import SNFrame.Send.Classification
import SNFrame.System.Identity
import SNFrame.System.Schedule
import SNFrame.Send.Blocking
import SNFrame.Receive.Dispatch
import SNFrame.System.Periods
import SNFrame.System.Ticks
import SNFrame.System.Sharing
import SNFrame.Base.ErrorDetection
import SNFrame.Base.ConfigGrammar
import SNFrame.Base.ConfigBounds
import SNFrame.Core.NodeId
import SNFrame.System.Configuration
import SNFrame.System.Notification
import SNFrame.System.Retry
import SNFrame.System.Discovery
import SNFrame.Receive.Parcels
import SNFrame.System.Delivery
import SNFrame.System.Processes
import SNFrame.System.Requests
import SNFrame.System.Traffic
import SNFrame.System.Exchange
import SNFrame.System.Correspondence
import SNFrame.System.Coverage
import SNFrame.System.Circuit
import SNFrame.System.Agreement
import SNFrame.System.Admission
import SNFrame.Library.Incremental
import SNFrame.RedisClient.Reader
import SNFrame.RedisClient.Decoder
import SNFrame.RedisClient.Feeding
import SNFrame.RedisClient.Builder
import SNFrame.RedisClient.Protocol
import SNFrame.RedisClient.Command
import SNFrame.RedisClient.Client
import SNFrame.Library.Effort
import SNFrame.System.Draining
