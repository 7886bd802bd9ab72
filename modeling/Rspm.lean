import Rspm.Lib.Machine
import Rspm.Lib.Monitor
import Rspm.Lib.Prog
import Rspm.Lib.Follow
import Rspm.Ws.State
import Rspm.Ws.Frame
import Rspm.Ws.StateCell
import Rspm.Ws.Ledger
import Rspm.Ws.Recovery
import Rspm.Ws.Frontier
import Rspm.Ws.Calls
import Rspm.Ws.Outcome
import Rspm.Ws.Order
import Rspm.Ws.Moves
import Rspm.Ws.Closure
import Rspm.Ws.Freshness
import Rspm.Ws.Provenance
import Rspm.Ws.Authority
import Rspm.Ws.Durability
import Rspm.Ws.Finalization
import Rspm.Ws.Publish
import Rspm.Ws.Acknowledge
import Rspm.Clob.Gate
import Rspm.Clob.Submission
import Rspm.Clob.Revocation
import Rspm.Clob.Sdk
import Rspm.Clob.Retry
import Rspm.Clob.Backoff
import Rspm.Clob.Error
import Rspm.Clob.Client
import Rspm.Clob.AtMostOnce
import Rspm.Clob.Indeterminate
import Rspm.Clob.Soundness
import Rspm.Clob.Stance
import Rspm.Clob.Latch
import Rspm.Clob.Protocol
import Rspm.Clob.Custody
import Rspm.Clob.Agreement
import Rspm.Clob.Rearm
import Rspm.Clob.Cancellation
import Rspm.Clob.Stale
import Rspm.Auth.Decode
import Rspm.Auth.Channels
import Rspm.Lib.Custody
import Rspm.Ws.Retirement
import Rspm.Ws.Handover
import Rspm.Ws.Custody
import Rspm.Ws.Drain
import Rspm.Ws.Terminal
import Rspm.Lib.Intervals
import Rspm.Ws.Leftover
import Rspm.Ws.Pressure
import Rspm.Lib.Decoding
import Rspm.Ws.Batch
import Rspm.Ws.Delivery
import Rspm.Auth.Path
import Rspm.Auth.TradePage
import Rspm.Lib.Paging
import Rspm.Utils.Helpers
import Rspm.Clob.Positions
import Rspm.Clob.FeeMetadata
import Rspm.Lib.Serde
import Rspm.Lib.Digits
import Rspm.Utils.Canonical
import Rspm.Utils.Parse
import Rspm.Auth.Balance
import Rspm.Types.CanonicalU256
import Rspm.Lib.FixedPoint
import Rspm.Lib.Bounded
import Rspm.Fees
import Rspm.Ws.Admission
import Rspm.Ws.Stages
import Rspm.Ws.Retention
import Rspm.Ws.Trace
import Rspm.Ws.Owed
import Rspm.Ws.Passage
import Rspm.Ws.Lossless
import Rspm.Lib.Framing
import Rspm.Auth.Identity
import Rspm.Auth.OwnedPath
import Rspm.Ws.Live
import Rspm.Ws.Course
import Rspm.Ws.Turns
import Rspm.Ws.Pace
import Rspm.Ws.Heard
import Rspm.Lib.Rescaling
import Rspm.Lib.Hex
import Rspm.Sdk.OrderBuilder
import Rspm.Sdk.Quantities
import Rspm.Sdk.Signing
import Rspm.Lib.Expansion
import Rspm.Clob.Pinning
import Rspm.Lib.FormUrlEncoded
import Rspm.Auth.Requests
import Rspm.Auth.Client
import Rspm.Auth.Quoted
import Rspm.Lib.Fields
import Rspm.Ws.Wire
