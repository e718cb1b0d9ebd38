import RespMux.Command
import RespMux.PriorityQueue.Callers
import RespMux.Session
import RespMux.Proofs.Alignment
import RespMux.Proofs.Delivery
import RespMux.Proofs.Routing
import RespMux.Proofs.Reading.Truncation
import RespMux.Proofs.Reading.Termination
import RespMux.Proofs.Switches
import RespMux.Proofs.Encoding
import RespMux.Proofs.Lifecycle
import RespMux.Proofs.Queue.History
import RespMux.Proofs.Queue.Desk
import RespMux.Proofs.Store.Dealings
import RespMux.Proofs.Closing
import RespMux.Proofs.Abort
import RespMux.Proofs.Handover
import RespMux.Proofs.RawChoices
import RespMux.Proofs.Engine.Collecting
import RespMux.Proofs.Account
import RespMux.Proofs.Submission
import RespMux.Proofs.Choices
import RespMux.Proofs.Arrays
import RespMux.Proofs.Traffic
import RespMux.Proofs.Usage
import RespMux.Proofs.Arguments
