import Tinyim.Transition
import Tinyim.Checked
import Tinyim.Sharding
import Tinyim.OrderedMap
import Tinyim.Idgen.LevelDb
import Tinyim.Idgen.Grants
import Tinyim.Idgen.Ranges
import Tinyim.Idgen.FailedCall
import Tinyim.Idgen.Service
import Tinyim.Dbproxy.LastSendRecord
import Tinyim.Dbproxy.NewestRecord
import Tinyim.Logic.SendtoPeers
import Tinyim.Logic.Participants
import Tinyim.Logic.Failures
import Tinyim.Logic.PushRouting
import Tinyim.Dbproxy.SessionReplies
import Tinyim.Delivery.World
import Tinyim.Delivery.Moves
import Tinyim.Delivery.Frame
import Tinyim.Delivery.Invariants
import Tinyim.Delivery.LastSendCache
import Tinyim.Delivery.FailedSaves
import Tinyim.Delivery.Agreement
import Tinyim.Delivery.ShortCircuit
import Tinyim.Delivery.Contract
import Tinyim.Delivery.SenderFirst
import Tinyim.Delivery.PushedCopies
import Tinyim.Delivery.Acknowledgement
import Tinyim.Delivery.Retry
import Tinyim.Delivery.Numbering
import Tinyim.Delivery.Order
import Tinyim.Delivery.Gaps
import Tinyim.Delivery.PushOrder
import Tinyim.Delivery.IdReplies
import Tinyim.Delivery.Routing
import Tinyim.Delivery.Exactness
import Tinyim.Delivery.Progress
import Tinyim.Access.Service
import Tinyim.Access.Moves
import Tinyim.Access.Completion
import Tinyim.Access.Watch
import Tinyim.Access.TimerOwnership
import Tinyim.Access.Eviction
import Tinyim.Access.Pushes
import Tinyim.Access.Unrun
import Tinyim.Access.Shutdown
import Tinyim.Presence
import Tinyim.CmdClient.ClientTime
import Tinyim.CmdClient.Heartbeat
import Tinyim.CmdClient.Command
import Tinyim.Util.ConsistentHash
import Tinyim.Util.Describe
import Tinyim.Access.FlatTable
import Tinyim.FlatTables
import Tinyim.SendLoop
import Tinyim.Mailbox
import Tinyim.Delivery.Mailboxes
import Tinyim.Delivery.PushOnce
import Tinyim.PushNetwork
import Tinyim.LockedSections
import Tinyim.Idgen.Locked
import Tinyim.EndToEnd
import Tinyim.ExpiringRegisters
import Tinyim.Dbproxy.Keyspace
import Tinyim.Delivery.Recovery
import Tinyim.Logic.Stepwise
import Tinyim.Delivery.Executions
import Tinyim.Idgen.TextStore
import Tinyim.Delivery.Databases
import Tinyim.Access.Deadlines
