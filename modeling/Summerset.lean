import Summerset.Utils.Bitmap
import Summerset.Utils.BitmapSet
import Summerset.Utils.BitmapConv
import Summerset.Server.Types
import Summerset.Protocols.Name
import Summerset.CRaft.Leadership
import Summerset.CRaft.RoleMachine
import Summerset.CRaft.SyncOrder
import Summerset.CRaft.Election
import Summerset.CRaft.Trace
import Summerset.MultiPaxos.Request
import Summerset.MultiPaxos.Batch
import Summerset.MultiPaxos.LeaderLease
import Summerset.MultiPaxos.LeaderRun
import Summerset.Raft.Execution
import Summerset.Client.Bench
