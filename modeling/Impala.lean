import Impala.Exec.HashTable.Basic
import Impala.Exec.HashTable.Probe
import Impala.Exec.HashTable.Insert
import Impala.Exec.HashTable.Invariant
import Impala.Exec.HashTable.Iterator
import Impala.Exec.HashTable.Lookup
import Impala.Exec.HashTable.Unmatched
import Impala.Exec.BlockingPlanRootSink.Basic
import Impala.Exec.BlockingPlanRootSink.Delivery
import Impala.Exec.BlockingPlanRootSink.Wakeup
import Impala.Exec.BlockingPlanRootSink.ResultSets
import Impala.Exec.BlockingPlanRootSink.Cancel
import Impala.Scheduling.ClusterMembership.Basic
import Impala.Scheduling.ClusterMembership.Update
import Impala.Scheduling.ClusterMembership.Consistency
import Impala.Scheduling.ClusterMembership.Publication
import Impala.Scheduling.ClusterMembership.Replay
import Impala.Scheduling.ClusterMembership.Recovery
import Impala.Scheduling.ClusterMembership.Coherence
import Impala.Scheduling.ClusterMembership.LocalBackend
import Impala.Scheduling.ClusterMembership.Callbacks
import Impala.Scheduling.ClusterMembership.Blacklisting
import Impala.Analysis.TimeTravelSpec
