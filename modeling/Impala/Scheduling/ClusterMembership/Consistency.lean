import Impala.Scheduling.ClusterMembership.Update

/-! # What the groups and the blacklist of a snapshot say about its backends

`CheckConsistency` is the manager's own statement of how the executor groups relate to
`current_backends`; two more relations are stated here: every schedulable executor is in
the groups it names, and every backend the blacklist holds is a current backend.

The update branch of `UpdateMembership` reacts only to the quiescing edge, and it keys
`FindAndRemove` on the new descriptor. A backend re-registered under the same key with
other flags, or out of the blacklist, or at another address, leaves the groups and the
blacklist describing the old descriptor; the runs below, on a cluster of one coordinator
and one executor, break each relation.
-/

namespace Impala.Scheduling

/-- Whether some backend of the snapshot has this address. -/
def Snapshot.hasBackendAt (s : Snapshot) (address : NetworkAddress) : Bool :=
  s.currentBackends.any (·.2.address = address)

/-- Every executor in a group has the address of a current backend. -/
def Snapshot.groupMembersAreBackends (s : Snapshot) : Bool :=
  s.executorGroups.all fun group => group.executors.all (s.hasBackendAt ·.address)

/-- Every backend the blacklist holds has the address of a current backend. -/
def Snapshot.blacklistedAreBackends (s : Snapshot) : Bool :=
  s.executorBlacklist.all (s.hasBackendAt ·.beDesc.address)

/-- Every executor of `current_backends` that is neither quiescing nor blacklisted is, by
address, in each group it names. -/
def Snapshot.executorsInTheirGroups (s : Snapshot) : Bool :=
  s.currentBackends.all fun p =>
    !(p.2.isExecutor && !p.2.isQuiescing && !s.executorBlacklist.isBlacklisted p.2) ||
      p.2.executorGroups.all fun desc =>
        ((findExecutorGroup s.executorGroups desc.name).bind (·.lookUpBackendDesc p.2.address)).isSome

/-! ## A small cluster -/

namespace Demo

/-- A manager whose blacklist timeouts are 10 ms, then 100 ms on probation, with both
callbacks installed. -/
def config : Config :=
  ⟨"impalad-local", "impala-membership", true, ⟨fun _ => 10, fun _ => 100⟩, true, true⟩

def defaultGroup : ExecutorGroupDesc := ⟨"default", 1⟩

/-- The local backend: a coordinator that runs no executor. -/
def coordinator : BackendDescriptor := ⟨⟨"host-c", 27000⟩, "10.0.0.3", false, false, []⟩

def executorA : BackendDescriptor := ⟨⟨"host-a", 27000⟩, "10.0.0.1", true, false, [defaultGroup]⟩

def executorB : BackendDescriptor := ⟨⟨"host-b", 27000⟩, "10.0.0.2", true, false, [defaultGroup]⟩

def membershipUpdate (isDelta : Bool) (items : List TopicItem) : TopicDeltaMap :=
  [("impala-membership", ⟨"impala-membership", items, isDelta⟩)]

def register (key : String) (beDesc : BackendDescriptor) : TopicItem := ⟨key, some beDesc, false⟩

/-- The environment at time `now`, outside the grace period, with the coordinator up. -/
def env (now : Nat) : Env := ⟨some coordinator, false, now⟩

end Demo

namespace ClusterMembershipMgr

open Demo

/-- Re-registering executor `a` with `is_executor = false` leaves its old copy in the
default group: the published snapshot fails `CheckConsistency`. -/
theorem executor_flag_update_breaks_consistency :
    ∃ m, Reachable config m ∧ m.currentMembership.consistent = false :=
  reachable_of_run
    [.updateMembership (membershipUpdate true [register "a" executorA]) (env 0),
     .updateMembership (membershipUpdate true [register "a" { executorA with isExecutor := false }]) (env 1)]
    ⟨_, rfl, rfl⟩

/-- Blacklisting executor `a` takes it out of the default group; when the statestore
re-sends its descriptor, `FindAndRemove` takes it off the blacklist and nothing puts it
back in the group. -/
theorem resent_blacklisted_executor_leaves_groups :
    ∃ m, Reachable config m ∧ m.currentMembership.executorsInTheirGroups = false :=
  reachable_of_run
    [.updateMembership (membershipUpdate true [register "a" executorA]) (env 0),
     .blacklistExecutor executorA 1,
     .updateMembership (membershipUpdate true [register "a" executorA]) (env 2)]
    ⟨_, rfl, rfl⟩

/-- Key `a` moves from `host-a` to `host-b` while `host-a` is blacklisted: `FindAndRemove`
of the new descriptor misses the old entry, which outlives the backend, and once its
timeout passes, the maintenance of an empty delta puts `host-a` back in the default group. -/
theorem address_update_keeps_blacklist_entry :
    ∃ m, Reachable config m ∧ m.currentMembership.blacklistedAreBackends = false ∧
      m.currentMembership.groupMembersAreBackends = true ∧
      (updateMembership config m (membershipUpdate true []) (env 20)).1.currentMembership.groupMembersAreBackends = false :=
  reachable_of_run
    [.updateMembership (membershipUpdate true [register "a" executorA]) (env 0),
     .blacklistExecutor executorA 1,
     .updateMembership (membershipUpdate true [register "a" executorB]) (env 2)]
    ⟨_, rfl, rfl, rfl, rfl⟩

end ClusterMembershipMgr

end Impala.Scheduling
