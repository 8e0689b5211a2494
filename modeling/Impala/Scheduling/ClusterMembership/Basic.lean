import Mathlib.Data.List.Basic

/-! # Cluster membership: descriptors, executor groups, the blacklist and snapshots

The data that `ClusterMembershipMgr` (scheduling/cluster-membership-mgr.cc) reads and
writes. A backend is described by the fields of `TBackendDescriptor` the manager reads; a
`Snapshot` holds the current backends by statestore key (`BackendIdMap`), the executor
groups by name, the executor blacklist and the local backend's descriptor.

Hash maps are association lists in iteration order. `ExecutorGroup` and
`ExecutorBlacklist` are implemented in executor-group.cc and executor-blacklist.cc, which
the excerpt does not contain; both are modelled from the spec, keyed by backend address.
-/

namespace Impala.Scheduling

structure NetworkAddress where
  hostname : String
  port : Nat
  deriving DecidableEq, Repr

/-- `TExecutorGroupDesc`: a group's name and the size below which it is unhealthy. -/
structure ExecutorGroupDesc where
  name : String
  minSize : Nat
  deriving DecidableEq, Repr

/-- The fields of `TBackendDescriptor` that the membership manager reads. -/
structure BackendDescriptor where
  address : NetworkAddress
  ipAddress : String
  isExecutor : Bool
  isQuiescing : Bool
  executorGroups : List ExecutorGroupDesc
  deriving DecidableEq, Repr

/-! ## Executor groups -/

/-- Modelled from the spec: a group is a name and an ordered set of executors keyed by
address. -/
structure ExecutorGroup where
  name : String
  minSize : Nat
  executors : List BackendDescriptor
  deriving DecidableEq, Repr

namespace ExecutorGroup

/-- Modelled from the spec: the empty group `ExecutorGroup(group)` of a descriptor. -/
def ofDesc (desc : ExecutorGroupDesc) : ExecutorGroup := ⟨desc.name, desc.minSize, []⟩

/-- Modelled from the spec: the executor with this address, if any. -/
def lookUpBackendDesc (group : ExecutorGroup) (address : NetworkAddress) :
    Option BackendDescriptor :=
  group.executors.find? (·.address = address)

/-- Modelled from the spec: adding an address already in the group changes nothing. -/
def addExecutor (group : ExecutorGroup) (beDesc : BackendDescriptor) : ExecutorGroup :=
  if (group.lookUpBackendDesc beDesc.address).isSome then group
  else { group with executors := group.executors ++ [beDesc] }

/-- Modelled from the spec: removes the executor with the descriptor's address. -/
def removeExecutor (group : ExecutorGroup) (beDesc : BackendDescriptor) : ExecutorGroup :=
  { group with executors := group.executors.filter (·.address ≠ beDesc.address) }

/-- Modelled from the spec. -/
def numExecutors (group : ExecutorGroup) : Nat := group.executors.length

/-- Modelled from the spec: the number of distinct IP addresses of the executors. -/
def numHosts (group : ExecutorGroup) : Nat := (group.executors.map (·.ipAddress)).eraseDups.length

/-- Modelled from the spec: a group is healthy once it has `minSize` executors. -/
def isHealthy (group : ExecutorGroup) : Bool := group.minSize ≤ group.numExecutors

end ExecutorGroup

abbrev ExecutorGroups := List ExecutorGroup

/-- `FindOrInsertExecutorGroup(group, executor_groups)->Op(...)`: the group named by
`desc`, inserted empty if missing, is replaced by `op` of it. -/
def findOrInsertExecutorGroup (desc : ExecutorGroupDesc) (op : ExecutorGroup → ExecutorGroup)
    (groups : ExecutorGroups) : ExecutorGroups :=
  if groups.any (·.name = desc.name) then
    groups.map fun group => if group.name = desc.name then op group else group
  else groups ++ [op (ExecutorGroup.ofDesc desc)]

/-- The loop of `UpdateMembership` and `BlacklistExecutor` that removes a backend from each
group its descriptor names. -/
def removeFromGroups (groups : ExecutorGroups) (beDesc : BackendDescriptor) : ExecutorGroups :=
  beDesc.executorGroups.foldl (fun gs desc => findOrInsertExecutorGroup desc (·.removeExecutor beDesc) gs) groups

/-- The loop of `UpdateMembership` that adds a backend to each group its descriptor names. -/
def addToGroups (groups : ExecutorGroups) (beDesc : BackendDescriptor) : ExecutorGroups :=
  beDesc.executorGroups.foldl (fun gs desc => findOrInsertExecutorGroup desc (·.addExecutor beDesc) gs) groups

def findExecutorGroup (groups : ExecutorGroups) (name : String) : Option ExecutorGroup :=
  groups.find? (·.name = name)

/-! ## The executor blacklist -/

/-- Modelled from the spec: the state of a backend in the blacklist. -/
inductive BlacklistState
  | notBlacklisted
  | onProbation
  | blacklisted
  deriving DecidableEq, Repr

/-- Modelled from the spec: an entry of the blacklist, with the time it was (last)
blacklisted and how often in a row. -/
structure BlacklistEntry where
  beDesc : BackendDescriptor
  state : BlacklistState
  blacklistTimeMs : Nat
  numConsecutiveBlacklistings : Nat
  deriving DecidableEq, Repr

/-- Modelled from the spec: how long a backend stays blacklisted, and then on probation,
as functions of its number of consecutive blacklistings. -/
structure BlacklistTimeouts where
  blacklistTimeoutMs : Nat → Nat
  probationTimeoutMs : Nat → Nat

/-- Modelled from the spec: the blacklisted and probationary backends, keyed by address. -/
abbrev ExecutorBlacklist := List BlacklistEntry

namespace ExecutorBlacklist

/-- Modelled from the spec: blacklisting a backend on probation blacklists it again. -/
def blacklist (bl : ExecutorBlacklist) (beDesc : BackendDescriptor) (now : Nat) :
    ExecutorBlacklist :=
  if bl.any (·.beDesc.address = beDesc.address) then
    bl.map fun e => if e.beDesc.address = beDesc.address then
      { e with state := .blacklisted, blacklistTimeMs := now,
               numConsecutiveBlacklistings := e.numConsecutiveBlacklistings + 1 }
    else e
  else bl ++ [⟨beDesc, .blacklisted, now, 1⟩]

/-- Modelled from the spec: removes the backend's entry and returns its prior state. -/
def findAndRemove (bl : ExecutorBlacklist) (beDesc : BackendDescriptor) :
    BlacklistState × ExecutorBlacklist :=
  match bl.find? (·.beDesc.address = beDesc.address) with
  | none => (.notBlacklisted, bl)
  | some e => (e.state, bl.filter (·.beDesc.address ≠ beDesc.address))

/-- Modelled from the spec. -/
def isBlacklisted (bl : ExecutorBlacklist) (beDesc : BackendDescriptor) : Bool :=
  bl.any fun e => e.beDesc.address = beDesc.address && e.state = .blacklisted

/-- Modelled from the spec: whether the entry's current timeout has passed at `now`. -/
def timedOut (timeouts : BlacklistTimeouts) (now : Nat) (e : BlacklistEntry) : Bool :=
  match e.state with
  | .blacklisted => timeouts.blacklistTimeoutMs e.numConsecutiveBlacklistings < now - e.blacklistTimeMs
  | _ => timeouts.probationTimeoutMs e.numConsecutiveBlacklistings < now - e.blacklistTimeMs

/-- Modelled from the spec. -/
def needsMaintenance (timeouts : BlacklistTimeouts) (bl : ExecutorBlacklist) (now : Nat) : Bool :=
  bl.any (timedOut timeouts now)

/-- Modelled from the spec: a blacklisted entry whose timeout passed goes on probation, and
its descriptor to the probation list; a probationary one whose timeout passed is dropped. -/
def maintenance (timeouts : BlacklistTimeouts) (bl : ExecutorBlacklist) (now : Nat) :
    ExecutorBlacklist × List BackendDescriptor :=
  (bl.filterMap fun e =>
      if timedOut timeouts now e then
        if e.state = .blacklisted then some { e with state := .onProbation } else none
      else some e,
    (bl.filter fun e => timedOut timeouts now e && e.state = .blacklisted).map (·.beDesc))

end ExecutorBlacklist

/-! ## Snapshots -/

/-- `ClusterMembershipMgr::BackendIdMap`: descriptors by statestore key. -/
abbrev BackendIdMap := List (String × BackendDescriptor)

namespace BackendIdMap

/-- `map[key] = beDesc`: overwrites the key's descriptor, or inserts it. -/
def assign (m : BackendIdMap) (key : String) (beDesc : BackendDescriptor) : BackendIdMap :=
  if m.any (·.1 = key) then m.map fun p => if p.1 = key then (key, beDesc) else p
  else m ++ [(key, beDesc)]

def erase (m : BackendIdMap) (key : String) : BackendIdMap := m.filter (·.1 ≠ key)

/-- The addresses of the backends, as `NotifyLocalServerForDeletedBackend` collects them
into a `BackendAddressSet`. -/
def addressSet (m : BackendIdMap) : List NetworkAddress :=
  m.foldl (fun set p => set.insert p.2.address) []

theorem lookup_cons (a k : String) (b : BackendDescriptor) (m : BackendIdMap) :
    List.lookup a ((k, b) :: m) = if a = k then some b else List.lookup a m := by
  by_cases h : a = k
  · simp [List.lookup_cons, h]
  · simp [List.lookup_cons, h, beq_eq_false_iff_ne.mpr h]

theorem lookup_isSome (m : BackendIdMap) (k : String) :
    (m.lookup k).isSome = m.any (·.1 = k) := by
  induction m with
  | nil => rfl
  | cons p m ih =>
    obtain ⟨k', b⟩ := p
    by_cases h : k = k' <;> simp [lookup_cons, h, ih, eq_comm]

theorem lookup_append (m m' : BackendIdMap) (k : String) :
    (m ++ m').lookup k = (m.lookup k).or (m'.lookup k) := by
  induction m with
  | nil => rfl
  | cons p m ih =>
    obtain ⟨k', b⟩ := p
    by_cases h : k = k' <;> simp [lookup_cons, h, ih]

theorem lookup_map_replace (m : BackendIdMap) (key k : String) (beDesc : BackendDescriptor) :
    (m.map fun p => if p.1 = key then (key, beDesc) else p).lookup k =
      if k = key ∧ m.any (·.1 = key) then some beDesc else m.lookup k := by
  induction m with
  | nil => simp
  | cons p m ih =>
    obtain ⟨k', b⟩ := p
    by_cases hk' : k' = key
    · subst hk'
      by_cases hk : k = k'
      · simp only [hk, List.map_cons, if_true, List.lookup_cons_self, List.any_cons, decide_True,
          Bool.true_or, and_self]
      · simp only [List.map_cons, if_true, lookup_cons, hk, if_false, ih, false_and]
    · simp only [List.any_cons, hk', decide_False, Bool.false_or, List.map_cons, if_false]
      by_cases hk : k = k'
      · subst hk
        simp only [List.lookup_cons_self, hk', false_and, if_false]
      · simp only [lookup_cons, hk, if_false, ih]

theorem lookup_assign (m : BackendIdMap) (key k : String) (beDesc : BackendDescriptor) :
    (m.assign key beDesc).lookup k = if k = key then some beDesc else m.lookup k := by
  unfold assign
  split
  · rename_i hany
    by_cases hk : k = key <;> simp only [lookup_map_replace, hk, hany, and_self, false_and, if_true,
      if_false]
  · rename_i hany
    have hnone : m.lookup key = none := by
      rw [← Option.not_isSome_iff_eq_none, lookup_isSome]
      exact hany
    by_cases hk : k = key
    · simp only [lookup_append, lookup_cons, hk, hnone, if_true, Option.none_or]
    · simp only [lookup_append, lookup_cons, hk, if_false, List.lookup_nil, Option.or_none]

theorem erase_cons (k' key : String) (b : BackendDescriptor) (m : BackendIdMap) :
    erase ((k', b) :: m) key = if k' = key then erase m key else (k', b) :: erase m key := by
  by_cases h : k' = key <;> simp [erase, List.filter_cons, h]

theorem lookup_erase (m : BackendIdMap) (key k : String) :
    (erase m key).lookup k = if k = key then none else m.lookup k := by
  induction m with
  | nil => simp only [erase, List.filter_nil, List.lookup_nil, ite_self]
  | cons p m ih =>
    obtain ⟨k', b⟩ := p
    rw [erase_cons]
    by_cases hk' : k' = key
    · subst hk'
      by_cases hk : k = k'
      · subst hk
        simpa only [eq_self_iff_true, if_true] using ih
      · simp only [eq_self_iff_true, if_true, ih, hk, if_false, lookup_cons]
    · by_cases hk : k = k'
      · subst hk
        simp only [hk', if_false, List.lookup_cons_self]
      · simp only [hk', if_false, lookup_cons, hk, ih]

end BackendIdMap

structure Snapshot where
  version : Nat
  currentBackends : BackendIdMap
  executorGroups : ExecutorGroups
  executorBlacklist : ExecutorBlacklist
  localBeDesc : Option BackendDescriptor
  deriving DecidableEq, Repr

/-- `Snapshot()`: version 0 and nothing in it. -/
def Snapshot.empty : Snapshot := ⟨0, [], [], [], none⟩

end Impala.Scheduling
