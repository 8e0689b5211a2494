import Impala.Scheduling.ClusterMembership.Basic

/-! # `ClusterMembershipMgr`: `UpdateMembership` and `BlacklistExecutor`

Both calls run under `update_membership_lock_`, so each is one atomic step of the manager.
A call's effects outside the manager (the callbacks it invokes, the topic updates it
queues and the snapshot `SetState` installs) are returned as a list of events, in the order
the code makes them.

`DCHECK`s follow release builds, where they are compiled out with their arguments: the
`DCHECK(CheckConsistency(...))` calls check nothing, and the create branch's
`DCHECK_EQ(new_blacklist->FindAndRemove(be_desc), NOT_BLACKLISTED)` does not call
`FindAndRemove`.
-/

namespace Impala.Scheduling

/-- `TTopicItem`; `value` is the descriptor `DeserializeThriftMsg` reads from the item,
`none` when it fails. -/
structure TopicItem where
  key : String
  value : Option BackendDescriptor
  deleted : Bool
  deriving DecidableEq, Repr

structure TopicDelta where
  topicName : String
  topicEntries : List TopicItem
  isDelta : Bool
  deriving DecidableEq, Repr

abbrev TopicDeltaMap := List (String × TopicDelta)

structure UpdateExecutorMembershipRequest where
  hostnames : List String
  ipAddresses : List String
  numExecutors : Nat
  deriving DecidableEq, Repr

structure Metrics where
  totalLiveExecutorGroups : Nat
  totalHealthyExecutorGroups : Nat
  totalBackends : Nat
  deriving DecidableEq, Repr

/-- What a call does outside the manager. -/
inductive Event
  /-- `update_local_server_fn_(current_backend_set)`. -/
  | updateLocalServer (currentBackendSet : List NetworkAddress)
  /-- `update_frontend_fn_(update_req)`. -/
  | updateFrontend (updateReq : UpdateExecutorMembershipRequest)
  /-- `SetState(new_state)`. -/
  | setState (newState : Snapshot)
  /-- A delta appended to `subscriber_topic_updates`. -/
  | subscriberTopicUpdate (update : TopicDelta)
  deriving DecidableEq, Repr

/-- What stays fixed for a manager: its backend id, the membership topic's name
(`Statestore::IMPALA_MEMBERSHIP_TOPIC`), `ExecutorBlacklist::BlacklistingEnabled()`, the
blacklist's timeouts, and which of the two notification callbacks are installed. -/
structure Config where
  localBackendId : String
  membershipTopic : String
  blacklistingEnabled : Bool
  timeouts : BlacklistTimeouts
  hasUpdateLocalServerFn : Bool
  hasUpdateFrontendFn : Bool

/-- What the environment supplies to an `UpdateMembership` call: `GetLocalBackendDescriptor()`,
`IsInPostRecoveryGracePeriod()` and the monotonic clock the blacklist reads. -/
structure Env where
  localBeDesc : Option BackendDescriptor
  ssIsRecovering : Bool
  now : Nat
  deriving DecidableEq, Repr

/-- The manager's state: the published snapshot, the snapshot built during the
statestore's post-recovery grace period, and the metrics. -/
structure ClusterMembershipMgr where
  currentMembership : Snapshot
  recoveringMembership : Option Snapshot
  metrics : Metrics
  deriving DecidableEq, Repr

namespace ClusterMembershipMgr

/-- The constructor: an empty published snapshot and zero metrics. -/
def init : ClusterMembershipMgr := ⟨Snapshot.empty, none, ⟨0, 0, 0⟩⟩

/-- The snapshot both calls start from: the recovering one if any, else the current one. -/
def baseSnapshot (m : ClusterMembershipMgr) : Snapshot :=
  m.recoveringMembership.getD m.currentMembership

variable (cfg : Config)

def needsLocalBackendUpdate (state : Snapshot) : Option BackendDescriptor → Bool
  | none => false
  | some localBeDesc =>
    match state.localBeDesc, state.currentBackends.lookup cfg.localBackendId with
    | none, _ => true
    | some _, none => true
    | some _, some existing => existing.isQuiescing != localBeDesc.isQuiescing

end ClusterMembershipMgr

/-- `CheckConsistency(current_backends, executor_groups, executor_blacklist)`. The map
`address_to_backend` keeps the first backend of each address (`emplace`). -/
def checkConsistency (currentBackends : BackendIdMap) (executorGroups : ExecutorGroups)
    (executorBlacklist : ExecutorBlacklist) : Bool :=
  executorGroups.all fun group => group.executors.all fun groupBe =>
    groupBe.isExecutor && !groupBe.isQuiescing &&
      match currentBackends.find? (·.2.address = groupBe.address) with
      | none => false
      | some (_, currentBe) =>
        currentBe.isQuiescing == groupBe.isQuiescing &&
          currentBe.isExecutor == groupBe.isExecutor &&
          !executorBlacklist.isBlacklisted groupBe

def Snapshot.consistent (s : Snapshot) : Bool :=
  checkConsistency s.currentBackends s.executorGroups s.executorBlacklist

def updateMetrics (currentBackends : BackendIdMap) (executorGroups : ExecutorGroups) : Metrics :=
  let counts := executorGroups.foldl (fun (c : Nat × Nat) group =>
    if group.isHealthy then (c.1 + 1, c.2 + 1)
    else if 0 < group.numHosts then (c.1 + 1, c.2) else c) (0, 0)
  ⟨counts.1, counts.2, currentBackends.length⟩

def updateExecutorMembershipRequest (currentBackends : BackendIdMap) :
    UpdateExecutorMembershipRequest :=
  currentBackends.foldl (fun req p =>
    if p.2.isExecutor then
      ⟨req.hostnames.insert p.2.address.hostname, req.ipAddresses.insert p.2.ipAddress,
        req.numExecutors + 1⟩
    else req) ⟨[], [], 0⟩

namespace ClusterMembershipMgr

variable (cfg : Config)

/-- One iteration of `UpdateMembership`'s loop over the topic's items, on the new snapshot
and the `update_local_server` flag: a deleted item, an item that does not deserialize or
has an empty IP address, the local backend's own key, an update of a known key, or a new
key. -/
def processTopicItem (s : Snapshot) (updateLocalServer : Bool) (item : TopicItem) :
    Snapshot × Bool :=
  if item.deleted then
    match s.currentBackends.lookup item.key with
    | none => (s, updateLocalServer)
    | some beDesc =>
      let removed := s.executorBlacklist.findAndRemove beDesc
      ({ s with
          currentBackends := BackendIdMap.erase s.currentBackends item.key
          executorGroups :=
            if beDesc.isExecutor && !beDesc.isQuiescing && removed.1 != .blacklisted then
              removeFromGroups s.executorGroups beDesc
            else s.executorGroups
          executorBlacklist := removed.2 }, true)
  else
    match item.value with
    | none => (s, updateLocalServer)
    | some beDesc =>
      if beDesc.ipAddress.isEmpty || item.key = cfg.localBackendId then (s, updateLocalServer)
      else
        match s.currentBackends.lookup item.key with
        | some existing =>
          let removed := s.executorBlacklist.findAndRemove beDesc
          ({ s with
              currentBackends := s.currentBackends.assign item.key beDesc
              executorGroups :=
                if beDesc.isQuiescing && !existing.isQuiescing && existing.isExecutor &&
                    removed.1 != .blacklisted then
                  removeFromGroups s.executorGroups beDesc
                else s.executorGroups
              executorBlacklist := removed.2 }, updateLocalServer)
        | none =>
          ({ s with
              currentBackends := s.currentBackends.assign item.key beDesc
              executorGroups :=
                if !beDesc.isQuiescing && beDesc.isExecutor then addToGroups s.executorGroups beDesc
                else s.executorGroups }, updateLocalServer)

def processTopicEntries (s : Snapshot) (updateLocalServer : Bool) (items : List TopicItem) :
    Snapshot × Bool :=
  items.foldl (fun acc item => processTopicItem cfg acc.1 acc.2 item) (s, updateLocalServer)

/-- The blacklist maintenance of `UpdateMembership`: `Maintenance`, then the backends it
put on probation back into their groups. -/
def blacklistMaintenance (s : Snapshot) (now : Nat) : Snapshot :=
  let maintained := s.executorBlacklist.maintenance cfg.timeouts now
  { s with
    executorBlacklist := maintained.1
    executorGroups := maintained.2.foldl addToGroups s.executorGroups }

def addLocalBackendToStatestore (localBeDesc : BackendDescriptor) : TopicDelta :=
  ⟨cfg.membershipTopic, [⟨cfg.localBackendId, some localBeDesc, false⟩], true⟩

/-- The local backend's update in `UpdateMembership`, when `NeedsLocalBackendUpdate` holds
for the new snapshot: its entry, its groups, and its delta to the statestore. -/
def updateLocalBackend (s : Snapshot) (localBeDesc : BackendDescriptor) : Snapshot × List Event :=
  ({ s with
    currentBackends := s.currentBackends.assign cfg.localBackendId localBeDesc
    executorGroups :=
      if localBeDesc.isQuiescing then removeFromGroups s.executorGroups localBeDesc
      else if localBeDesc.isExecutor then addToGroups s.executorGroups localBeDesc
      else s.executorGroups },
   [.subscriberTopicUpdate (addLocalBackendToStatestore cfg localBeDesc)])

/-- The local backend's part of `UpdateMembership`: its update when `NeedsLocalBackendUpdate`
holds for the new snapshot. -/
def localBackendStep (s : Snapshot) (localBeDesc : Option BackendDescriptor) :
    Snapshot × List Event :=
  match localBeDesc with
  | some l => if needsLocalBackendUpdate cfg s localBeDesc then updateLocalBackend cfg s l else (s, [])
  | none => (s, [])

def notifyLocalServerForDeletedBackend (currentBackends : BackendIdMap) : List Event :=
  if cfg.hasUpdateLocalServerFn then [.updateLocalServer currentBackends.addressSet] else []

def updateFrontendExecutorMembership (currentBackends : BackendIdMap) : List Event :=
  if cfg.hasUpdateFrontendFn then [.updateFrontend (updateExecutorMembershipRequest currentBackends)]
  else []

/-- The new snapshot `UpdateMembership` starts from: a fresh one for a full update, else
the recovering one, or a copy of the current one; with the local descriptor and the
version bumped. -/
def newSnapshot (m : ClusterMembershipMgr) (update : TopicDelta) (env : Env) : Snapshot :=
  let s := if update.isDelta then m.baseSnapshot else Snapshot.empty
  { s with localBeDesc := env.localBeDesc.orElse fun _ => s.localBeDesc, version := s.version + 1 }

/-- `UpdateMembership` past its early return: the new snapshot, the items, the blacklist
maintenance, the local backend and the metrics; then either the snapshot is kept as the
recovering one, or the callbacks are notified and `SetState` publishes it. -/
def applyUpdate (m : ClusterMembershipMgr) (update : TopicDelta) (env : Env)
    (updateLocalServer needsBlacklistMaintenance : Bool) : ClusterMembershipMgr × List Event :=
  let items := processTopicEntries cfg (newSnapshot m update env)
    (updateLocalServer || !update.isDelta) update.topicEntries
  let maintained := if needsBlacklistMaintenance then blacklistMaintenance cfg items.1 env.now
    else items.1
  let withLocal := localBackendStep cfg maintained env.localBeDesc
  let newState := withLocal.1
  let metrics := updateMetrics newState.currentBackends newState.executorGroups
  if env.ssIsRecovering then ({ m with recoveringMembership := some newState, metrics }, withLocal.2)
  else
    (⟨newState, none, metrics⟩,
      withLocal.2 ++
        (if items.2 then notifyLocalServerForDeletedBackend cfg newState.currentBackends else []) ++
        updateFrontendExecutorMembership cfg newState.currentBackends ++ [.setState newState])

/-- The early return of `UpdateMembership`: an empty delta, no local backend update, no
recovering snapshot to publish and no blacklist maintenance due. -/
def skipsUpdate (m : ClusterMembershipMgr) (update : TopicDelta) (env : Env) : Bool :=
  update.isDelta && update.topicEntries.isEmpty &&
    !needsLocalBackendUpdate cfg m.baseSnapshot env.localBeDesc &&
    !(m.recoveringMembership.isSome && !env.ssIsRecovering) &&
    !m.baseSnapshot.executorBlacklist.needsMaintenance cfg.timeouts env.now

def updateMembership (m : ClusterMembershipMgr) (incomingTopicDeltas : TopicDeltaMap) (env : Env) :
    ClusterMembershipMgr × List Event :=
  match incomingTopicDeltas.lookup cfg.membershipTopic with
  | none => (m, [])
  | some update =>
    if skipsUpdate cfg m update env then (m, [])
    else
      applyUpdate cfg m update env (m.recoveringMembership.isSome && !env.ssIsRecovering)
        (m.baseSnapshot.executorBlacklist.needsMaintenance cfg.timeouts env.now)

/-- `BlacklistExecutor(be_desc)` at time `now`; `none` where the code dereferences a null
`local_be_desc` of the current snapshot. -/
def blacklistExecutor (m : ClusterMembershipMgr) (beDesc : BackendDescriptor) (now : Nat) :
    Option (ClusterMembershipMgr × List Event) :=
  if !cfg.blacklistingEnabled then some (m, []) else
  match m.currentMembership.localBeDesc with
  | none => none
  | some localBeDesc =>
    if beDesc.ipAddress = localBeDesc.ipAddress ∧ beDesc.address.port = localBeDesc.address.port then
      some (m, [])
    else
      let base := m.baseSnapshot
      let present := beDesc.executorGroups.any fun desc =>
        match findExecutorGroup base.executorGroups desc.name with
        | some group => (group.lookUpBackendDesc beDesc.address).isSome
        | none => false
      if !present then some (m, [])
      else
        let newState := { base with
          executorGroups := removeFromGroups base.executorGroups beDesc
          executorBlacklist := base.executorBlacklist.blacklist beDesc now }
        if m.recoveringMembership.isSome then some ({ m with recoveringMembership := some newState }, [])
        else some ({ m with currentMembership := newState }, [.setState newState])

end ClusterMembershipMgr

inductive Action
  | updateMembership (incomingTopicDeltas : TopicDeltaMap) (env : Env)
  | blacklistExecutor (beDesc : BackendDescriptor) (now : Nat)
  deriving DecidableEq, Repr

namespace ClusterMembershipMgr

variable (cfg : Config)

/-- One call, serialized by `update_membership_lock_`. -/
def step (m : ClusterMembershipMgr) : Action → Option (ClusterMembershipMgr × List Event)
  | .updateMembership incomingTopicDeltas env => some (updateMembership cfg m incomingTopicDeltas env)
  | .blacklistExecutor beDesc now => blacklistExecutor cfg m beDesc now

def run (m : ClusterMembershipMgr) : List Action → Option (ClusterMembershipMgr × List (List Event))
  | [] => some (m, [])
  | a :: as => (step cfg m a).bind fun r => (run r.1 as).map fun t => (t.1, r.2 :: t.2)

/-- The states a manager reaches from its constructor. -/
inductive Reachable : ClusterMembershipMgr → Prop
  | init : Reachable init
  | step {m m' : ClusterMembershipMgr} {a : Action} {events : List Event} :
      Reachable m → step cfg m a = some (m', events) → Reachable m'

variable {cfg}

theorem run_reachable {m m' : ClusterMembershipMgr} {acts : List Action}
    {events : List (List Event)} (hm : Reachable cfg m) (h : run cfg m acts = some (m', events)) :
    Reachable cfg m' := by
  induction acts generalizing m events with
  | nil => cases h; exact hm
  | cons a acts ih =>
    simp only [run, Option.bind_eq_some, Option.map_eq_some'] at h
    obtain ⟨r, hstep, t, hrun, ht⟩ := h
    cases ht
    exact ih (.step hm hstep) hrun

theorem reachable_of_run {P : ClusterMembershipMgr → Prop} (acts : List Action)
    (h : ∃ r, run cfg init acts = some r ∧ P r.1) : ∃ m, Reachable cfg m ∧ P m :=
  let ⟨r, hr, hp⟩ := h
  ⟨r.1, run_reachable .init hr, hp⟩

/-! ## One item of an update -/

/-- What one item can do: nothing; delete a known key, which sets the flag; or write its
descriptor under its key. -/
theorem processTopicItem_cases (s : Snapshot) (u : Bool) (item : TopicItem) :
    processTopicItem cfg s u item = (s, u) ∨
    (item.deleted = true ∧ (s.currentBackends.lookup item.key).isSome ∧
      ∃ groups bl, processTopicItem cfg s u item =
        ({ s with currentBackends := BackendIdMap.erase s.currentBackends item.key,
                  executorGroups := groups, executorBlacklist := bl }, true)) ∨
    (∃ beDesc groups bl, item.deleted = false ∧ item.value = some beDesc ∧
      processTopicItem cfg s u item =
        ({ s with currentBackends := s.currentBackends.assign item.key beDesc,
                  executorGroups := groups, executorBlacklist := bl }, u)) := by
  unfold processTopicItem
  split
  · rename_i hdel
    split
    · exact .inl rfl
    · rename_i beDesc hlookup
      exact .inr (.inl ⟨hdel, by simp [hlookup], _, _, rfl⟩)
  · rename_i hdel
    have hdel : item.deleted = false := by simpa using hdel
    split
    · exact .inl rfl
    · rename_i beDesc hvalue
      split
      · exact .inl rfl
      · split
        · exact .inr (.inr ⟨beDesc, _, _, hdel, hvalue, rfl⟩)
        · exact .inr (.inr ⟨beDesc, _, _, hdel, hvalue, rfl⟩)

@[simp] theorem processTopicItem_version (s : Snapshot) (u : Bool) (item : TopicItem) :
    (processTopicItem cfg s u item).1.version = s.version := by
  rcases processTopicItem_cases s u item with h | ⟨-, -, _, _, h⟩ | ⟨_, _, _, -, -, h⟩ <;> rw [h]

theorem processTopicItem_flag_of_true (s : Snapshot) (item : TopicItem) :
    (processTopicItem cfg s true item).2 = true := by
  rcases processTopicItem_cases s true item with h | ⟨-, -, _, _, h⟩ | ⟨_, _, _, -, -, h⟩ <;> rw [h]

theorem processTopicItem_flag_of_deleted (s : Snapshot) (u : Bool) {item : TopicItem}
    (hdel : item.deleted = true) (hkey : (s.currentBackends.lookup item.key).isSome) :
    (processTopicItem cfg s u item).2 = true := by
  obtain ⟨beDesc, hb⟩ := Option.isSome_iff_exists.mp hkey
  simp [processTopicItem, hdel, hb]

theorem processTopicItem_lookup_isSome (s : Snapshot) (u : Bool) (item : TopicItem) {key : String}
    (hkey : (s.currentBackends.lookup key).isSome) :
    ((processTopicItem cfg s u item).1.currentBackends.lookup key).isSome ∨
      (processTopicItem cfg s u item).2 = true := by
  rcases processTopicItem_cases s u item with h | ⟨-, -, _, _, h⟩ | ⟨_, _, _, -, -, h⟩ <;> rw [h]
  · exact .inl hkey
  · exact .inr rfl
  · left
    rw [BackendIdMap.lookup_assign]
    split <;> simp [hkey]

@[simp] theorem processTopicEntries_nil (s : Snapshot) (u : Bool) :
    processTopicEntries cfg s u [] = (s, u) := rfl

@[simp] theorem processTopicEntries_cons (s : Snapshot) (u : Bool) (item : TopicItem) (items : List TopicItem) :
    processTopicEntries cfg s u (item :: items) =
      processTopicEntries cfg (processTopicItem cfg s u item).1 (processTopicItem cfg s u item).2 items := rfl

@[simp] theorem processTopicEntries_version (s : Snapshot) (u : Bool) (items : List TopicItem) :
    (processTopicEntries cfg s u items).1.version = s.version := by
  induction items generalizing s u with
  | nil => rfl
  | cons item items ih => rw [processTopicEntries_cons, ih, processTopicItem_version]

/-- The loop ends with the flag set if it started set, or if an item deletes a key of the
snapshot it started from. -/
theorem processTopicEntries_flag (s : Snapshot) (u : Bool) (items : List TopicItem)
    (h : u = true ∨ ∃ item ∈ items, item.deleted = true ∧ (s.currentBackends.lookup item.key).isSome) :
    (processTopicEntries cfg s u items).2 = true := by
  induction items generalizing s u with
  | nil => simpa only [processTopicEntries_nil, List.not_mem_nil, false_and, exists_false, or_false]
      using h
  | cons item items ih =>
    rw [processTopicEntries_cons]
    apply ih
    rcases h with rfl | ⟨item', hmem, hdel, hkey⟩
    · exact .inl (processTopicItem_flag_of_true s item)
    · rcases List.mem_cons.mp hmem with rfl | hmem
      · exact .inl (processTopicItem_flag_of_deleted s u hdel hkey)
      · rcases processTopicItem_lookup_isSome s u item hkey with hkey' | hflag
        · exact .inr ⟨item', hmem, hdel, hkey'⟩
        · exact .inl hflag

@[simp] theorem localBackendStep_version (s : Snapshot) (l : Option BackendDescriptor) :
    (localBackendStep cfg s l).1.version = s.version := by
  unfold localBackendStep; split
  · split <;> rfl
  · rfl

@[simp] theorem newSnapshot_version (m : ClusterMembershipMgr) (update : TopicDelta) (env : Env) :
    (newSnapshot m update env).version = (if update.isDelta then m.baseSnapshot.version else 0) + 1 := by
  unfold newSnapshot; split <;> rfl

theorem newSnapshot_currentBackends (m : ClusterMembershipMgr) (update : TopicDelta) (env : Env) :
    (newSnapshot m update env).currentBackends =
      if update.isDelta then m.baseSnapshot.currentBackends else [] := by
  unfold newSnapshot; split <;> rfl

/-! ## The two calls -/

theorem updateMembership_cases (m : ClusterMembershipMgr) (incomingTopicDeltas : TopicDeltaMap)
    (env : Env) :
    updateMembership cfg m incomingTopicDeltas env = (m, []) ∨
      ∃ update, incomingTopicDeltas.lookup cfg.membershipTopic = some update ∧
        skipsUpdate cfg m update env = false ∧
        updateMembership cfg m incomingTopicDeltas env =
          applyUpdate cfg m update env (m.recoveringMembership.isSome && !env.ssIsRecovering)
            (m.baseSnapshot.executorBlacklist.needsMaintenance cfg.timeouts env.now) := by
  unfold updateMembership
  cases hupdate : incomingTopicDeltas.lookup cfg.membershipTopic with
  | none => exact .inl rfl
  | some update =>
    dsimp only
    cases hskip : skipsUpdate cfg m update env
    · exact .inr ⟨update, rfl, hskip, by simp [hskip]⟩
    · exact .inl (by simp)

/-- `BlacklistExecutor` changes nothing, or removes the backend from its groups and
blacklists it in the base snapshot, which it keeps as the recovering snapshot or publishes. -/
theorem blacklistExecutor_cases {m m' : ClusterMembershipMgr} {beDesc : BackendDescriptor}
    {now : Nat} {events : List Event} (h : blacklistExecutor cfg m beDesc now = some (m', events)) :
    (m' = m ∧ events = []) ∨
      ∃ newState : Snapshot, newState = { m.baseSnapshot with
          executorGroups := removeFromGroups m.baseSnapshot.executorGroups beDesc
          executorBlacklist := m.baseSnapshot.executorBlacklist.blacklist beDesc now } ∧
        ((m.recoveringMembership.isSome ∧ m' = { m with recoveringMembership := some newState } ∧
            events = []) ∨
          (m.recoveringMembership = none ∧ m' = { m with currentMembership := newState } ∧
            events = [.setState newState])) := by
  unfold blacklistExecutor at h
  split at h
  · cases h; exact .inl ⟨rfl, rfl⟩
  · split at h
    · cases h
    · split at h
      · cases h; exact .inl ⟨rfl, rfl⟩
      · dsimp only at h
        split at h
        · cases h; exact .inl ⟨rfl, rfl⟩
        · split at h
          · cases h; exact .inr ⟨_, rfl, .inl ⟨by assumption, rfl, rfl⟩⟩
          · rename_i hrec
            cases h
            exact .inr ⟨_, rfl, .inr ⟨Option.not_isSome_iff_eq_none.mp hrec, rfl, rfl⟩⟩

end ClusterMembershipMgr

end Impala.Scheduling
