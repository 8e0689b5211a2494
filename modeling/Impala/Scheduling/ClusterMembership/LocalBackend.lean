import Impala.Scheduling.ClusterMembership.Recovery
import Impala.Scheduling.ClusterMembership.Coherence

/-! # The local backend: its registration settles, and it stays schedulable

`UpdateMembership` writes the local descriptor into the new snapshot whenever
`NeedsLocalBackendUpdate` holds of it, so a quiet heartbeat that follows is skipped
(`idle_update_skipped`). `BlacklistExecutor` refuses the local backend's own address: along
every run that keeps to the registry, a published local executor that is not quiescing is in
every group it names and at no blacklist entry's address, and a quiescing one leaves its groups.
-/

namespace Impala.Scheduling

namespace ClusterMembershipMgr

variable {cfg : Config}

@[simp] theorem processTopicItem_localBeDesc (s : Snapshot) (u : Bool) (item : TopicItem) :
    (processTopicItem cfg s u item).1.localBeDesc = s.localBeDesc := by
  rcases processTopicItem_cases s u item with h | ⟨-, -, _, _, h⟩ | ⟨_, _, _, -, -, h⟩ <;> rw [h]

@[simp] theorem processTopicEntries_localBeDesc (s : Snapshot) (u : Bool) (items : List TopicItem) :
    (processTopicEntries cfg s u items).1.localBeDesc = s.localBeDesc := by
  induction items generalizing s u with
  | nil => rfl
  | cons item items ih => rw [processTopicEntries_cons, ih, processTopicItem_localBeDesc]

/-- After the local backend's part of a call, a snapshot that records a local descriptor needs
no update for the call's one: the entry was written if it was missing or had the other
quiescing flag. -/
theorem needsLocalBackendUpdate_localBackendStep (s : Snapshot) (l : Option BackendDescriptor)
    (hl : l.isSome → s.localBeDesc.isSome) :
    needsLocalBackendUpdate cfg (localBackendStep cfg s l).1 l = false := by
  cases l with
  | none => rfl
  | some l =>
    obtain ⟨x, hx⟩ := Option.isSome_iff_exists.mp (hl rfl)
    simp only [localBackendStep]
    split
    · simp [updateLocalBackend, needsLocalBackendUpdate, hx, BackendIdMap.lookup_assign]
    · next h => simpa using h

/-- After a call that reads the membership topic, the snapshot the next call starts from needs
no update for the call's local descriptor. -/
theorem needsLocalBackendUpdate_updateMembership (m : ClusterMembershipMgr) {d : TopicDeltaMap}
    {update : TopicDelta} {env : Env} (hu : d.lookup cfg.membershipTopic = some update) :
    needsLocalBackendUpdate cfg (updateMembership cfg m d env).1.baseSnapshot env.localBeDesc =
      false := by
  simp only [updateMembership, hu]
  split
  · next hskip =>
    simp only [skipsUpdate, Bool.and_eq_true, Bool.not_eq_true'] at hskip
    exact hskip.1.1.2
  · rw [applyUpdate_baseSnapshot]
    refine needsLocalBackendUpdate_localBackendStep _ _ fun hl => ?_
    obtain ⟨l, hl⟩ := Option.isSome_iff_exists.mp hl
    split <;> simp [blacklistMaintenance, newSnapshot, hl]

theorem recovering_updateMembership (m : ClusterMembershipMgr) {d : TopicDeltaMap}
    {update : TopicDelta} {env : Env} (hu : d.lookup cfg.membershipTopic = some update)
    (hr : (updateMembership cfg m d env).1.recoveringMembership.isSome = true) :
    env.ssIsRecovering = true := by
  simp only [updateMembership, hu] at hr
  split at hr
  · next hskip =>
    simp only [skipsUpdate, Bool.and_eq_true, Bool.not_eq_true', Bool.and_eq_false_iff] at hskip
    simpa [hr] using hskip.1.2
  · unfold applyUpdate at hr
    by_contra hne
    simp [hne] at hr

/-- After any call that reads the membership topic, an empty delta with the same local
descriptor, made while the grace period lasts or after it has ended, is skipped exactly when
the blacklist is not due for maintenance: a quiet heartbeat neither rebuilds nor republishes
the snapshot, nor sends the local backend to the statestore again. -/
theorem idle_update_skipped (m : ClusterMembershipMgr) {d : TopicDeltaMap}
    {update update' : TopicDelta} {env env' : Env} (hu : d.lookup cfg.membershipTopic = some update)
    (hdelta : update'.isDelta = true) (hempty : update'.topicEntries = [])
    (hl : env'.localBeDesc = env.localBeDesc)
    (hr : env.ssIsRecovering = true → env'.ssIsRecovering = true) :
    skipsUpdate cfg (updateMembership cfg m d env).1 update' env' =
      !(updateMembership cfg m d env).1.baseSnapshot.executorBlacklist.needsMaintenance
        cfg.timeouts env'.now := by
  have hpublish : ((updateMembership cfg m d env).1.recoveringMembership.isSome &&
      !env'.ssIsRecovering) = false := by
    cases h : (updateMembership cfg m d env).1.recoveringMembership.isSome
    · rfl
    · simp [hr (recovering_updateMembership m hu h)]
  simp only [skipsUpdate, hdelta, hempty, List.isEmpty_nil, hl,
    needsLocalBackendUpdate_updateMembership m hu, hpublish, Bool.not_false, Bool.and_true,
    Bool.true_and]

open Demo in
/-- Once executor `a` and the coordinator have registered, an empty delta a millisecond later
is skipped: the blacklist is empty. -/
theorem idle_update_skipped_after_registration :
    let m := (updateMembership config init (membershipUpdate true [register "a" executorA]) (env 0)).1
    skipsUpdate config m ⟨"impala-membership", [], true⟩ (env 1) =
        !m.baseSnapshot.executorBlacklist.needsMaintenance config.timeouts 1 ∧
      skipsUpdate config m ⟨"impala-membership", [], true⟩ (env 1) = true :=
  ⟨idle_update_skipped init rfl rfl rfl rfl id, rfl⟩

/-! ## The local backend stays schedulable -/

/-- Along every run of calls that keep to the registry, a local backend that the published
snapshot holds as an executor that is not quiescing has an executor at its address in every
group it names, as `executor_groups.find` and `LookUpBackendDesc` see them, and no blacklist
entry has its address: the scheduler can always place fragments on the coordinator. -/
theorem localBackend_schedulable (reg : Registry) {acts : List Action} {m : ClusterMembershipMgr}
    {events : List (List Event)} (hfit : ∀ a ∈ acts, reg.FitsAction cfg a)
    (h : run cfg init acts = some (m, events)) {l : BackendDescriptor}
    (hl : m.currentMembership.currentBackends.lookup cfg.localBackendId = some l)
    (hex : l.isExecutor = true) (hq : l.isQuiescing = false) :
    (∀ desc ∈ l.executorGroups,
      hasExecutorAt m.currentMembership.executorGroups desc.name l.address = true) ∧
      ∀ e ∈ m.currentMembership.executorBlacklist, e.beDesc.address ≠ l.address := by
  have hs := ((coherent_init : init.Coherent reg cfg).run hfit h).1.current
  have hfl := hs.backends _ (BackendIdMap.mem_of_lookup_eq_some hl)
  refine ⟨hs.localMember l hl hex hq, fun e he ha => ?_⟩
  obtain ⟨-, k, c, -, hk, hf, -⟩ := hs.blacklist e he
  exact hk (hf.key_eq hfl ha)

/-! ## A quiescing coordinator leaves its groups -/

/-- Along every run of calls that keep to the registry, a further such call that reads the
membership topic with a quiescing local descriptor leaves no executor at the local address in
any group of the snapshot it produces, published or, in the grace period, recovering: the
scheduler places no new fragment on a coordinator that is shutting down. -/
theorem quiescing_local_leaves_groups (reg : Registry) {acts : List Action}
    {m : ClusterMembershipMgr} {events : List (List Event)}
    (hfit : ∀ a ∈ acts, reg.FitsAction cfg a) (h : run cfg init acts = some (m, events))
    {incomingTopicDeltas : TopicDeltaMap} {env : Env} {update : TopicDelta}
    (hfit' : reg.FitsAction cfg (.updateMembership incomingTopicDeltas env))
    (hu : incomingTopicDeltas.lookup cfg.membershipTopic = some update) {l : BackendDescriptor}
    (hl : env.localBeDesc = some l) (hq : l.isQuiescing = true) (name : String) :
    hasExecutorAt (updateMembership cfg m incomingTopicDeltas env).1.baseSnapshot.executorGroups
      name l.address = false := by
  have hs := (((coherent_init : init.Coherent reg cfg).run hfit h).1.updateMembership hfit').base
  have hneeds : needsLocalBackendUpdate cfg
      (updateMembership cfg m incomingTopicDeltas env).1.baseSnapshot env.localBeDesc = false :=
    needsLocalBackendUpdate_updateMembership m hu
  rw [hl] at hneeds
  generalize (updateMembership cfg m incomingTopicDeltas env).1.baseSnapshot = s at hs hneeds ⊢
  obtain ⟨x, hx, hxq⟩ : ∃ x, s.currentBackends.lookup cfg.localBackendId = some x ∧
      x.isQuiescing = true := by
    revert hneeds
    simp only [needsLocalBackendUpdate]
    split
    · exact fun h => nomatch h
    · exact fun h => nomatch h
    · next existing _ hex => exact fun h => ⟨existing, hex, by simpa [hq] using h⟩
  refine Bool.eq_false_iff.mpr fun hex => ?_
  obtain ⟨b, hb, hba⟩ := exists_inGroup_of_hasExecutorAt hex
  obtain ⟨k, c, hc, hca, -, hcq, -⟩ := (hs.members name b hb).backend
  have hxm := BackendIdMap.mem_of_lookup_eq_some hx
  obtain ⟨-, rfl⟩ := hs.key_eq hc hxm
    (hca.trans (hba.trans ((hfit'.2 l hl).address_eq (hs.backends _ hxm))))
  rw [hxq] at hcq
  cases hcq

end ClusterMembershipMgr

namespace Demo

/-- A coordinator that also runs an executor of the default group. -/
def coordinatorExecutor : BackendDescriptor :=
  ⟨⟨"host-c", 27000⟩, "10.0.0.3", true, false, [defaultGroup]⟩

def executingEnv (now : Nat) : Env := ⟨some coordinatorExecutor, false, now⟩

/-- The registry of that cluster: key `a` is executor `host-a`, the local key the executing
coordinator, and any other key a backend of its own host. -/
def executingRegistry : Registry where
  address k := if k = "a" then executorA.address
    else if k = config.localBackendId then coordinatorExecutor.address else ⟨k, 0⟩
  ipAddress k := if k = "a" then executorA.ipAddress
    else if k = config.localBackendId then coordinatorExecutor.ipAddress else ""
  isExecutor k := k = "a" || k = config.localBackendId
  executorGroups k := if k = "a" ∨ k = config.localBackendId then [defaultGroup] else []
  address_inj {k k'} h := by
    dsimp only at h
    split_ifs at h <;> simp_all [executorA, coordinatorExecutor, config]

end Demo

namespace ClusterMembershipMgr

open Demo in
/-- The executing coordinator registers with executor `a`; the scheduler then asks to blacklist
the coordinator, which is refused, and `a`, which leaves the default group and is the one
blacklist entry. The coordinator stays in the group, at no entry's address. -/
theorem localBackend_schedulable_after_blacklisting :
    let acts : List Action :=
      [.updateMembership (membershipUpdate true [register "a" executorA]) (executingEnv 0),
       .blacklistExecutor coordinatorExecutor 1,
       .blacklistExecutor executorA 2]
    (∀ a ∈ acts, executingRegistry.FitsAction config a) ∧
      ∃ m events, run config init acts = some (m, events) ∧
        m.currentMembership.currentBackends.lookup config.localBackendId =
          some coordinatorExecutor ∧
        m.currentMembership.executorBlacklist.map (·.beDesc) = [executorA] ∧
        (∀ desc ∈ coordinatorExecutor.executorGroups,
          hasExecutorAt m.currentMembership.executorGroups desc.name
            coordinatorExecutor.address = true) ∧
        ∀ e ∈ m.currentMembership.executorBlacklist,
          e.beDesc.address ≠ coordinatorExecutor.address := by
  intro acts
  have hfit : ∀ a ∈ acts, executingRegistry.FitsAction config a := by
    simp only [acts, List.mem_cons, List.mem_singleton, List.not_mem_nil, or_false]
    rintro a (rfl | rfl | rfl)
    · refine ⟨fun update hu item hi _ _ d hv => ?_, fun l hl => ?_⟩
      · cases hu
        obtain rfl := List.mem_singleton.mp hi
        cases hv
        exact ⟨rfl, rfl, rfl, rfl⟩
      · cases hl
        exact ⟨rfl, rfl, rfl, rfl⟩
    · exact ⟨⟨config.localBackendId, rfl, rfl, rfl, rfl⟩, rfl⟩
    · exact ⟨⟨"a", rfl, rfl, rfl, rfl⟩, rfl⟩
  exact ⟨hfit, _, _, rfl, rfl, rfl, localBackend_schedulable executingRegistry hfit rfl rfl rfl rfl⟩

open Demo in
/-- The executing coordinator registers with executor `a` and is in the default group; an
empty delta a millisecond later, with the coordinator quiescing, takes it out. -/
theorem quiescing_local_leaves_groups_at_shutdown :
    let acts : List Action :=
      [.updateMembership (membershipUpdate true [register "a" executorA]) (executingEnv 0)]
    let quiescing := { coordinatorExecutor with isQuiescing := true }
    (∀ a ∈ acts, executingRegistry.FitsAction config a) ∧
      ∃ m events, run config init acts = some (m, events) ∧
        hasExecutorAt m.currentMembership.executorGroups "default"
          coordinatorExecutor.address = true ∧
        hasExecutorAt (updateMembership config m (membershipUpdate true [])
          ⟨some quiescing, false, 1⟩).1.baseSnapshot.executorGroups "default"
          quiescing.address = false := by
  intro acts quiescing
  have hfit : ∀ a ∈ acts, executingRegistry.FitsAction config a := by
    simp only [acts, List.mem_singleton]
    rintro a rfl
    refine ⟨fun update hu item hi _ _ d hv => ?_, fun l hl => ?_⟩
    · cases hu
      obtain rfl := List.mem_singleton.mp hi
      cases hv
      exact ⟨rfl, rfl, rfl, rfl⟩
    · cases hl
      exact ⟨rfl, rfl, rfl, rfl⟩
  have hfit' : executingRegistry.FitsAction config
      (.updateMembership (membershipUpdate true []) ⟨some quiescing, false, 1⟩) := by
    refine ⟨fun update hu item hi => ?_, fun l hl => ?_⟩
    · cases hu; cases hi
    · cases hl; exact ⟨rfl, rfl, rfl, rfl⟩
  exact ⟨hfit, _, _, rfl, rfl,
    quiescing_local_leaves_groups executingRegistry hfit rfl hfit' rfl rfl rfl "default"⟩

end ClusterMembershipMgr

end Impala.Scheduling
