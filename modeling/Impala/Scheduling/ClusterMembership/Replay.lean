import Impala.Scheduling.ClusterMembership.Consistency

/-! # Updates that should change nothing

Running the rest of `UpdateMembership` on an update its early return skips rebuilds the base
snapshot's backends, groups and blacklist and queues no topic update. A delta delivered twice
is not always a no-op: the create branch leaves the blacklist alone (its
`DCHECK_EQ(FindAndRemove(...))` is compiled out), while the update branch of the second delivery
calls `FindAndRemove`, so a stale entry at a new key's address survives only the first.
-/

namespace Impala.Scheduling

namespace ClusterMembershipMgr

variable {cfg : Config}

/-- A delta on the base snapshot whose local descriptor needs no update needs none on the
copy `UpdateMembership` makes of it. -/
theorem needsLocalBackendUpdate_newSnapshot {m : ClusterMembershipMgr} {update : TopicDelta}
    {env : Env} (hdelta : update.isDelta = true)
    (h : needsLocalBackendUpdate cfg m.baseSnapshot env.localBeDesc = false) :
    needsLocalBackendUpdate cfg (newSnapshot m update env) env.localBeDesc = false := by
  unfold newSnapshot
  rw [if_pos hdelta]
  cases hl : env.localBeDesc with
  | none => rfl
  | some l =>
    rw [hl] at h
    unfold needsLocalBackendUpdate at h ⊢
    cases hb : m.baseSnapshot.localBeDesc <;>
      cases hk : m.baseSnapshot.currentBackends.lookup cfg.localBackendId <;> simp_all [Option.orElse]

/-- On an update `UpdateMembership` skips, the rest of the call would rebuild the base
snapshot's backends, executor groups and blacklist, and queue no topic update. -/
theorem skipped_update_keeps_membership {m : ClusterMembershipMgr} {update : TopicDelta}
    {env : Env} (hskip : skipsUpdate cfg m update env = true) :
    let r := applyUpdate cfg m update env (m.recoveringMembership.isSome && !env.ssIsRecovering)
      (m.baseSnapshot.executorBlacklist.needsMaintenance cfg.timeouts env.now)
    r.1.baseSnapshot.currentBackends = m.baseSnapshot.currentBackends ∧
      r.1.baseSnapshot.executorGroups = m.baseSnapshot.executorGroups ∧
      r.1.baseSnapshot.executorBlacklist = m.baseSnapshot.executorBlacklist ∧
      ∀ d, Event.subscriberTopicUpdate d ∉ r.2 := by
  simp only [skipsUpdate, Bool.and_eq_true, Bool.not_eq_true', List.isEmpty_iff] at hskip
  obtain ⟨⟨⟨⟨hdelta, hempty⟩, hlocal⟩, hrec⟩, hmaint⟩ := hskip
  have hnew := needsLocalBackendUpdate_newSnapshot hdelta hlocal
  have hstep : localBackendStep cfg (newSnapshot m update env) env.localBeDesc =
      (newSnapshot m update env, []) := by
    unfold localBackendStep
    split
    · rw [if_neg (by simp_all)]
    · rfl
  simp only [applyUpdate, hempty, hmaint, hrec, processTopicEntries_nil, if_false,
    Bool.false_eq_true, hstep]
  split <;> simp [baseSnapshot, newSnapshot, hdelta, notifyLocalServerForDeletedBackend,
    updateFrontendExecutorMembership]

open Demo in
/-- Once the coordinator has registered itself, an empty delta is skipped. -/
theorem empty_delta_after_registration_skipped :
    let m := (updateMembership config init (membershipUpdate true [register "a" executorA]) (env 0)).1
    let update : TopicDelta := ⟨"impala-membership", [], true⟩
    skipsUpdate config m update (env 1) = true ∧
      let r := applyUpdate config m update (env 1)
        (m.recoveringMembership.isSome && !(env 1).ssIsRecovering)
        (m.baseSnapshot.executorBlacklist.needsMaintenance config.timeouts (env 1).now)
      r.1.baseSnapshot.currentBackends = m.baseSnapshot.currentBackends ∧
        r.1.baseSnapshot.executorGroups = m.baseSnapshot.executorGroups ∧
        r.1.baseSnapshot.executorBlacklist = m.baseSnapshot.executorBlacklist ∧
        ∀ d, Event.subscriberTopicUpdate d ∉ r.2 :=
  ⟨rfl, skipped_update_keeps_membership rfl⟩

/-! ## A replayed delta -/

open Demo

/-- After key `a` moved from `host-a` to `host-b` while `host-a` was blacklisted, a delta
registering key `c` at `host-a` keeps `host-a`'s stale entry when it is delivered, and drops
it when it is delivered again with nothing else changed. -/
theorem replayed_delta_drops_stale_blacklist_entry :
    ∃ m, Reachable config m ∧
      let once := (updateMembership config m (membershipUpdate true [register "c" executorA]) (env 3)).1
      let twice := (updateMembership config once (membershipUpdate true [register "c" executorA]) (env 3)).1
      m.recoveringMembership = none ∧ once.recoveringMembership = none ∧
        m.baseSnapshot.executorBlacklist.needsMaintenance config.timeouts 3 = false ∧
        once.baseSnapshot.executorBlacklist.needsMaintenance config.timeouts 3 = false ∧
        twice.currentMembership.currentBackends = once.currentMembership.currentBackends ∧
        twice.currentMembership.executorGroups = once.currentMembership.executorGroups ∧
        twice.currentMembership.executorBlacklist ≠ once.currentMembership.executorBlacklist :=
  reachable_of_run
    [.updateMembership (membershipUpdate true [register "a" executorA]) (env 0),
     .blacklistExecutor executorA 1,
     .updateMembership (membershipUpdate true [register "a" executorB]) (env 2)]
    ⟨_, rfl, rfl, rfl, rfl, rfl, rfl, rfl, by decide⟩

end ClusterMembershipMgr

end Impala.Scheduling
