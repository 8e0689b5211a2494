import Impala.Scheduling.ClusterMembership.Consistency
import Mathlib.Data.List.Chain

/-! # What a call publishes: versions, the local server's notification and the metrics

`SetState` installs the snapshot a call built; `update_local_server_fn_` receives the
address set of the new `current_backends` when the call's `update_local_server` flag is
set. The flag is set by a deleted item, by a full update and by the end of the grace
period. The version is bumped once per `UpdateMembership` call, on a snapshot that a full
update starts from scratch, and `BlacklistExecutor` publishes without bumping it.
-/

namespace Impala.Scheduling

/-- The snapshot `SetState` installed during a call, if it did. -/
def installedSnapshot (events : List Event) : Option Snapshot :=
  events.findSome? fun
    | .setState s => some s
    | _ => none

/-- The address set a call passed to `update_local_server_fn_`, if it called it. -/
def localServerNotification (events : List Event) : Option (List NetworkAddress) :=
  events.findSome? fun
    | .updateLocalServer currentBackendSet => some currentBackendSet
    | _ => none

@[simp] theorem installedSnapshot_nil : installedSnapshot [] = none := rfl

@[simp] theorem installedSnapshot_append (es es' : List Event) :
    installedSnapshot (es ++ es') = (installedSnapshot es).or (installedSnapshot es') :=
  List.findSome?_append

@[simp] theorem localServerNotification_nil : localServerNotification [] = none := rfl

@[simp] theorem localServerNotification_append (es es' : List Event) :
    localServerNotification (es ++ es') = (localServerNotification es).or (localServerNotification es') :=
  List.findSome?_append

@[simp] theorem installedSnapshot_setState (s : Snapshot) : installedSnapshot [.setState s] = some s := rfl

@[simp] theorem localServerNotification_setState (s : Snapshot) :
    localServerNotification [.setState s] = none := rfl

namespace ClusterMembershipMgr

variable {cfg : Config}

@[simp] theorem installedSnapshot_notifyLocalServerForDeletedBackend (bs : BackendIdMap) :
    installedSnapshot (notifyLocalServerForDeletedBackend cfg bs) = none := by
  unfold notifyLocalServerForDeletedBackend; split <;> rfl

@[simp] theorem localServerNotification_notifyLocalServerForDeletedBackend (bs : BackendIdMap) :
    localServerNotification (notifyLocalServerForDeletedBackend cfg bs) =
      if cfg.hasUpdateLocalServerFn then some bs.addressSet else none := by
  unfold notifyLocalServerForDeletedBackend; split <;> rfl

@[simp] theorem installedSnapshot_updateFrontendExecutorMembership (bs : BackendIdMap) :
    installedSnapshot (updateFrontendExecutorMembership cfg bs) = none := by
  unfold updateFrontendExecutorMembership; split <;> rfl

@[simp] theorem localServerNotification_updateFrontendExecutorMembership (bs : BackendIdMap) :
    localServerNotification (updateFrontendExecutorMembership cfg bs) = none := by
  unfold updateFrontendExecutorMembership; split <;> rfl

@[simp] theorem installedSnapshot_localBackendStep (s : Snapshot) (l : Option BackendDescriptor) :
    installedSnapshot (localBackendStep cfg s l).2 = none := by
  unfold localBackendStep; split
  · split <;> rfl
  · rfl

@[simp] theorem localServerNotification_localBackendStep (s : Snapshot) (l : Option BackendDescriptor) :
    localServerNotification (localBackendStep cfg s l).2 = none := by
  unfold localBackendStep; split
  · split <;> rfl
  · rfl

/-! ## The notification of the local server -/

/-- What `applyUpdate` installs, and what it passes `update_local_server_fn_`: outside the
grace period the new snapshot, and its address set when the loop's flag is set. -/
theorem applyUpdate_events (m : ClusterMembershipMgr) (update : TopicDelta) (env : Env)
    (updateLocalServer needsBlacklistMaintenance : Bool) :
    let r := applyUpdate cfg m update env updateLocalServer needsBlacklistMaintenance
    installedSnapshot r.2 = (if env.ssIsRecovering then none else some r.1.currentMembership) ∧
    localServerNotification r.2 =
      if !env.ssIsRecovering && (processTopicEntries cfg (newSnapshot m update env)
          (updateLocalServer || !update.isDelta) update.topicEntries).2 && cfg.hasUpdateLocalServerFn
      then some r.1.currentMembership.currentBackends.addressSet else none := by
  unfold applyUpdate
  by_cases hrec : env.ssIsRecovering <;>
    by_cases hflag : (processTopicEntries cfg (newSnapshot m update env)
      (updateLocalServer || !update.isDelta) update.topicEntries).2 <;> simp [hrec, hflag]

/-- A call that publishes ran `applyUpdate` on the membership update outside the grace
period, and published the snapshot it built. -/
theorem updateMembership_of_installed {m : ClusterMembershipMgr}
    {incomingTopicDeltas : TopicDeltaMap} {env : Env} {update : TopicDelta} {s : Snapshot}
    (hupdate : incomingTopicDeltas.lookup cfg.membershipTopic = some update)
    (hpub : installedSnapshot (updateMembership cfg m incomingTopicDeltas env).2 = some s) :
    env.ssIsRecovering = false ∧
      updateMembership cfg m incomingTopicDeltas env =
        applyUpdate cfg m update env (m.recoveringMembership.isSome && !env.ssIsRecovering)
          (m.baseSnapshot.executorBlacklist.needsMaintenance cfg.timeouts env.now) ∧
      s = (updateMembership cfg m incomingTopicDeltas env).1.currentMembership := by
  rcases updateMembership_cases m incomingTopicDeltas env with h | ⟨update', hupdate', -, h⟩ <;>
    rw [h] at hpub ⊢
  · simp at hpub
  · obtain rfl : update' = update := Option.some.inj (hupdate'.symm.trans hupdate)
    rw [(applyUpdate_events m update' env _ _).1] at hpub
    cases hrec : env.ssIsRecovering <;> simp [hrec] at hpub
    exact ⟨rfl, rfl, by simpa using hpub.symm⟩

/-- A call that publishes after deleting a known key, after a full update, or at the end of
the grace period passes `update_local_server_fn_` the address set of the snapshot it
installs. -/
theorem updateMembership_notifies {m : ClusterMembershipMgr} {incomingTopicDeltas : TopicDeltaMap}
    {env : Env} {update : TopicDelta} {s : Snapshot} (hfn : cfg.hasUpdateLocalServerFn = true)
    (hupdate : incomingTopicDeltas.lookup cfg.membershipTopic = some update)
    (hpub : installedSnapshot (updateMembership cfg m incomingTopicDeltas env).2 = some s)
    (hcause : update.isDelta = false ∨ m.recoveringMembership.isSome ∨
      ∃ item ∈ update.topicEntries, item.deleted = true ∧
        (m.baseSnapshot.currentBackends.lookup item.key).isSome) :
    localServerNotification (updateMembership cfg m incomingTopicDeltas env).2 =
      some s.currentBackends.addressSet := by
  obtain ⟨hrec, h, rfl⟩ := updateMembership_of_installed hupdate hpub
  rw [h, (applyUpdate_events m update env _ _).2]
  have hflag := @processTopicEntries_flag cfg (newSnapshot m update env)
    ((m.recoveringMembership.isSome && !env.ssIsRecovering) || !update.isDelta)
    update.topicEntries (by
      rcases hcause with hfull | hrecov | ⟨item, hmem, hdel, hkey⟩
      · exact .inl (by simp only [hfull, Bool.not_false, Bool.or_true])
      · exact .inl (by simp only [hrecov, hrec, Bool.not_false, Bool.and_self, Bool.true_or])
      · cases hdelta : update.isDelta
        · exact .inl (by simp only [Bool.not_false, Bool.or_true])
        · exact .inr ⟨item, hmem, hdel, by simpa only [newSnapshot_currentBackends, hdelta, if_true] using hkey⟩)
  rw [hflag, hrec, hfn]
  rfl

open Demo in
/-- Deleting key `a` after registering it notifies the local server. -/
theorem deleting_a_backend_notifies :
    let m := (updateMembership config init (membershipUpdate true [register "a" executorA]) (env 0)).1
    let r := updateMembership config m (membershipUpdate true [⟨"a", none, true⟩]) (env 1)
    localServerNotification r.2 = some r.1.currentMembership.currentBackends.addressSet :=
  updateMembership_notifies rfl rfl rfl (.inr (.inr ⟨_, .head _, rfl, rfl⟩))

/-! ## Versions -/

/-- The snapshot `applyUpdate` builds has the version of `newSnapshot`; it becomes the
recovering snapshot during the grace period, else the published one. -/
theorem applyUpdate_version (m : ClusterMembershipMgr) (update : TopicDelta) (env : Env)
    (updateLocalServer needsBlacklistMaintenance : Bool) :
    let r := (applyUpdate cfg m update env updateLocalServer needsBlacklistMaintenance).1
    if env.ssIsRecovering then
      r.currentMembership = m.currentMembership ∧
        ∃ s, r.recoveringMembership = some s ∧ s.version = (newSnapshot m update env).version
    else r.recoveringMembership = none ∧ r.currentMembership.version = (newSnapshot m update env).version := by
  unfold applyUpdate
  by_cases hrec : env.ssIsRecovering <;> simp [hrec, apply_ite Snapshot.version, blacklistMaintenance]

/-- The recovering snapshot, if any, is newer than the published one. -/
def VersionsOrdered (m : ClusterMembershipMgr) : Prop :=
  ∀ r, m.recoveringMembership = some r → m.currentMembership.version < r.version

theorem versionsOrdered_init : VersionsOrdered init := by
  simp [VersionsOrdered, init]

theorem VersionsOrdered.le_base {m : ClusterMembershipMgr} (hv : VersionsOrdered m) :
    m.currentMembership.version ≤ m.baseSnapshot.version := by
  unfold baseSnapshot
  cases h : m.recoveringMembership with
  | none => exact le_refl _
  | some r => exact le_of_lt (hv r h)

end ClusterMembershipMgr

/-- A delta `UpdateMembership` call, or one whose topic map has no membership update. -/
def Action.isDeltaUpdate (cfg : Config) : Action → Bool
  | .updateMembership incomingTopicDeltas _ =>
    (incomingTopicDeltas.lookup cfg.membershipTopic).all (·.isDelta)
  | .blacklistExecutor _ _ => false

namespace ClusterMembershipMgr

variable {cfg : Config}

theorem applyUpdate_versionsOrdered {m : ClusterMembershipMgr} {update : TopicDelta}
    (hv : VersionsOrdered m) (hdelta : update.isDelta = true) (env : Env)
    (updateLocalServer needsBlacklistMaintenance : Bool) :
    let r := applyUpdate cfg m update env updateLocalServer needsBlacklistMaintenance
    VersionsOrdered r.1 ∧ m.currentMembership.version ≤ r.1.currentMembership.version ∧
      ∀ s, installedSnapshot r.2 = some s →
        s = r.1.currentMembership ∧ m.currentMembership.version < s.version := by
  have hver := @applyUpdate_version cfg m update env updateLocalServer needsBlacklistMaintenance
  have hinst := (@applyUpdate_events cfg m update env updateLocalServer needsBlacklistMaintenance).1
  dsimp only at hver hinst ⊢
  generalize applyUpdate cfg m update env updateLocalServer needsBlacklistMaintenance = r at hver hinst ⊢
  have hnew : (newSnapshot m update env).version = m.baseSnapshot.version + 1 := by simp [hdelta]
  have hle := hv.le_base
  by_cases hrec : env.ssIsRecovering
  · simp only [hrec, if_true] at hver hinst
    obtain ⟨hcur, s, hs, hsv⟩ := hver
    refine ⟨fun r' hr' => ?_, by rw [hcur], by simp [hinst]⟩
    cases hs.symm.trans hr'
    rw [hcur]
    omega
  · simp only [hrec, Bool.false_eq_true, if_false] at hver hinst
    obtain ⟨hnone, hv'⟩ := hver
    refine ⟨by simp [VersionsOrdered, hnone], by omega, fun s hs => ?_⟩
    cases hinst.symm.trans hs
    exact ⟨rfl, by omega⟩

/-- A delta update keeps the recovering snapshot newer than the published one, and what it
installs is newer than what was published. -/
theorem step_versionsOrdered {m m' : ClusterMembershipMgr} {a : Action} {events : List Event}
    (hv : VersionsOrdered m) (ha : a.isDeltaUpdate cfg) (h : step cfg m a = some (m', events)) :
    VersionsOrdered m' ∧ m.currentMembership.version ≤ m'.currentMembership.version ∧
      ∀ s, installedSnapshot events = some s →
        s = m'.currentMembership ∧ m.currentMembership.version < s.version := by
  cases a with
  | blacklistExecutor => simp [Action.isDeltaUpdate] at ha
  | updateMembership incomingTopicDeltas env =>
    simp only [step, Option.some.injEq] at h
    obtain ⟨rfl, rfl⟩ := Prod.ext_iff.mp h.symm
    unfold updateMembership
    cases hupdate : incomingTopicDeltas.lookup cfg.membershipTopic with
    | none => simpa using hv
    | some update =>
      have hdelta : update.isDelta = true := by simpa [Action.isDeltaUpdate, hupdate] using ha
      dsimp only
      split
      · simpa using hv
      · exact applyUpdate_versionsOrdered hv hdelta env _ _

/-- Over a run of delta updates from a state whose recovering snapshot is newer than the
published one, the snapshots `SetState` installs have strictly increasing versions, all
above the published one. -/
theorem run_delta_updates_versions_increase {m m' : ClusterMembershipMgr} {acts : List Action}
    {events : List (List Event)} (hv : VersionsOrdered m) (hacts : ∀ a ∈ acts, a.isDeltaUpdate cfg)
    (h : run cfg m acts = some (m', events)) :
    List.Chain (· < ·) m.currentMembership.version
      ((events.filterMap installedSnapshot).map (·.version)) := by
  induction acts generalizing m events with
  | nil =>
    cases h
    exact .nil
  | cons a acts ih =>
    simp only [run, Option.bind_eq_some, Option.map_eq_some'] at h
    obtain ⟨r, hstep, t, hrun, ht⟩ := h
    cases ht
    obtain ⟨hv', hle, hinst⟩ := step_versionsOrdered hv (hacts a (.head _)) hstep
    have hrest := ih hv' (fun a' ha' => hacts a' (.tail _ ha')) hrun
    cases hs : installedSnapshot r.2 with
    | none =>
      simpa [hs] using List.Chain'.imp_head (fun hz => lt_of_le_of_lt hle hz) hrest
    | some s =>
      obtain ⟨rfl, hlt⟩ := hinst s hs
      simpa [hs] using List.Chain.cons hlt hrest

open Demo in
/-- Two deltas from the constructor publish increasing versions. -/
theorem two_deltas_publish_increasing_versions :
    ∃ m events, run config init
        [.updateMembership (membershipUpdate true [register "a" executorA]) (env 0),
         .updateMembership (membershipUpdate true [register "b" executorB]) (env 1)] = some (m, events) ∧
      List.Chain (· < ·) init.currentMembership.version
        ((events.filterMap installedSnapshot).map (·.version)) :=
  ⟨_, _, rfl, @run_delta_updates_versions_increase config init _
    [.updateMembership (membershipUpdate true [register "a" executorA]) (env 0),
     .updateMembership (membershipUpdate true [register "b" executorB]) (env 1)] _
    versionsOrdered_init (by decide) rfl⟩

theorem full_update_publishes_version_one {m : ClusterMembershipMgr}
    {incomingTopicDeltas : TopicDeltaMap} {env : Env} {update : TopicDelta} {s : Snapshot}
    (hupdate : incomingTopicDeltas.lookup cfg.membershipTopic = some update)
    (hfull : update.isDelta = false)
    (hpub : installedSnapshot (updateMembership cfg m incomingTopicDeltas env).2 = some s) :
    s = (updateMembership cfg m incomingTopicDeltas env).1.currentMembership ∧ s.version = 1 := by
  obtain ⟨hrec, h, rfl⟩ := updateMembership_of_installed hupdate hpub
  have hver := @applyUpdate_version cfg m update env (m.recoveringMembership.isSome && !env.ssIsRecovering)
    (m.baseSnapshot.executorBlacklist.needsMaintenance cfg.timeouts env.now)
  simp only [hrec, Bool.false_eq_true, if_false] at hver
  rw [h]
  simpa [hfull, hrec] using hver.2

theorem blacklistExecutor_keeps_version {m m' : ClusterMembershipMgr} {beDesc : BackendDescriptor}
    {now : Nat} {events : List Event} {s : Snapshot}
    (h : blacklistExecutor cfg m beDesc now = some (m', events))
    (hpub : installedSnapshot events = some s) :
    s = m'.currentMembership ∧ s.version = m.currentMembership.version := by
  rcases blacklistExecutor_cases h with ⟨-, rfl⟩ | ⟨_, rfl, ⟨-, -, rfl⟩ | ⟨hrec, rfl, rfl⟩⟩
  · simp at hpub
  · simp at hpub
  · simp only [installedSnapshot_setState, Option.some.injEq] at hpub
    subst hpub
    simp [baseSnapshot, hrec]

/-- The version of what a call publishes: newer than the published snapshot after a delta
update, 1 after a full update, and the published version again after `BlacklistExecutor`. -/
theorem step_installed_version {m m' : ClusterMembershipMgr} {a : Action} {events : List Event}
    {s : Snapshot} (hv : VersionsOrdered m) (h : step cfg m a = some (m', events))
    (hpub : installedSnapshot events = some s) :
    s = m'.currentMembership ∧
      match a with
      | .updateMembership incomingTopicDeltas _ =>
        if (incomingTopicDeltas.lookup cfg.membershipTopic).all (·.isDelta) then
          m.currentMembership.version < s.version
        else s.version = 1
      | .blacklistExecutor _ _ => s.version = m.currentMembership.version := by
  cases a with
  | updateMembership incomingTopicDeltas env =>
    by_cases hd : (incomingTopicDeltas.lookup cfg.membershipTopic).all (·.isDelta)
    · obtain ⟨-, -, hinst⟩ := step_versionsOrdered hv (by simpa [Action.isDeltaUpdate] using hd) h
      obtain ⟨rfl, hlt⟩ := hinst s hpub
      simp [hd, hlt]
    · simp only [step, Option.some.injEq] at h
      obtain ⟨rfl, rfl⟩ := Prod.ext_iff.mp h.symm
      obtain ⟨update, hupdate, hfull⟩ : ∃ update, incomingTopicDeltas.lookup cfg.membershipTopic =
          some update ∧ update.isDelta = false := by
        cases hl : incomingTopicDeltas.lookup cfg.membershipTopic with
        | none => simp [hl] at hd
        | some update => exact ⟨update, rfl, by simpa [hl] using hd⟩
      obtain ⟨hs, h1⟩ := full_update_publishes_version_one hupdate hfull hpub
      exact ⟨hs, by simpa [hd] using h1⟩
  | blacklistExecutor beDesc now => exact blacklistExecutor_keeps_version h hpub

/-! ## Metrics -/

/-- The `DCHECK_GE` of `UpdateMetrics`: no more groups are healthy than live. -/
theorem updateMetrics_healthy_le_live (currentBackends : BackendIdMap)
    (executorGroups : ExecutorGroups) :
    (updateMetrics currentBackends executorGroups).totalHealthyExecutorGroups ≤
      (updateMetrics currentBackends executorGroups).totalLiveExecutorGroups := by
  unfold updateMetrics
  dsimp only
  generalize hc : ((0, 0) : Nat × Nat) = c
  have h0 : c.2 ≤ c.1 := by subst hc; exact le_rfl
  clear hc
  induction executorGroups generalizing c with
  | nil => exact h0
  | cons group groups ih =>
    rw [List.foldl_cons]
    exact ih _ (by split_ifs <;> (try dsimp only) <;> omega)

/-! ## Runs that break the two laws -/

open Demo

/-- After two deltas publish versions 1 and 2, a full update of the same two backends
starts from a fresh `Snapshot` and publishes version 1. -/
theorem full_update_lowers_version :
    ∃ m, Reachable config m ∧
      let r := updateMembership config m
        (membershipUpdate false [register "a" executorA, register "b" executorB]) (env 2)
      installedSnapshot r.2 = some r.1.currentMembership ∧
        r.1.currentMembership.version < m.currentMembership.version :=
  reachable_of_run
    [.updateMembership (membershipUpdate true [register "a" executorA]) (env 0),
     .updateMembership (membershipUpdate true [register "b" executorB]) (env 1)]
    ⟨_, rfl, rfl, by decide⟩

/-- Key `a` moves from `host-a` to `host-b`: `host-a` leaves `current_backends`, and the
call publishes without calling `update_local_server_fn_`. -/
theorem address_update_not_notified :
    ∃ m, Reachable config m ∧
      let r := updateMembership config m (membershipUpdate true [register "a" executorB]) (env 1)
      installedSnapshot r.2 = some r.1.currentMembership ∧
        (∃ address ∈ m.currentMembership.currentBackends.addressSet,
          address ∉ r.1.currentMembership.currentBackends.addressSet) ∧
        localServerNotification r.2 = none :=
  reachable_of_run [.updateMembership (membershipUpdate true [register "a" executorA]) (env 0)]
    ⟨_, rfl, rfl, by decide, rfl⟩

end ClusterMembershipMgr

end Impala.Scheduling
