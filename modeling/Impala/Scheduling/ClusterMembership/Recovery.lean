import Impala.Scheduling.ClusterMembership.Consistency

/-!
# The post-recovery grace period delays publication and loses no update

During the statestore's post-recovery grace period `UpdateMembership` applies each update to
`recovering_membership_` and publishes nothing; the first call after it publishes that
snapshot. Both start from the same base snapshot, so a manager that went through the grace
period publishes at its end the membership the same calls publish one by one without it.
Versions, the local descriptor and the notifications may differ. `BlacklistExecutor` reads the
published snapshot's local descriptor, which the grace period leaves stale, and is left out.
-/

namespace Impala.Scheduling

/-- Two snapshots hold the same membership: the same backends, executor groups and
blacklist, and a local descriptor in both or in neither. -/
structure Snapshot.SameMembership (a b : Snapshot) : Prop where
  currentBackends : a.currentBackends = b.currentBackends
  executorGroups : a.executorGroups = b.executorGroups
  executorBlacklist : a.executorBlacklist = b.executorBlacklist
  localBeDesc : a.localBeDesc.isSome = b.localBeDesc.isSome

theorem Snapshot.SameMembership.refl (a : Snapshot) : a.SameMembership a := ⟨rfl, rfl, rfl, rfl⟩

theorem Snapshot.SameMembership.trans {a b c : Snapshot} (h : a.SameMembership b)
    (h' : b.SameMembership c) : a.SameMembership c :=
  ⟨h.1.trans h'.1, h.2.trans h'.2, h.3.trans h'.3, h.4.trans h'.4⟩

namespace ClusterMembershipMgr

variable (cfg : Config) {a b : Snapshot}

/-! ## Each part of a call reads only the membership -/

theorem sameMembership_processTopicItem (h : a.SameMembership b) (u u' : Bool) (item : TopicItem) :
    (processTopicItem cfg a u item).1.SameMembership (processTopicItem cfg b u' item).1 := by
  obtain ⟨h1, h2, h3, h4⟩ := h
  unfold processTopicItem
  rw [h1, h2, h3]
  -- the item changes the three parts alike on both snapshots, or changes neither
  have same : (a, u).1.SameMembership (b, u').1 := ⟨h1, h2, h3, h4⟩
  split
  · split
    · exact same
    · exact ⟨rfl, rfl, rfl, h4⟩
  · split
    · exact same
    · split
      · exact same
      · split <;> exact ⟨rfl, rfl, rfl, h4⟩

theorem sameMembership_processTopicEntries (h : a.SameMembership b) (u u' : Bool)
    (items : List TopicItem) :
    (processTopicEntries cfg a u items).1.SameMembership (processTopicEntries cfg b u' items).1 := by
  induction items generalizing a b u u' with
  | nil => exact h
  | cons item items ih => exact ih (sameMembership_processTopicItem cfg h u u' item) _ _

theorem needsLocalBackendUpdate_congr (h : a.SameMembership b) (l : Option BackendDescriptor) :
    needsLocalBackendUpdate cfg a l = needsLocalBackendUpdate cfg b l := by
  cases l with
  | none => rfl
  | some l =>
    obtain ⟨h1, -, -, h4⟩ := h
    simp only [needsLocalBackendUpdate, h1]
    cases b.currentBackends.lookup cfg.localBackendId <;> cases ha : a.localBeDesc <;>
      cases hb : b.localBeDesc <;> simp [ha, hb] at h4 ⊢

theorem sameMembership_blacklistMaintenance (h : a.SameMembership b) (now : Nat) :
    (blacklistMaintenance cfg a now).SameMembership (blacklistMaintenance cfg b now) := by
  unfold blacklistMaintenance
  rw [h.executorBlacklist, h.executorGroups]
  exact ⟨h.currentBackends, rfl, rfl, h.localBeDesc⟩

theorem sameMembership_localBackendStep (h : a.SameMembership b) (l : Option BackendDescriptor) :
    (localBackendStep cfg a l).1.SameMembership (localBackendStep cfg b l).1 := by
  unfold localBackendStep
  cases l with
  | none => exact h
  | some l =>
    dsimp only
    rw [needsLocalBackendUpdate_congr cfg h]
    split_ifs
    · simp only [updateLocalBackend, h.currentBackends, h.executorGroups]
      exact ⟨rfl, rfl, h.executorBlacklist, h.localBeDesc⟩
    · exact h

theorem localBackendStep_of_needs_false {s : Snapshot} {l : Option BackendDescriptor}
    (h : needsLocalBackendUpdate cfg s l = false) : localBackendStep cfg s l = (s, []) := by
  unfold localBackendStep
  cases l with
  | none => rfl
  | some l => simp [h]

variable {mA mB : ClusterMembershipMgr}

theorem sameMembership_newSnapshot (h : mA.baseSnapshot.SameMembership mB.baseSnapshot)
    (update : TopicDelta) {env env' : Env} (hl : env.localBeDesc = env'.localBeDesc) :
    (newSnapshot mA update env).SameMembership (newSnapshot mB update env') := by
  unfold newSnapshot
  rw [hl]
  split
  · exact ⟨h.currentBackends, h.executorGroups, h.executorBlacklist, by
      cases env'.localBeDesc <;> simp [h.localBeDesc]⟩
  · exact ⟨rfl, rfl, rfl, rfl⟩

/-- `UpdateMembership` past its early return builds on the new snapshot whether it keeps it
as the recovering one or publishes it. -/
theorem applyUpdate_baseSnapshot (m : ClusterMembershipMgr) (update : TopicDelta) (env : Env)
    (u nm : Bool) :
    (applyUpdate cfg m update env u nm).1.baseSnapshot =
      (localBackendStep cfg
        (if nm then
          blacklistMaintenance cfg (processTopicEntries cfg (newSnapshot m update env)
            (u || !update.isDelta) update.topicEntries).1 env.now
        else (processTopicEntries cfg (newSnapshot m update env)
            (u || !update.isDelta) update.topicEntries).1) env.localBeDesc).1 := by
  unfold applyUpdate
  cases env.ssIsRecovering <;> rfl

theorem sameMembership_applyUpdate (h : mA.baseSnapshot.SameMembership mB.baseSnapshot)
    (update : TopicDelta) (env env' : Env) (hl : env.localBeDesc = env'.localBeDesc)
    (hn : env.now = env'.now) (u u' nm : Bool) :
    (applyUpdate cfg mA update env u nm).1.baseSnapshot.SameMembership
      (applyUpdate cfg mB update env' u' nm).1.baseSnapshot := by
  have hitems := sameMembership_processTopicEntries cfg
    (sameMembership_newSnapshot h update hl) (u || !update.isDelta) (u' || !update.isDelta)
    update.topicEntries
  rw [applyUpdate_baseSnapshot, applyUpdate_baseSnapshot, ← hl, ← hn]
  split
  · exact sameMembership_localBackendStep cfg (sameMembership_blacklistMaintenance cfg hitems _) _
  · exact sameMembership_localBackendStep cfg hitems _

/-- The early-return test of `UpdateMembership` but for a recovering snapshot to publish:
an empty delta, no local backend update and no blacklist maintenance due. -/
theorem skipsUpdate_of_published {m : ClusterMembershipMgr} (update : TopicDelta) (env : Env)
    (h : m.recoveringMembership = none) :
    skipsUpdate cfg m update env = (update.isDelta && update.topicEntries.isEmpty &&
      !needsLocalBackendUpdate cfg m.baseSnapshot env.localBeDesc &&
      !m.baseSnapshot.executorBlacklist.needsMaintenance cfg.timeouts env.now) := by
  simp [skipsUpdate, h]

theorem quiet_of_skipsUpdate {m : ClusterMembershipMgr} {update : TopicDelta} {env : Env}
    (h : skipsUpdate cfg m update env = true) :
    (update.isDelta && update.topicEntries.isEmpty &&
      !needsLocalBackendUpdate cfg m.baseSnapshot env.localBeDesc &&
      !m.baseSnapshot.executorBlacklist.needsMaintenance cfg.timeouts env.now) = true := by
  simp only [skipsUpdate, Bool.and_eq_true] at h ⊢
  exact ⟨h.1.1, h.2⟩

/-- A call with nothing to do but publish a recovering snapshot changes no membership. -/
theorem sameMembership_applyUpdate_quiet (m : ClusterMembershipMgr) (update : TopicDelta)
    (env : Env) (u : Bool)
    (hq : (update.isDelta && update.topicEntries.isEmpty &&
      !needsLocalBackendUpdate cfg m.baseSnapshot env.localBeDesc &&
      !m.baseSnapshot.executorBlacklist.needsMaintenance cfg.timeouts env.now) = true) :
    (applyUpdate cfg m update env u
      (m.baseSnapshot.executorBlacklist.needsMaintenance cfg.timeouts env.now)).1.baseSnapshot.SameMembership
      m.baseSnapshot := by
  simp only [Bool.and_eq_true, Bool.not_eq_true', List.isEmpty_iff] at hq
  obtain ⟨⟨⟨hd, he⟩, hl⟩, hm⟩ := hq
  -- a descriptor the call knows was known before, or the local backend would need an update
  have hnew : (newSnapshot m update env).SameMembership m.baseSnapshot := by
    unfold newSnapshot
    rw [if_pos hd]
    refine ⟨rfl, rfl, rfl, ?_⟩
    cases hloc : env.localBeDesc with
    | none => rfl
    | some l =>
      rw [hloc] at hl
      cases hb : m.baseSnapshot.localBeDesc <;> simp_all [needsLocalBackendUpdate]
  rw [applyUpdate_baseSnapshot, hm, if_neg Bool.false_ne_true, he, processTopicEntries_nil,
    localBackendStep_of_needs_false cfg ((needsLocalBackendUpdate_congr cfg hnew _).trans hl)]
  exact hnew

theorem baseSnapshot_of_published {m : ClusterMembershipMgr} (h : m.recoveringMembership = none) :
    m.baseSnapshot = m.currentMembership := by
  simp [baseSnapshot, h]

/-! ## Runs with and without the grace period -/

/-- A manager that went through the grace period, and one that received the same calls
without it: the snapshot the first builds on holds the membership the second published, and
the second keeps no recovering snapshot. -/
structure GraceRelated (mA mB : ClusterMembershipMgr) : Prop where
  same : mA.baseSnapshot.SameMembership mB.currentMembership
  published : mB.recoveringMembership = none

/-- One call, made during the grace period or after it, and the same call made to the
manager without a grace period, keep the two related. Each either skips, or builds the same
membership from the same one; only the first may have a recovering snapshot to publish, and
then the call it does not skip changes no membership. -/
theorem graceRelated_updateMembership (h : GraceRelated mA mB) (d : TopicDeltaMap) (env : Env) :
    GraceRelated (updateMembership cfg mA d env).1
      (updateMembership cfg mB d { env with ssIsRecovering := false }).1 := by
  have hbase := baseSnapshot_of_published h.published
  have hsame : mA.baseSnapshot.SameMembership mB.baseSnapshot := hbase ▸ h.same
  have hloc := needsLocalBackendUpdate_congr cfg hsame env.localBeDesc
  have hbl := hsame.executorBlacklist
  unfold updateMembership
  cases d.lookup cfg.membershipTopic with
  | none => exact h
  | some update =>
    dsimp only
    rw [skipsUpdate_of_published cfg update _ h.published]
    cases hA : skipsUpdate cfg mA update env <;> cases hB : (update.isDelta &&
        update.topicEntries.isEmpty && !needsLocalBackendUpdate cfg mB.baseSnapshot env.localBeDesc &&
        !mB.baseSnapshot.executorBlacklist.needsMaintenance cfg.timeouts env.now)
    · -- both build the new snapshot from the same membership
      rw [if_neg Bool.false_ne_true, if_neg Bool.false_ne_true]
      have hpub : (applyUpdate cfg mB update { env with ssIsRecovering := false } false
          (mB.baseSnapshot.executorBlacklist.needsMaintenance cfg.timeouts env.now)).1.recoveringMembership =
          none := by
        unfold applyUpdate; rfl
      refine ⟨?_, by simpa [h.published] using hpub⟩
      rw [← baseSnapshot_of_published (by simpa [h.published] using hpub), hbl]
      simpa [h.published] using sameMembership_applyUpdate cfg hsame update env
        { env with ssIsRecovering := false } rfl rfl
        (mA.recoveringMembership.isSome && !env.ssIsRecovering) false _
    · -- only the first has a recovering snapshot to publish, and the update is quiet
      rw [if_neg Bool.false_ne_true, if_pos rfl]
      have hq := sameMembership_applyUpdate_quiet cfg mA update env
        (mA.recoveringMembership.isSome && !env.ssIsRecovering) (by rwa [hloc, hbl])
      exact ⟨hq.trans h.same, h.published⟩
    · -- the first skips, so the second does too
      have := quiet_of_skipsUpdate cfg hA
      rw [hloc, hbl, hB] at this
      cases this
    · rw [if_pos rfl, if_pos rfl]
      exact h

theorem graceRelated_run (h : GraceRelated mA mB) (calls : List (TopicDeltaMap × Env))
    {mA' mB' : ClusterMembershipMgr} {evA evB : List (List Event)}
    (hA : run cfg mA (calls.map fun c => .updateMembership c.1 c.2) = some (mA', evA))
    (hB : run cfg mB (calls.map fun c => .updateMembership c.1 { c.2 with ssIsRecovering := false }) =
      some (mB', evB)) :
    GraceRelated mA' mB' := by
  induction calls generalizing mA mB evA evB with
  | nil =>
    cases hA
    cases hB
    exact h
  | cons c calls ih =>
    simp only [List.map_cons, run, step, Option.some_bind, Option.map_eq_some'] at hA hB
    obtain ⟨tA, hA, htA⟩ := hA
    obtain ⟨tB, hB, htB⟩ := hB
    cases htA
    cases htB
    exact ih (graceRelated_updateMembership cfg h c.1 c.2) hA hB

/-- A call that carries the membership topic outside the grace period leaves no recovering
snapshot: it publishes the one it built, or had none to publish and returned early. -/
theorem updateMembership_publishes (m : ClusterMembershipMgr) {d : TopicDeltaMap} {env : Env}
    (hd : (d.lookup cfg.membershipTopic).isSome) (hr : env.ssIsRecovering = false) :
    (updateMembership cfg m d env).1.recoveringMembership = none := by
  obtain ⟨update, hu⟩ := Option.isSome_iff_exists.mp hd
  unfold updateMembership
  rw [hu]
  dsimp only
  split
  · next hskip =>
    -- with the grace period over, only a manager without a recovering snapshot skips
    cases hrec : m.recoveringMembership
    · rfl
    · simp [skipsUpdate, hr, hrec] at hskip
  · unfold applyUpdate
    simp [hr]

/-- Along any sequence of `UpdateMembership` calls, a manager whose statestore subscriber
goes through the post-recovery grace period builds on the membership that a manager receiving
the same calls outside any grace period has published; and the first call carrying the
membership topic after the grace period publishes it, the same backends, executor groups and
blacklist as the other manager publishes at that call. -/
theorem grace_period_loses_no_update (m : ClusterMembershipMgr) (calls : List (TopicDeltaMap × Env))
    {mA mB : ClusterMembershipMgr} {evA evB : List (List Event)}
    (hA : run cfg m (calls.map fun c => .updateMembership c.1 c.2) = some (mA, evA))
    (hB : run cfg ⟨m.baseSnapshot, none, m.metrics⟩
      (calls.map fun c => .updateMembership c.1 { c.2 with ssIsRecovering := false }) =
        some (mB, evB)) :
    mA.baseSnapshot.SameMembership mB.currentMembership ∧
    ∀ (d : TopicDeltaMap) (env : Env), (d.lookup cfg.membershipTopic).isSome →
      env.ssIsRecovering = false →
      (updateMembership cfg mA d env).1.recoveringMembership = none ∧
        (updateMembership cfg mA d env).1.currentMembership.SameMembership
          (updateMembership cfg mB d env).1.currentMembership := by
  have h := graceRelated_run cfg ⟨.refl m.baseSnapshot, rfl⟩ calls hA hB
  refine ⟨h.same, fun d env hd hr => ?_⟩
  have hpub := updateMembership_publishes cfg mA hd hr
  have hstep := graceRelated_updateMembership cfg h d env
  have henv : { env with ssIsRecovering := false } = env := by cases env; simp_all
  rw [henv] at hstep
  exact ⟨hpub, baseSnapshot_of_published hpub ▸ hstep.same⟩

open Demo in
/-- Executor `a` registers during the grace period: the manager keeps it in its recovering
snapshot, which holds the membership a manager outside the grace period publishes. -/
theorem registration_during_grace_period_kept :
    ∃ mA mB evA evB,
      run config init [.updateMembership (membershipUpdate true [register "a" executorA])
        { env 0 with ssIsRecovering := true }] = some (mA, evA) ∧
      run config ⟨init.baseSnapshot, none, init.metrics⟩
        [.updateMembership (membershipUpdate true [register "a" executorA])
          { env 0 with ssIsRecovering := false }] = some (mB, evB) ∧
      (mA.baseSnapshot.SameMembership mB.currentMembership ∧
        ∀ (d : TopicDeltaMap) (e : Env), (d.lookup config.membershipTopic).isSome →
          e.ssIsRecovering = false →
          (updateMembership config mA d e).1.recoveringMembership = none ∧
            (updateMembership config mA d e).1.currentMembership.SameMembership
              (updateMembership config mB d e).1.currentMembership) :=
  ⟨_, _, _, _, rfl, rfl, grace_period_loses_no_update config init
    [(membershipUpdate true [register "a" executorA], { env 0 with ssIsRecovering := true })] rfl rfl⟩

end ClusterMembershipMgr

end Impala.Scheduling
