import Impala.Scheduling.ClusterMembership.Recovery
import Impala.Scheduling.ClusterMembership.Coherence

/-! # Blacklisting: once per failure, and only for a while

`BlacklistExecutor` returns unless the backend is in a group its descriptor names, and then
removes it from all of them, so a second call before a membership update changes nothing
(`blacklistExecutor_idempotent`). `UpdateMembership` runs `Maintenance` whenever an entry's
timeout has passed and puts the backends it moves to probation back into their groups
(`timed_out_executor_rejoins_groups`). A full update starts from an empty `Snapshot`, so what it
produces does not depend on the manager's state and blacklists nothing
(`full_update_rebuilds_membership`).
-/

namespace Impala.Scheduling

namespace ExecutorBlacklist

variable {bl : ExecutorBlacklist} {d : BackendDescriptor} {e : BlacklistEntry}

theorem mem_findAndRemove_of_ne (he : e ∈ bl) (ha : e.beDesc.address ≠ d.address) :
    e ∈ (bl.findAndRemove d).2 := by
  rw [findAndRemove_snd]
  exact List.mem_filter.mpr ⟨he, by simpa using ha⟩

variable {t : BlacklistTimeouts} {now : Nat}

/-- `Maintenance` moves a blacklisted entry whose timeout has passed to probation, and its
descriptor to the probation list. -/
theorem mem_maintenance_of_timedOut (he : e ∈ bl) (ht : timedOut t now e = true)
    (hst : e.state = .blacklisted) :
    { e with state := .onProbation } ∈ (bl.maintenance t now).1 ∧
      e.beDesc ∈ (bl.maintenance t now).2 :=
  ⟨List.mem_filterMap.mpr ⟨e, he, by simp [ht, hst]⟩,
    List.mem_map.mpr ⟨e, List.mem_filter.mpr ⟨he, by simp [ht, hst]⟩, rfl⟩⟩

end ExecutorBlacklist

namespace Demo

theorem blacklisting_fits : ∀ a ∈ ([.updateMembership (membershipUpdate true
    [register "a" executorA]) (env 0), .blacklistExecutor executorA 1] : List Action),
    registry.FitsAction config a := by
  simp only [List.mem_cons, List.mem_singleton, List.not_mem_nil, or_false]
  rintro a (rfl | rfl)
  · refine ⟨fun update hu item hi _ _ d hv => ?_, fun l hl => ?_⟩
    · cases hu
      obtain rfl := List.mem_singleton.mp hi
      cases hv
      exact ⟨rfl, rfl, rfl, rfl⟩
    · cases hl
      exact ⟨rfl, rfl, rfl, rfl⟩
  · exact ⟨⟨"a", rfl, rfl, rfl, rfl⟩, rfl⟩

end Demo

namespace ClusterMembershipMgr

variable {cfg : Config}

/-! ## A second report changes nothing -/

theorem lookUpBackendDesc_removeFromGroups_self {groups : ExecutorGroups} {d : BackendDescriptor}
    {desc : ExecutorGroupDesc} (hd : desc ∈ d.executorGroups) {g : ExecutorGroup}
    (hg : findExecutorGroup (removeFromGroups groups d) desc.name = some g) :
    (g.lookUpBackendDesc d.address).isSome = false := by
  have h : hasExecutorAt (removeFromGroups groups d) desc.name d.address = false :=
    hasExecutorAt_removeFromGroups_self hd
  simpa [hasExecutorAt, hg] using h

/-- `BlacklistExecutor` of a backend it has just been called for, at any time, changes nothing
and publishes nothing: the first call returned early, or took the backend out of every group
its descriptor names, so that the second finds it in none. In particular the entry keeps the
time of the first report and counts one blacklisting. -/
theorem blacklistExecutor_idempotent {m m' : ClusterMembershipMgr} {beDesc : BackendDescriptor}
    {now now' : Nat} {events : List Event}
    (h : blacklistExecutor cfg m beDesc now = some (m', events)) :
    blacklistExecutor cfg m' beDesc now' = some (m', []) := by
  unfold blacklistExecutor at h ⊢
  split at h
  · next hen => cases h; rw [if_pos hen]
  · next hen =>
    rw [if_neg hen]
    split at h
    · cases h
    · next l hl =>
      split at h
      · next href => cases h; simp only [hl, if_pos href]
      · next href =>
        dsimp only at h
        split at h
        · next habs => cases h; simp only [hl, if_neg href, habs, ↓reduceIte]
        · split at h <;> cases h <;>
            simp_all only [baseSnapshot, Option.getD_some, Option.not_isSome_iff_eq_none,
              Option.getD_none, ↓reduceIte]
          all_goals
            rw [if_pos]
            simp only [Bool.not_eq_true', List.any_eq_false]
            intro desc hd
            split
            · next g hg => simp [lookUpBackendDesc_removeFromGroups_self hd hg]
            · simp

open Demo in
/-- Executor `a` registers and is reported twice: the first report blacklists it and publishes
a snapshot, the second changes nothing. -/
theorem blacklistExecutor_idempotent_two_reports :
    let m :=
      (updateMembership config init (membershipUpdate true [register "a" executorA]) (env 0)).1
    ∃ m' events, blacklistExecutor config m executorA 1 = some (m', events) ∧ events ≠ [] ∧
      blacklistExecutor config m' executorA 5 = some (m', []) := by
  intro m
  have h : blacklistExecutor config m executorA 1 = some (_, _) := rfl
  exact ⟨_, _, h, List.cons_ne_nil _ _, blacklistExecutor_idempotent h⟩

/-! ## A blacklisted executor returns after its timeout -/

@[simp] theorem localBackendStep_executorBlacklist (s : Snapshot) (l : Option BackendDescriptor) :
    (localBackendStep cfg s l).1.executorBlacklist = s.executorBlacklist := by
  unfold localBackendStep
  split
  · split <;> rfl
  · rfl

theorem hasExecutorAt_localBackendStep {s : Snapshot} {l : Option BackendDescriptor}
    {name : String} {a : NetworkAddress} (h : hasExecutorAt s.executorGroups name a = true)
    (ha : ∀ l', l = some l' → a ≠ l'.address) :
    hasExecutorAt (localBackendStep cfg s l).1.executorGroups name a = true := by
  unfold localBackendStep
  split
  · next l' =>
    split
    · dsimp only [updateLocalBackend]
      split_ifs
      · exact hasExecutorAt_removeFromGroups h (ha l' rfl)
      · exact hasExecutorAt_addToGroups h
      · exact h
    · exact h
  · exact h

section Items

variable {reg : Registry} {s : Snapshot} {e : BlacklistEntry}

/-- An item whose key has another address than a blacklist entry leaves the entry as it is:
`FindAndRemove` looks for the item's descriptor, which fits the item's key. -/
theorem mem_processTopicItem (hs : s.Coherent reg cfg) (u : Bool) {item : TopicItem}
    (hfit : item.deleted = false → item.key ≠ cfg.localBackendId →
      ∀ d, item.value = some d → reg.Fits item.key d)
    (hne : reg.address item.key ≠ e.beDesc.address) (he : e ∈ s.executorBlacklist) :
    e ∈ (processTopicItem cfg s u item).1.executorBlacklist := by
  unfold processTopicItem
  split
  · split
    · exact he
    · next o ho =>
      have hf := hs.backends _ (BackendIdMap.mem_of_lookup_eq_some ho)
      exact ExecutorBlacklist.mem_findAndRemove_of_ne he
        fun ha => hne (hf.address.symm.trans ha.symm)
  · next hdel =>
    split
    · exact he
    · next d hv =>
      split
      · exact he
      · next hskip =>
        have hf := hfit (by simpa using hdel) (fun hk => hskip (by simp [hk])) d hv
        split
        · exact ExecutorBlacklist.mem_findAndRemove_of_ne he
            fun ha => hne (hf.address.symm.trans ha.symm)
        · exact he

theorem mem_processTopicEntries (hs : s.Coherent reg cfg) (u : Bool) {items : List TopicItem}
    (hfit : ∀ item ∈ items, item.deleted = false → item.key ≠ cfg.localBackendId →
      ∀ d, item.value = some d → reg.Fits item.key d)
    (hne : ∀ item ∈ items, reg.address item.key ≠ e.beDesc.address)
    (he : e ∈ s.executorBlacklist) :
    e ∈ (processTopicEntries cfg s u items).1.executorBlacklist := by
  induction items generalizing s u with
  | nil => exact he
  | cons item items ih =>
    rw [processTopicEntries_cons]
    have hfit₀ := hfit item (List.mem_cons_self _ _)
    exact ih (hs.processTopicItem u hfit₀) _ (fun i hi => hfit i (List.mem_cons_of_mem _ hi))
      (fun i hi => hne i (List.mem_cons_of_mem _ hi))
      (mem_processTopicItem hs u hfit₀ (hne item (List.mem_cons_self _ _)) he)

end Items

/-- Along every run of calls that keep to the registry, a blacklisted entry of the newest
snapshot whose timeout has passed at the time of a further such call with a delta that has no
item for its backend (an empty delta, the statestore's heartbeat, among them) is on probation
after the call, with no blacklisted entry left at its address, and the backend is back in every
group its descriptor names, in the snapshot the call publishes or, in the grace period, keeps
as the recovering one. -/
theorem timed_out_executor_rejoins_groups (reg : Registry) {acts : List Action}
    {m : ClusterMembershipMgr} {events : List (List Event)}
    (hfit : ∀ a ∈ acts, reg.FitsAction cfg a) (h : run cfg init acts = some (m, events))
    {e : BlacklistEntry} (he : e ∈ m.baseSnapshot.executorBlacklist)
    (hst : e.state = .blacklisted) {incomingTopicDeltas : TopicDeltaMap} {env : Env}
    {update : TopicDelta} (hfit' : reg.FitsAction cfg (.updateMembership incomingTopicDeltas env))
    (hu : incomingTopicDeltas.lookup cfg.membershipTopic = some update)
    (hdelta : update.isDelta = true)
    (hitems : ∀ item ∈ update.topicEntries, reg.address item.key ≠ e.beDesc.address)
    (ht : ExecutorBlacklist.timedOut cfg.timeouts env.now e = true) :
    let s := (updateMembership cfg m incomingTopicDeltas env).1.baseSnapshot
    (∀ desc ∈ e.beDesc.executorGroups,
      hasExecutorAt s.executorGroups desc.name e.beDesc.address = true) ∧
      { e with state := .onProbation } ∈ s.executorBlacklist ∧
      s.executorBlacklist.isBlacklisted e.beDesc = false := by
  intro s
  have hm := ((coherent_init : init.Coherent reg cfg).run hfit h).1
  have hneeds : m.baseSnapshot.executorBlacklist.needsMaintenance cfg.timeouts env.now = true :=
    List.any_eq_true.mpr ⟨e, he, ht⟩
  have hnew := hm.newSnapshot update hfit'.2
  have heNew : e ∈ (newSnapshot m update env).executorBlacklist := by
    simpa [newSnapshot, hdelta] using he
  generalize hitemsDef : processTopicEntries cfg (newSnapshot m update env)
    (m.recoveringMembership.isSome && !env.ssIsRecovering || !update.isDelta)
    update.topicEntries = items
  have hs : s = (localBackendStep cfg (blacklistMaintenance cfg items.1 env.now)
      env.localBeDesc).1 := by
    simp only [s, updateMembership, hu]
    rw [if_neg (by simp [skipsUpdate, hneeds]), applyUpdate_baseSnapshot, hneeds, hitemsDef,
      if_pos rfl]
  have hfitItems := hfit'.1 update hu
  have hitemsC : items.1.Coherent reg cfg := hitemsDef ▸ hnew.processTopicEntries _ hfitItems
  have heItems : e ∈ items.1.executorBlacklist := hitemsDef ▸
    mem_processTopicEntries hnew _ hfitItems hitems heNew
  obtain ⟨hprobation, hprob⟩ := ExecutorBlacklist.mem_maintenance_of_timedOut heItems ht hst
  obtain ⟨-, k, c, -, hk, hf, -⟩ := hitemsC.blacklist e heItems
  rw [hs]
  refine ⟨fun desc hdesc => hasExecutorAt_localBackendStep
      (hasExecutorAt_foldl_addToGroups_self hprob hdesc)
      fun l hl ha => hk (hf.key_eq (hfit'.2 l hl) ha), ?_, ?_⟩
  · simpa [blacklistMaintenance] using hprobation
  · simp only [localBackendStep_executorBlacklist, blacklistMaintenance]
    refine List.any_eq_false.mpr fun e' he' hb => ?_
    simp only [Bool.and_eq_true, decide_eq_true_eq] at hb
    exact ExecutorBlacklist.maintenance_probation hitemsC.addresses hprob e' he' hb.1 hb.2

open Demo in
/-- Executor `a` registers and is blacklisted at 1 ms; a delta at 20 ms, past its 10 ms
timeout, that deletes an unknown key puts it on probation and back in the default group. -/
theorem timed_out_executor_rejoins_groups_at_heartbeat :
    let acts : List Action :=
      [.updateMembership (membershipUpdate true [register "a" executorA]) (env 0),
       .blacklistExecutor executorA 1]
    let delta := membershipUpdate true [⟨"z", none, true⟩]
    (∀ a ∈ acts, registry.FitsAction config a) ∧
      ∃ m events, run config init acts = some (m, events) ∧
        ⟨executorA, .blacklisted, 1, 1⟩ ∈ m.baseSnapshot.executorBlacklist ∧
        let s := (updateMembership config m delta (env 20)).1.baseSnapshot
        (∀ desc ∈ executorA.executorGroups,
          hasExecutorAt s.executorGroups desc.name executorA.address = true) ∧
          ⟨executorA, .onProbation, 1, 1⟩ ∈ s.executorBlacklist ∧
          s.executorBlacklist.isBlacklisted executorA = false := by
  intro acts delta
  have hfit' : registry.FitsAction config (.updateMembership delta (env 20)) := by
    refine ⟨fun update hu item hi hdel => ?_, fun l hl => ?_⟩
    · cases hu
      obtain rfl := List.mem_singleton.mp hi
      cases hdel
    · cases hl
      exact ⟨rfl, rfl, rfl, rfl⟩
  exact ⟨blacklisting_fits, _, _, rfl, List.mem_singleton_self _,
    timed_out_executor_rejoins_groups registry blacklisting_fits rfl (List.mem_singleton_self _) rfl
      hfit' rfl rfl (fun item hi => by obtain rfl := List.mem_singleton.mp hi; decide) rfl⟩

/-! ## No entry outlives its backend -/

/-- Along every run of calls that keep to the registry, the blacklist of the published and of
the recovering snapshot has one entry per address, and each entry holds the current descriptor
of a key other than the local one, an executor that is not quiescing: `FindAndRemove` on each
deletion and re-registration leaves no entry behind for a backend that left, or for an older
descriptor of one that stayed. -/
theorem blacklist_entries_current (reg : Registry) {acts : List Action}
    {m : ClusterMembershipMgr} {events : List (List Event)}
    (hfit : ∀ a ∈ acts, reg.FitsAction cfg a) (h : run cfg init acts = some (m, events))
    {s : Snapshot} (hs : s = m.currentMembership ∨ m.recoveringMembership = some s) :
    (s.executorBlacklist.map (·.beDesc.address)).Nodup ∧
      ∀ e ∈ s.executorBlacklist, ∃ k, k ≠ cfg.localBackendId ∧
        s.currentBackends.lookup k = some e.beDesc ∧ e.beDesc.isExecutor = true ∧
        e.beDesc.isQuiescing = false := by
  have hm := ((coherent_init : init.Coherent reg cfg).run hfit h).1
  have hc : s.Coherent reg cfg := by
    rcases hs with rfl | hs
    exacts [hm.current, hm.recovering s hs]
  refine ⟨hc.addresses, fun e he => ?_⟩
  obtain ⟨hq, k, c, hkc, hk, hf, hcx, hcq⟩ := hc.blacklist e he
  obtain rfl : c = e.beDesc := (hc.backends _ hkc).eq_of_isQuiescing_eq hf (hcq.trans hq.symm)
  exact ⟨k, hk, BackendIdMap.lookup_eq_some_of_mem hc.keys hkc, hcx, hcq⟩

open Demo in
/-- Executor `a` registers and is blacklisted: the published blacklist's one entry holds its
current descriptor. -/
theorem blacklist_entries_current_after_blacklisting :
    let acts : List Action :=
      [.updateMembership (membershipUpdate true [register "a" executorA]) (env 0),
       .blacklistExecutor executorA 1]
    (∀ a ∈ acts, registry.FitsAction config a) ∧
      ∃ m events, run config init acts = some (m, events) ∧
        m.currentMembership.executorBlacklist = [⟨executorA, .blacklisted, 1, 1⟩] ∧
        (m.currentMembership.executorBlacklist.map (·.beDesc.address)).Nodup ∧
        ∀ e ∈ m.currentMembership.executorBlacklist, ∃ k, k ≠ config.localBackendId ∧
          m.currentMembership.currentBackends.lookup k = some e.beDesc ∧
          e.beDesc.isExecutor = true ∧ e.beDesc.isQuiescing = false := by
  intro acts
  exact ⟨blacklisting_fits, _, _, rfl, rfl,
    blacklist_entries_current registry blacklisting_fits rfl (.inl rfl)⟩

/-! ## A full update starts over -/

theorem processTopicItem_executorBlacklist_sublist (s : Snapshot) (u : Bool) (item : TopicItem) :
    (processTopicItem cfg s u item).1.executorBlacklist.Sublist s.executorBlacklist := by
  unfold processTopicItem
  split
  · split
    · exact List.Sublist.refl _
    · simpa only [ExecutorBlacklist.findAndRemove_snd] using List.filter_sublist _
  · split
    · exact List.Sublist.refl _
    · split
      · exact List.Sublist.refl _
      · split
        · simpa only [ExecutorBlacklist.findAndRemove_snd] using List.filter_sublist _
        · exact List.Sublist.refl _

theorem processTopicEntries_executorBlacklist_sublist (s : Snapshot) (u : Bool)
    (items : List TopicItem) :
    (processTopicEntries cfg s u items).1.executorBlacklist.Sublist s.executorBlacklist := by
  induction items generalizing s u with
  | nil => exact List.Sublist.refl _
  | cons item items ih =>
    rw [processTopicEntries_cons]
    exact (ih _ _).trans (processTopicItem_executorBlacklist_sublist s u item)

theorem blacklistMaintenance_of_nil {s : Snapshot} (h : s.executorBlacklist = []) (now : Nat) :
    blacklistMaintenance cfg s now = s := by
  cases s
  cases h
  rfl

/-- A full topic update, as the statestore sends when the subscriber registers again, rebuilds
the membership from its items alone: the snapshot the call produces, published or, in the
grace period, recovering, is the same from every state of the manager, and has no blacklist
entry, so every blacklisted backend the update lists is back in its groups. -/
theorem full_update_rebuilds_membership (m₁ m₂ : ClusterMembershipMgr)
    {incomingTopicDeltas : TopicDeltaMap} {update : TopicDelta} {env : Env}
    (hu : incomingTopicDeltas.lookup cfg.membershipTopic = some update)
    (hfull : update.isDelta = false) :
    (updateMembership cfg m₁ incomingTopicDeltas env).1.baseSnapshot =
        (updateMembership cfg m₂ incomingTopicDeltas env).1.baseSnapshot ∧
      (updateMembership cfg m₁ incomingTopicDeltas env).1.baseSnapshot.executorBlacklist = [] := by
  have hnew : ∀ m : ClusterMembershipMgr, newSnapshot m update env = newSnapshot init update env :=
    fun _ => by simp only [newSnapshot, hfull, Bool.false_eq_true, ↓reduceIte]
  have hnil : (processTopicEntries cfg (newSnapshot init update env) true
      update.topicEntries).1.executorBlacklist = [] := by
    have h0 : (newSnapshot init update env).executorBlacklist = [] := by
      simp [newSnapshot, hfull, Snapshot.empty]
    exact List.eq_nil_of_sublist_nil
      ((processTopicEntries_executorBlacklist_sublist _ _ _).trans (h0 ▸ List.Sublist.refl _))
  have hbase : ∀ m : ClusterMembershipMgr,
      (updateMembership cfg m incomingTopicDeltas env).1.baseSnapshot =
        (localBackendStep cfg (processTopicEntries cfg (newSnapshot init update env) true
          update.topicEntries).1 env.localBeDesc).1 := fun m => by
    simp only [updateMembership, hu, skipsUpdate, hfull, Bool.false_and, Bool.false_eq_true,
      ↓reduceIte]
    rw [applyUpdate_baseSnapshot, hnew, hfull, Bool.not_false, Bool.or_true,
      blacklistMaintenance_of_nil hnil, ite_self]
  rw [hbase, hbase, localBackendStep_executorBlacklist]
  exact ⟨rfl, hnil⟩

open Demo in
/-- From the constructor, and from the state in which executor `a` has been blacklisted, a full
update that lists `a` builds the same snapshot, with no blacklist entry. -/
theorem full_update_rebuilds_membership_after_blacklisting :
    let blacklisted := ((run config init
      [.updateMembership (membershipUpdate true [register "a" executorA]) (env 0),
       .blacklistExecutor executorA 1]).map (·.1)).getD init
    let full := membershipUpdate false [register "a" executorA]
    blacklisted.baseSnapshot.executorBlacklist ≠ [] ∧
      (updateMembership config init full (env 2)).1.baseSnapshot =
        (updateMembership config blacklisted full (env 2)).1.baseSnapshot ∧
      (updateMembership config init full (env 2)).1.baseSnapshot.executorBlacklist = [] :=
  ⟨List.cons_ne_nil _ _, full_update_rebuilds_membership init _ rfl rfl⟩

end ClusterMembershipMgr

end Impala.Scheduling
