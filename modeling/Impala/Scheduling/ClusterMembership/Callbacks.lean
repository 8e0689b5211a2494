import Impala.Scheduling.ClusterMembership.Publication
import Impala.Scheduling.ClusterMembership.Recovery
import Impala.Scheduling.ClusterMembership.Coherence

/-! # What the callbacks' clients hold

`UpdateMembership` tells the frontend (`update_frontend_fn_`) the executors of every snapshot
it publishes, and the local `ImpalaServer` (`update_local_server_fn_`) the backends' addresses
when its `update_local_server` flag is set; `BlacklistExecutor` calls neither. A client holds
what the last call that invoked its callback passed it (`lastNotification`): the frontend the
request of the published backends (`frontend_view_current`), and, while each key keeps one
address, the local server only addresses of published backends (`localServer_view_live`).
-/

namespace Impala.Scheduling

/-- The request a call passed to `update_frontend_fn_`, if it called it. -/
def frontendNotification (events : List Event) : Option UpdateExecutorMembershipRequest :=
  events.findSome? fun
    | .updateFrontend updateReq => some updateReq
    | _ => none

@[simp] theorem frontendNotification_nil : frontendNotification [] = none := rfl

@[simp] theorem frontendNotification_append (es es' : List Event) :
    frontendNotification (es ++ es') = (frontendNotification es).or (frontendNotification es') :=
  List.findSome?_append

@[simp] theorem frontendNotification_setState (s : Snapshot) :
    frontendNotification [.setState s] = none := rfl

/-- What a callback's client holds after calls whose events are `events`, holding `v` before
them: what `notified` reads off the last call that invoked the callback. -/
def lastNotification {α : Type} (notified : List Event → Option α) (v : Option α)
    (events : List (List Event)) : Option α :=
  events.foldl (fun v es => (notified es).or v) v

@[simp] theorem lastNotification_cons {α : Type} (notified : List Event → Option α) (v : Option α)
    (es : List Event) (events : List (List Event)) :
    lastNotification notified v (es :: events) =
      lastNotification notified ((notified es).or v) events := rfl

theorem BackendIdMap.mem_addressSet {m : BackendIdMap} {a : NetworkAddress} :
    a ∈ m.addressSet ↔ ∃ p ∈ m, p.2.address = a := by
  suffices h : ∀ set : List NetworkAddress,
      a ∈ m.foldl (fun set p => set.insert p.2.address) set ↔ a ∈ set ∨ ∃ p ∈ m, p.2.address = a by
    simpa only [List.not_mem_nil, false_or] using h []
  induction m with
  | nil => simp only [List.foldl_nil, List.not_mem_nil, false_and, exists_false, or_false,
      implies_true]
  | cons p m ih =>
    intro set
    simp only [List.foldl_cons, ih, List.mem_insert_iff, List.mem_cons, or_and_right, exists_or,
      exists_eq_left, @eq_comm _ a, or_assoc, or_left_comm]

/-- Every descriptor of a backend map has the address `addr` gives its key. -/
def AddressesFit (addr : String → NetworkAddress) (backends : BackendIdMap) : Prop :=
  ∀ k c, (k, c) ∈ backends → c.address = addr k

/-- The calls of a run in which each key keeps the address `addr` gives it: every descriptor
a membership update would register under a key other than the local one, and the local
descriptor, have their key's address. -/
def KeepsAddresses (cfg : Config) (addr : String → NetworkAddress) : Action → Prop
  | .updateMembership incomingTopicDeltas env =>
    (∀ update, incomingTopicDeltas.lookup cfg.membershipTopic = some update →
      ∀ item ∈ update.topicEntries, item.deleted = false → item.key ≠ cfg.localBackendId →
        ∀ d, item.value = some d → d.address = addr item.key) ∧
    ∀ l, env.localBeDesc = some l → l.address = addr cfg.localBackendId
  | .blacklistExecutor _ _ => True

section Addresses

variable {addr : String → NetworkAddress} {m : BackendIdMap} {k : String} {c d : BackendDescriptor}

theorem BackendIdMap.lookup_isSome_of_mem (h : (k, c) ∈ m) : (m.lookup k).isSome := by
  rw [BackendIdMap.lookup_isSome]
  exact List.any_eq_true.mpr ⟨_, h, by simp⟩

theorem AddressesFit.assign (h : AddressesFit addr m) (hd : d.address = addr k) :
    AddressesFit addr (m.assign k d) := fun _ _ hp => by
  rcases BackendIdMap.mem_assign hp with ⟨-, hp⟩ | ⟨rfl, rfl⟩
  · exact h _ _ hp
  · exact hd

theorem AddressesFit.erase (h : AddressesFit addr m) : AddressesFit addr (BackendIdMap.erase m k) :=
  fun _ _ hp => h _ _ (BackendIdMap.mem_erase.mp hp).1

theorem AddressesFit.mem_addressSet (h : AddressesFit addr m) (hk : (m.lookup k).isSome) :
    addr k ∈ m.addressSet := by
  obtain ⟨c, hc⟩ := Option.isSome_iff_exists.mp hk
  have hkc := BackendIdMap.mem_of_lookup_eq_some hc
  exact BackendIdMap.mem_addressSet.mpr ⟨(k, c), hkc, h _ _ hkc⟩

theorem AddressesFit.addressSet_subset {m' : BackendIdMap} (h : AddressesFit addr m)
    (h' : AddressesFit addr m') (hk : ∀ k, (m.lookup k).isSome → (m'.lookup k).isSome) :
    ∀ a ∈ m.addressSet, a ∈ m'.addressSet := by
  intro a ha
  obtain ⟨⟨k, c⟩, hkc, rfl⟩ := BackendIdMap.mem_addressSet.mp ha
  rw [h k c hkc]
  exact h'.mem_addressSet (hk k (BackendIdMap.lookup_isSome_of_mem hkc))

end Addresses

namespace ClusterMembershipMgr

variable {cfg : Config}

@[simp] theorem frontendNotification_notifyLocalServerForDeletedBackend (bs : BackendIdMap) :
    frontendNotification (notifyLocalServerForDeletedBackend cfg bs) = none := by
  unfold notifyLocalServerForDeletedBackend; split <;> rfl

@[simp] theorem frontendNotification_updateFrontendExecutorMembership (bs : BackendIdMap) :
    frontendNotification (updateFrontendExecutorMembership cfg bs) =
      if cfg.hasUpdateFrontendFn then some (updateExecutorMembershipRequest bs) else none := by
  unfold updateFrontendExecutorMembership; split <;> rfl

@[simp] theorem frontendNotification_localBackendStep (s : Snapshot) (l : Option BackendDescriptor) :
    frontendNotification (localBackendStep cfg s l).2 = none := by
  unfold localBackendStep; split
  · split <;> rfl
  · rfl

/-- A relation between the manager and a client's view that every allowed call keeps holds
after every run of allowed calls. -/
theorem run_lastNotification {α : Type} (notified : List Event → Option α)
    (P : ClusterMembershipMgr → Option α → Prop) {allowed : Action → Prop}
    (hstep : ∀ {m m' a events v}, allowed a → P m v → step cfg m a = some (m', events) →
      P m' ((notified events).or v))
    {m m' : ClusterMembershipMgr} {acts : List Action} {events : List (List Event)}
    {v : Option α} (hacts : ∀ a ∈ acts, allowed a) (hm : P m v)
    (h : run cfg m acts = some (m', events)) : P m' (lastNotification notified v events) := by
  induction acts generalizing m v events with
  | nil => cases h; exact hm
  | cons a acts ih =>
    simp only [run, Option.bind_eq_some, Option.map_eq_some'] at h
    obtain ⟨r, hr, t, ht, h⟩ := h
    obtain ⟨rfl, rfl⟩ := Prod.ext_iff.mp h
    rw [lastNotification_cons]
    exact ih (fun a ha => hacts a (List.mem_cons_of_mem _ ha))
      (hstep (hacts a (List.mem_cons_self _ _)) hm hr) ht

/-- Inside the grace period `applyUpdate` keeps the published snapshot; outside it publishes
the snapshot it built and drops the recovering one. -/
theorem applyUpdate_snapshots (m : ClusterMembershipMgr) (update : TopicDelta) (env : Env)
    (u nm : Bool) :
    let r := applyUpdate cfg m update env u nm
    if env.ssIsRecovering then
      r.1.currentMembership = m.currentMembership ∧ r.1.recoveringMembership = some r.1.baseSnapshot
    else r.1.recoveringMembership = none ∧ r.1.currentMembership = r.1.baseSnapshot := by
  unfold applyUpdate baseSnapshot
  by_cases hr : env.ssIsRecovering = true <;> simp [hr]

/-! ## The frontend -/

/-- The frontend's view, with no executor before its first request, is the request of the
published `current_backends`. -/
def FrontendSynced (m : ClusterMembershipMgr) (v : Option UpdateExecutorMembershipRequest) :
    Prop :=
  v.getD (updateExecutorMembershipRequest []) =
    updateExecutorMembershipRequest m.currentMembership.currentBackends

variable {m m' : ClusterMembershipMgr} {v : Option UpdateExecutorMembershipRequest}

theorem frontendSynced_applyUpdate (hfe : cfg.hasUpdateFrontendFn = true)
    (hm : FrontendSynced m v) (update : TopicDelta) (env : Env) (u nm : Bool) :
    let r := applyUpdate cfg m update env u nm
    FrontendSynced r.1 ((frontendNotification r.2).or v) := by
  unfold applyUpdate
  by_cases hr : env.ssIsRecovering = true
  · simpa [hr, FrontendSynced] using hm
  · simp [hr, FrontendSynced, hfe, apply_ite frontendNotification]

/-- `BlacklistExecutor` publishes a snapshot with the backends of the one it replaces. -/
theorem frontendSynced_blacklistExecutor (hm : FrontendSynced m v) {beDesc : BackendDescriptor}
    {now : Nat} {events : List Event} (h : blacklistExecutor cfg m beDesc now = some (m', events)) :
    FrontendSynced m' ((frontendNotification events).or v) := by
  rcases blacklistExecutor_cases h with ⟨rfl, rfl⟩ | ⟨_, rfl, ⟨-, rfl, rfl⟩ | ⟨hrec, rfl, rfl⟩⟩
  · exact hm
  · exact hm
  · simpa [FrontendSynced, baseSnapshot, hrec] using hm

theorem frontendSynced_step (hfe : cfg.hasUpdateFrontendFn = true) (hm : FrontendSynced m v)
    {a : Action} {events : List Event} (h : step cfg m a = some (m', events)) :
    FrontendSynced m' ((frontendNotification events).or v) := by
  cases a with
  | updateMembership incomingTopicDeltas env =>
    obtain ⟨rfl, rfl⟩ := Prod.ext_iff.mp (Option.some.inj h).symm
    rcases updateMembership_cases m incomingTopicDeltas env with h | ⟨update, -, -, h⟩ <;> rw [h]
    · exact hm
    · exact frontendSynced_applyUpdate hfe hm update env _ _
  | blacklistExecutor beDesc now => exact frontendSynced_blacklistExecutor hm h

/-- With `update_frontend_fn_` installed, along every run from the constructor the frontend
holds the request of the published `current_backends`, and no executor before the first one:
every call that changes the published backends passes the frontend their request, and
`BlacklistExecutor` publishes without changing them. -/
theorem frontend_view_current (hfe : cfg.hasUpdateFrontendFn = true) {acts : List Action}
    {events : List (List Event)} (h : run cfg init acts = some (m, events)) :
    (lastNotification frontendNotification none events).getD (updateExecutorMembershipRequest []) =
      updateExecutorMembershipRequest m.currentMembership.currentBackends := by
  exact run_lastNotification frontendNotification FrontendSynced
    (fun _ hm h => frontendSynced_step hfe hm h) (fun _ _ => trivial)
    (show FrontendSynced init none from rfl) h

open Demo in
/-- Executor `a` registers and is blacklisted: the frontend still holds `host-a`, as the
published backends do. -/
theorem frontend_view_current_after_blacklisting :
    let acts : List Action :=
      [.updateMembership (membershipUpdate true [register "a" executorA]) (env 0),
       .blacklistExecutor executorA 1]
    config.hasUpdateFrontendFn = true ∧ ∃ m events, run config init acts = some (m, events) ∧
      (lastNotification frontendNotification none events).getD
          (updateExecutorMembershipRequest []) =
        updateExecutorMembershipRequest m.currentMembership.currentBackends ∧
      (lastNotification frontendNotification none events).getD
          (updateExecutorMembershipRequest []) = ⟨["host-a"], ["10.0.0.1"], 1⟩ := by
  intro acts
  exact ⟨rfl, _, _, rfl, frontend_view_current (rfl : config.hasUpdateFrontendFn = true)
    (rfl : run config init acts = _), rfl⟩

/-! ## The local server -/

section LocalServer

variable {addr : String → NetworkAddress}

theorem addressesFit_processTopicItem {s : Snapshot} (hs : AddressesFit addr s.currentBackends)
    (u : Bool) {item : TopicItem}
    (hfit : item.deleted = false → item.key ≠ cfg.localBackendId →
      ∀ d, item.value = some d → d.address = addr item.key) :
    AddressesFit addr (processTopicItem cfg s u item).1.currentBackends := by
  unfold processTopicItem
  split
  · split
    · exact hs
    · exact hs.erase
  · next hdel =>
    split
    · exact hs
    · next d hv =>
      split
      · exact hs
      · next hskip =>
        have hd := hfit (by simpa using hdel) (fun hk => hskip (by simp [hk])) d hv
        split <;> exact hs.assign hd

theorem addressesFit_processTopicEntries {s : Snapshot} (hs : AddressesFit addr s.currentBackends)
    (u : Bool) {items : List TopicItem}
    (hfit : ∀ item ∈ items, item.deleted = false → item.key ≠ cfg.localBackendId →
      ∀ d, item.value = some d → d.address = addr item.key) :
    AddressesFit addr (processTopicEntries cfg s u items).1.currentBackends := by
  induction items generalizing s u with
  | nil => exact hs
  | cons item items ih =>
    rw [processTopicEntries_cons]
    exact ih (addressesFit_processTopicItem hs u (hfit item (List.mem_cons_self _ _))) _
      fun i hi => hfit i (List.mem_cons_of_mem _ hi)

theorem addressesFit_localBackendStep {s : Snapshot} (hs : AddressesFit addr s.currentBackends)
    {l : Option BackendDescriptor} (hl : ∀ l', l = some l' → l'.address = addr cfg.localBackendId) :
    AddressesFit addr (localBackendStep cfg s l).1.currentBackends := by
  unfold localBackendStep
  split
  · next l' =>
    split
    · exact hs.assign (hl l' rfl)
    · exact hs
  · exact hs

theorem addressesFit_applyUpdate {m : ClusterMembershipMgr} {update : TopicDelta} {env : Env}
    (hm : AddressesFit addr m.baseSnapshot.currentBackends)
    (hitems : ∀ item ∈ update.topicEntries, item.deleted = false →
      item.key ≠ cfg.localBackendId → ∀ d, item.value = some d → d.address = addr item.key)
    (hl : ∀ l, env.localBeDesc = some l → l.address = addr cfg.localBackendId) (u nm : Bool) :
    AddressesFit addr (applyUpdate cfg m update env u nm).1.baseSnapshot.currentBackends := by
  rw [applyUpdate_baseSnapshot]
  refine addressesFit_localBackendStep ?_ hl
  have hbase : AddressesFit addr (newSnapshot m update env).currentBackends := by
    rw [newSnapshot_currentBackends]
    split
    · exact hm
    · exact fun _ _ h => absurd h (List.not_mem_nil _)
  have := addressesFit_processTopicEntries hbase (u || !update.isDelta) hitems
  split <;> exact this

theorem processTopicEntries_keys {s : Snapshot} {u : Bool} {items : List TopicItem}
    (h : (processTopicEntries cfg s u items).2 = false) :
    u = false ∧ ∀ k, (s.currentBackends.lookup k).isSome →
      ((processTopicEntries cfg s u items).1.currentBackends.lookup k).isSome := by
  induction items generalizing s u with
  | nil => exact ⟨h, fun _ hk => hk⟩
  | cons item items ih =>
    rw [processTopicEntries_cons] at h ⊢
    obtain ⟨hu, hkeys⟩ := ih h
    refine ⟨?_, fun k hk => hkeys k
      ((processTopicItem_lookup_isSome s u item hk).resolve_right (by simp [hu]))⟩
    cases u
    · rfl
    · rw [processTopicItem_flag_of_true] at hu; cases hu

theorem localBackendStep_lookup_isSome {s : Snapshot} {l : Option BackendDescriptor} {k : String}
    (hk : (s.currentBackends.lookup k).isSome) :
    ((localBackendStep cfg s l).1.currentBackends.lookup k).isSome := by
  unfold localBackendStep
  split
  · split
    · simp only [updateLocalBackend, BackendIdMap.lookup_assign]
      split <;> simp [hk]
    · exact hk
  · exact hk

/-- An `applyUpdate` whose loop ends with its flag clear was given the flag clear, ran a delta
on the base snapshot, and kept every key of it. -/
theorem applyUpdate_keys {m : ClusterMembershipMgr} {update : TopicDelta} {env : Env}
    {u : Bool} (h : (processTopicEntries cfg (newSnapshot m update env) (u || !update.isDelta)
      update.topicEntries).2 = false) (nm : Bool) :
    u = false ∧ ∀ k, (m.baseSnapshot.currentBackends.lookup k).isSome →
      ((applyUpdate cfg m update env u nm).1.baseSnapshot.currentBackends.lookup k).isSome := by
  obtain ⟨hu, hkeys⟩ := processTopicEntries_keys h
  obtain ⟨rfl, hdelta⟩ : u = false ∧ update.isDelta = true := by simpa using hu
  refine ⟨rfl, fun k hk => ?_⟩
  rw [applyUpdate_baseSnapshot]
  refine localBackendStep_lookup_isSome ?_
  have := hkeys k (by rwa [newSnapshot_currentBackends, if_pos hdelta])
  split <;> exact this

variable (cfg addr) in
/-- The local server holds only addresses of published backends, and nothing while no
callback is installed; the published and the recovering snapshot's backends have their keys'
addresses. -/
structure LocalServerLive (m : ClusterMembershipMgr) (v : Option (List NetworkAddress)) : Prop where
  current : AddressesFit addr m.currentMembership.currentBackends
  recovering : ∀ s, m.recoveringMembership = some s → AddressesFit addr s.currentBackends
  view : ∀ a ∈ v.getD [], a ∈ m.currentMembership.currentBackends.addressSet
  silent : cfg.hasUpdateLocalServerFn = false → v = none

variable {m m' : ClusterMembershipMgr} {v : Option (List NetworkAddress)}

namespace LocalServerLive

variable (hm : LocalServerLive cfg addr m v)
include hm

theorem base : AddressesFit addr m.baseSnapshot.currentBackends := by
  unfold baseSnapshot
  cases h : m.recoveringMembership with
  | none => exact hm.current
  | some s => exact hm.recovering s h

/-- `UpdateMembership` past its early return: inside the grace period it changes neither the
published snapshot nor the local server; outside it, it notifies the local server of the new
address set, or drops no key of the published snapshot. -/
theorem applyUpdate {update : TopicDelta} {env : Env}
    (hitems : ∀ item ∈ update.topicEntries, item.deleted = false →
      item.key ≠ cfg.localBackendId → ∀ d, item.value = some d → d.address = addr item.key)
    (hl : ∀ l, env.localBeDesc = some l → l.address = addr cfg.localBackendId) (nm : Bool) :
    let r := ClusterMembershipMgr.applyUpdate cfg m update env
      (m.recoveringMembership.isSome && !env.ssIsRecovering) nm
    LocalServerLive cfg addr r.1 ((localServerNotification r.2).or v) := by
  intro r
  have hnew : AddressesFit addr r.1.baseSnapshot.currentBackends :=
    addressesFit_applyUpdate hm.base hitems hl _ nm
  have hsnap := @applyUpdate_snapshots cfg m update env
    (m.recoveringMembership.isSome && !env.ssIsRecovering) nm
  have hnote := (@applyUpdate_events cfg m update env
    (m.recoveringMembership.isSome && !env.ssIsRecovering) nm).2
  by_cases hr : env.ssIsRecovering = true
  · rw [if_pos hr] at hsnap
    obtain ⟨hcur, hrec⟩ := hsnap
    have hnone : localServerNotification r.2 = none := by rw [hnote]; simp [hr]
    rw [hnone, Option.none_or]
    exact ⟨hcur ▸ hm.current, fun s hs => Option.some.inj (hrec.symm.trans hs) ▸ hnew,
      hcur ▸ hm.view, hm.silent⟩
  · rw [if_neg hr] at hsnap
    obtain ⟨hrec, hcur⟩ := hsnap
    refine ⟨hcur ▸ hnew, fun s hs => Option.noConfusion (hrec.symm.trans hs), ?_, ?_⟩
    · rw [hnote]
      split
      · exact fun a ha => by simpa using ha
      · next hc =>
        rw [Option.none_or]
        cases hfn : cfg.hasUpdateLocalServerFn
        · simp [hm.silent hfn]
        · have hflag : (processTopicEntries cfg (newSnapshot m update env)
              ((m.recoveringMembership.isSome && !env.ssIsRecovering) || !update.isDelta)
              update.topicEntries).2 = false := by simpa [hr, hfn] using hc
          obtain ⟨hu, hkeys⟩ := applyUpdate_keys hflag nm
          rw [baseSnapshot_of_published (by simpa [hr] using hu)] at hkeys
          rw [hcur]
          exact fun a ha => hm.current.addressSet_subset hnew hkeys a (hm.view a ha)
    · intro hfn
      rw [hnote, if_neg (by simp [hfn]), Option.none_or]
      exact hm.silent hfn

/-- `BlacklistExecutor` leaves the backends of the snapshot it changes as they were. -/
theorem blacklistExecutor {beDesc : BackendDescriptor} {now : Nat} {events : List Event}
    (h : ClusterMembershipMgr.blacklistExecutor cfg m beDesc now = some (m', events)) :
    LocalServerLive cfg addr m' ((localServerNotification events).or v) := by
  rcases blacklistExecutor_cases h with ⟨rfl, rfl⟩ | ⟨_, rfl, ⟨-, rfl, rfl⟩ | ⟨hrec, rfl, rfl⟩⟩
  · exact hm
  · refine ⟨hm.current, fun s hs => ?_, hm.view, hm.silent⟩
    cases hs
    exact hm.base
  · refine ⟨hm.base, fun s hs => Option.noConfusion (hrec.symm.trans hs), ?_, hm.silent⟩
    simpa [baseSnapshot, hrec] using hm.view

theorem step {a : Action} {events : List Event} (ha : KeepsAddresses cfg addr a)
    (h : ClusterMembershipMgr.step cfg m a = some (m', events)) :
    LocalServerLive cfg addr m' ((localServerNotification events).or v) := by
  cases a with
  | updateMembership incomingTopicDeltas env =>
    obtain ⟨rfl, rfl⟩ := Prod.ext_iff.mp (Option.some.inj h).symm
    rcases updateMembership_cases m incomingTopicDeltas env with h | ⟨update, hu, -, h⟩ <;> rw [h]
    · exact hm
    · exact hm.applyUpdate (ha.1 update hu) ha.2 _
  | blacklistExecutor beDesc now => exact hm.blacklistExecutor h

end LocalServerLive

/-- Along every run from the constructor in which each key keeps one address, every address
the local server holds is that of a backend of the published snapshot: a call that drops a
backend from it, by a deleted item, a full update or the end of the grace period, passes the
local server the new address set, and no other call takes a key's address out of the map. -/
theorem localServer_view_live (addr : String → NetworkAddress) {acts : List Action}
    {m : ClusterMembershipMgr} {events : List (List Event)}
    (hacts : ∀ a ∈ acts, KeepsAddresses cfg addr a) (h : run cfg init acts = some (m, events)) :
    ∀ a ∈ (lastNotification localServerNotification none events).getD [],
      a ∈ m.currentMembership.currentBackends.addressSet :=
  (run_lastNotification localServerNotification (LocalServerLive cfg addr)
    (fun ha hm h => hm.step ha h) hacts
    ⟨fun _ _ h => absurd h (List.not_mem_nil _), fun _ h => Option.noConfusion h,
      fun _ h => absurd h (List.not_mem_nil _), fun _ => rfl⟩ h).view

open Demo in
/-- Key `a` registers and is deleted: the local server is told the coordinator's address
alone. -/
theorem localServer_view_live_after_deletion :
    let acts : List Action :=
      [.updateMembership (membershipUpdate true [register "a" executorA]) (env 0),
       .updateMembership (membershipUpdate true [⟨"a", none, true⟩]) (env 1)]
    (∀ a ∈ acts, KeepsAddresses config registry.address a) ∧
      ∃ m events, run config init acts = some (m, events) ∧
        (∀ a ∈ (lastNotification localServerNotification none events).getD [],
          a ∈ m.currentMembership.currentBackends.addressSet) ∧
        lastNotification localServerNotification none events = some [coordinator.address] := by
  intro acts
  have hacts : ∀ a ∈ acts, KeepsAddresses config registry.address a := by
    simp only [acts, List.mem_cons, List.mem_singleton, List.not_mem_nil, or_false]
    rintro a (rfl | rfl)
    · refine ⟨fun update hu item hi _ _ d hv => ?_, fun l hl => ?_⟩
      · cases hu
        obtain rfl := List.mem_singleton.mp hi
        cases hv
        rfl
      · cases hl
        exact rfl
    · refine ⟨fun update hu item hi hdel => ?_, fun l hl => ?_⟩
      · cases hu
        obtain rfl := List.mem_singleton.mp hi
        cases hdel
      · cases hl
        exact rfl
  exact ⟨hacts, _, _, rfl, localServer_view_live registry.address hacts rfl, rfl⟩

end LocalServer

end ClusterMembershipMgr

end Impala.Scheduling
