import Mathlib.Data.List.Nodup
import Impala.Scheduling.ClusterMembership.Consistency

/-! # When `CheckConsistency` holds

The runs of `Consistency` break `CheckConsistency` by re-registering a key with another executor
flag or address. Nothing else can: along every run in which each key keeps what it registered
with (`Registry`) and the scheduler blacklists only executors it found in a group, every
snapshot the manager holds or tests passes `CheckConsistency`. The invariant,
`Snapshot.Coherent`, relates the backends, the group members, the blacklist entries and the
local backend; each branch of both calls keeps it.
-/

namespace Impala.Scheduling

/-- What the statestore protocol keeps fixed of the backend registered under a key while its
process runs: its address, which no other key has, its IP address, whether it is an executor
and its executor groups. Only `is_quiescing` changes between the descriptors of one key. -/
structure Registry where
  address : String → NetworkAddress
  ipAddress : String → String
  isExecutor : String → Bool
  executorGroups : String → List ExecutorGroupDesc
  address_inj : ∀ {k k' : String}, address k = address k' → k = k'

namespace Registry

variable (reg : Registry)

/-- A descriptor the backend under `key` can send. -/
structure Fits (key : String) (d : BackendDescriptor) : Prop where
  address : d.address = reg.address key
  ipAddress : d.ipAddress = reg.ipAddress key
  isExecutor : d.isExecutor = reg.isExecutor key
  executorGroups : d.executorGroups = reg.executorGroups key

/-- The calls of a run that keeps to the registry: a membership update registers, under each
key other than the local one, a descriptor that fits the key, and the local descriptor fits
the local key; `BlacklistExecutor` gets the descriptor of a registered executor that is not
quiescing, as the scheduler takes it from an executor group. -/
def FitsAction (cfg : Config) : Action → Prop
  | .updateMembership incomingTopicDeltas env =>
    (∀ update, incomingTopicDeltas.lookup cfg.membershipTopic = some update →
      ∀ item ∈ update.topicEntries, item.deleted = false → item.key ≠ cfg.localBackendId →
        ∀ d, item.value = some d → reg.Fits item.key d) ∧
    ∀ l, env.localBeDesc = some l → reg.Fits cfg.localBackendId l
  | .blacklistExecutor beDesc _ => (∃ k, reg.Fits k beDesc) ∧ beDesc.isQuiescing = false

namespace Fits

variable {reg} {k k' : String} {d d' : BackendDescriptor}

theorem key_eq (h : reg.Fits k d) (h' : reg.Fits k' d') (ha : d.address = d'.address) : k = k' :=
  reg.address_inj (h.address.symm.trans (ha.trans h'.address))

theorem key_ne (h : reg.Fits k d) (h' : reg.Fits k' d') (ha : d.address ≠ d'.address) : k ≠ k' :=
  fun hk => ha (h.address.trans (hk ▸ h'.address.symm))

theorem address_eq (h : reg.Fits k d) (h' : reg.Fits k d') : d.address = d'.address :=
  h.address.trans h'.address.symm

theorem isExecutor_eq (h : reg.Fits k d) (h' : reg.Fits k d') : d.isExecutor = d'.isExecutor :=
  h.isExecutor.trans h'.isExecutor.symm

theorem executorGroups_eq (h : reg.Fits k d) (h' : reg.Fits k d') :
    d.executorGroups = d'.executorGroups :=
  h.executorGroups.trans h'.executorGroups.symm

theorem eq_of_isQuiescing_eq (h : reg.Fits k d) (h' : reg.Fits k d')
    (hq : d.isQuiescing = d'.isQuiescing) : d = d' := by
  have ha := h.address_eq h'
  have hi := h.ipAddress.trans h'.ipAddress.symm
  have hx := h.isExecutor_eq h'
  have hg := h.executorGroups_eq h'
  cases d
  cases d'
  simp_all

end Fits

end Registry

/-! ## Backend maps and group membership -/

namespace BackendIdMap

variable {m : BackendIdMap} {k k' : String} {c c' d : BackendDescriptor}

theorem mem_of_lookup_eq_some (h : m.lookup k = some c) : (k, c) ∈ m := by
  induction m with
  | nil => cases h
  | cons p m ih =>
    obtain ⟨k', b⟩ := p
    rw [lookup_cons] at h
    split at h
    · cases h; subst k; exact List.mem_cons_self _ _
    · exact List.mem_cons_of_mem _ (ih h)

theorem not_mem_of_lookup_eq_none (h : m.lookup k = none) : (k, c) ∉ m := by
  induction m with
  | nil => exact List.not_mem_nil _
  | cons p m ih =>
    obtain ⟨k', b⟩ := p
    rw [lookup_cons] at h
    split at h
    · cases h
    · rename_i hne
      simp only [List.mem_cons, Prod.mk.injEq, not_or]
      exact ⟨fun h' => hne h'.1, ih h⟩

theorem eq_of_mem_of_nodup (hk : (m.map (·.1)).Nodup) (h : (k, c) ∈ m) (h' : (k, c') ∈ m) :
    c = c' :=
  (Prod.mk.inj (List.inj_on_of_nodup_map hk h h' rfl)).2

theorem lookup_eq_some_of_mem (hk : (m.map (·.1)).Nodup) (h : (k, c) ∈ m) :
    m.lookup k = some c := by
  cases hl : m.lookup k with
  | none => exact absurd h (not_mem_of_lookup_eq_none hl)
  | some c' => rw [eq_of_mem_of_nodup hk (mem_of_lookup_eq_some hl) h]

theorem mem_assign (h : (k', c') ∈ m.assign k d) :
    k' ≠ k ∧ (k', c') ∈ m ∨ k' = k ∧ c' = d := by
  unfold assign at h
  split at h
  · obtain ⟨⟨k₀, c₀⟩, h₀, he⟩ := List.mem_map.mp h
    by_cases hk : k₀ = k
    · simp only [hk, if_true, Prod.mk.injEq] at he
      exact .inr ⟨he.1.symm, he.2.symm⟩
    · simp only [hk, if_false, Prod.mk.injEq] at he
      obtain ⟨rfl, rfl⟩ := he
      exact .inl ⟨hk, h₀⟩
  · next hany =>
    rcases List.mem_append.mp h with h | h
    · exact .inl ⟨fun hk => hany (List.any_eq_true.mpr ⟨_, h, by simp [hk]⟩), h⟩
    · obtain ⟨rfl, rfl⟩ := Prod.mk.inj (List.mem_singleton.mp h)
      exact .inr ⟨rfl, rfl⟩

theorem mem_assign_self : (k, d) ∈ m.assign k d := by
  unfold assign
  split
  · rename_i hany
    obtain ⟨⟨k₀, c₀⟩, h₀, hk⟩ := List.any_eq_true.mp hany
    simp only [decide_eq_true_eq] at hk
    subst hk
    exact List.mem_map.mpr ⟨_, h₀, by simp⟩
  · exact List.mem_append_right _ (List.mem_singleton_self _)

theorem mem_assign_of_ne (h : (k', c') ∈ m) (hk : k' ≠ k) : (k', c') ∈ m.assign k d := by
  unfold assign
  split
  · exact List.mem_map.mpr ⟨_, h, by simp [hk]⟩
  · exact List.mem_append_left _ h

theorem nodup_assign (hk : (m.map (·.1)).Nodup) : ((m.assign k d).map (·.1)).Nodup := by
  unfold assign
  split
  · rw [List.map_map]
    convert hk using 2
    funext p
    by_cases h : p.1 = k <;> simp [h]
  · rename_i hany
    rw [List.map_append, List.map_singleton, List.nodup_append]
    refine ⟨hk, List.nodup_singleton _, fun x hx hx' => hany ?_⟩
    obtain ⟨p, hp, rfl⟩ := List.mem_map.mp hx
    have hpk : p.1 = k := List.mem_singleton.mp hx'
    exact List.any_eq_true.mpr ⟨p, hp, by simp [hpk]⟩

theorem lookup_assign_of_ne (h : k ≠ k') : (m.assign k' d).lookup k = m.lookup k := by
  rw [lookup_assign, if_neg h]

theorem lookup_erase_eq_some : (erase m k').lookup k = some c ↔ k ≠ k' ∧ m.lookup k = some c := by
  rw [lookup_erase]; split <;> simp [*]

theorem mem_erase : (k', c') ∈ erase m k ↔ (k', c') ∈ m ∧ k' ≠ k := by
  simp [erase, List.mem_filter]

theorem nodup_erase (hk : (m.map (·.1)).Nodup) : ((erase m k).map (·.1)).Nodup :=
  hk.sublist ((List.filter_sublist _).map _)

end BackendIdMap

/-- Executor `b` is in a group named `name`. -/
def InGroup (groups : ExecutorGroups) (name : String) (b : BackendDescriptor) : Prop :=
  ∃ g ∈ groups, g.name = name ∧ b ∈ g.executors

/-- The test `BlacklistExecutor` makes of each group a descriptor names: the group
`executor_groups.find(name)` holds an executor at the address. -/
def hasExecutorAt (groups : ExecutorGroups) (name : String) (address : NetworkAddress) : Bool :=
  ((findExecutorGroup groups name).bind (·.lookUpBackendDesc address)).isSome

section Groups

variable {groups : ExecutorGroups} {name : String} {b d : BackendDescriptor}

@[simp] theorem ExecutorGroup.addExecutor_name (g : ExecutorGroup) :
    (g.addExecutor d).name = g.name := by
  unfold ExecutorGroup.addExecutor; split <;> rfl

/-- A member of a group of `FindOrInsertExecutorGroup(desc)->Op()`: a member of the group of
the same name before, if the group is not `desc`'s; else a member of `op` of that group, or
of `op` of a new empty one. -/
theorem inGroup_findOrInsertExecutorGroup {desc : ExecutorGroupDesc}
    {op : ExecutorGroup → ExecutorGroup}
    (h : InGroup (findOrInsertExecutorGroup desc op groups) name b)
    (hop : ∀ g, (op g).name = g.name) :
    name ≠ desc.name ∧ InGroup groups name b ∨
      name = desc.name ∧ ∃ g, (g ∈ groups ∨ g = .ofDesc desc) ∧ g.name = desc.name ∧
        b ∈ (op g).executors := by
  obtain ⟨g', hg', rfl, hb⟩ := h
  unfold findOrInsertExecutorGroup at hg'
  split at hg'
  · obtain ⟨g, hg, rfl⟩ := List.mem_map.mp hg'
    by_cases hn : g.name = desc.name
    · rw [if_pos hn] at hb ⊢
      exact .inr ⟨(hop g).trans hn, g, .inl hg, hn, hb⟩
    · rw [if_neg hn] at hb ⊢
      exact .inl ⟨hn, g, hg, rfl, hb⟩
  · rename_i hany
    rcases List.mem_append.mp hg' with hg | hg
    · exact .inl ⟨fun hn => hany (List.any_eq_true.mpr ⟨g', hg, by simp [hn]⟩),
        g', hg, rfl, hb⟩
    · rw [List.mem_singleton.mp hg] at hb ⊢
      exact .inr ⟨hop _, _, .inr rfl, rfl, hb⟩

theorem inGroup_foldl_removeExecutor {descs : List ExecutorGroupDesc}
    (h : InGroup (descs.foldl (fun gs desc =>
      findOrInsertExecutorGroup desc (·.removeExecutor d) gs) groups) name b) :
    InGroup groups name b ∧ (name ∈ descs.map (·.name) → b.address ≠ d.address) := by
  induction descs generalizing groups with
  | nil => exact ⟨h, by simp⟩
  | cons desc descs ih =>
    obtain ⟨h', hne⟩ := ih h
    rcases inGroup_findOrInsertExecutorGroup h' (fun _ => rfl) with
      ⟨hn, hg⟩ | ⟨rfl, g, hg, hgn, hb⟩
    · exact ⟨hg, fun hmem => hne ((List.mem_cons.mp hmem).resolve_left hn)⟩
    · simp only [ExecutorGroup.removeExecutor, List.mem_filter, decide_eq_true_eq] at hb
      rcases hg with hg | rfl
      · exact ⟨⟨g, hg, hgn, hb.1⟩, fun _ => hb.2⟩
      · exact absurd hb.1 (List.not_mem_nil _)

theorem inGroup_foldl_addExecutor {descs : List ExecutorGroupDesc}
    (h : InGroup (descs.foldl (fun gs desc =>
      findOrInsertExecutorGroup desc (·.addExecutor d) gs) groups) name b) :
    InGroup groups name b ∨ b = d ∧ name ∈ descs.map (·.name) := by
  induction descs generalizing groups with
  | nil => exact .inl h
  | cons desc descs ih =>
    rcases ih h with h' | ⟨rfl, hmem⟩
    · rcases inGroup_findOrInsertExecutorGroup h' ExecutorGroup.addExecutor_name with
        ⟨-, hg⟩ | ⟨rfl, g, hg, hgn, hb⟩
      · exact .inl hg
      · unfold ExecutorGroup.addExecutor at hb
        split at hb
        · rcases hg with hg | rfl
          · exact .inl ⟨g, hg, hgn, hb⟩
          · exact absurd hb (List.not_mem_nil _)
        · rcases List.mem_append.mp hb with hb | hb
          · rcases hg with hg | rfl
            · exact .inl ⟨g, hg, hgn, hb⟩
            · exact absurd hb (List.not_mem_nil _)
          · exact .inr ⟨List.mem_singleton.mp hb, List.mem_cons_self _ _⟩
    · exact .inr ⟨rfl, List.mem_cons_of_mem _ hmem⟩

theorem inGroup_removeFromGroups (h : InGroup (removeFromGroups groups d) name b) :
    InGroup groups name b ∧ (name ∈ d.executorGroups.map (·.name) → b.address ≠ d.address) :=
  inGroup_foldl_removeExecutor h

theorem inGroup_addToGroups (h : InGroup (addToGroups groups d) name b) :
    InGroup groups name b ∨ b = d ∧ name ∈ d.executorGroups.map (·.name) :=
  inGroup_foldl_addExecutor h

theorem inGroup_foldl_addToGroups {ds : List BackendDescriptor}
    (h : InGroup (ds.foldl addToGroups groups) name b) :
    InGroup groups name b ∨ b ∈ ds ∧ name ∈ b.executorGroups.map (·.name) := by
  induction ds generalizing groups with
  | nil => exact .inl h
  | cons d ds ih =>
    rcases ih h with h' | ⟨hb, hn⟩
    · rcases inGroup_addToGroups h' with h'' | ⟨rfl, hn⟩
      · exact .inl h''
      · exact .inr ⟨List.mem_cons_self _ _, hn⟩
    · exact .inr ⟨List.mem_cons_of_mem _ hb, hn⟩

variable {a : NetworkAddress}

theorem findExecutorGroup_findOrInsertExecutorGroup {desc : ExecutorGroupDesc}
    {op : ExecutorGroup → ExecutorGroup} (hop : ∀ g, (op g).name = g.name)
    (groups : ExecutorGroups) (name : String) :
    findExecutorGroup (findOrInsertExecutorGroup desc op groups) name =
      if name = desc.name then some (op ((findExecutorGroup groups name).getD (.ofDesc desc)))
      else findExecutorGroup groups name := by
  unfold findOrInsertExecutorGroup findExecutorGroup
  split
  · next hany =>
    have hp : ((fun g : ExecutorGroup => decide (g.name = name)) ∘
        fun g => if g.name = desc.name then op g else g) = fun g => decide (g.name = name) := by
      funext g; by_cases hg : g.name = desc.name <;> simp [hg, hop]
    rw [List.find?_map, hp]
    split
    · next hn =>
      subst hn
      obtain ⟨g, hg⟩ : ∃ g, groups.find? (fun g => decide (g.name = desc.name)) = some g :=
        Option.isSome_iff_exists.mp (List.find?_isSome.mpr (List.any_eq_true.mp hany))
      simp [hg, (by simpa using List.find?_some hg : g.name = desc.name)]
    · next hn =>
      cases hg : groups.find? (·.name = name) with
      | none => rfl
      | some g => simp [(by simpa using List.find?_some hg : g.name = name), hn]
  · next hany =>
    rw [List.find?_append]
    split
    · next hn =>
      subst hn
      rw [List.find?_eq_none.mpr fun g hg h => hany (List.any_eq_true.mpr ⟨g, hg, h⟩)]
      simp [hop, ExecutorGroup.ofDesc]
    · next hn =>
      simp [hop, ExecutorGroup.ofDesc, Ne.symm hn]

namespace ExecutorGroup

variable {g : ExecutorGroup}

theorem lookUpBackendDesc_removeExecutor :
    ((g.removeExecutor d).lookUpBackendDesc a).isSome ↔
      a ≠ d.address ∧ (g.lookUpBackendDesc a).isSome := by
  simp only [lookUpBackendDesc, removeExecutor, List.find?_isSome, List.mem_filter,
    decide_eq_true_eq]
  constructor
  · rintro ⟨b, ⟨hb, ha⟩, rfl⟩
    exact ⟨ha, b, hb, rfl⟩
  · rintro ⟨ha, b, hb, rfl⟩
    exact ⟨b, ⟨hb, ha⟩, rfl⟩

theorem lookUpBackendDesc_addExecutor (h : (g.lookUpBackendDesc a).isSome) :
    ((g.addExecutor d).lookUpBackendDesc a).isSome := by
  unfold addExecutor; split
  · exact h
  · simp only [lookUpBackendDesc, List.find?_isSome, List.mem_append] at h ⊢
    obtain ⟨b, hb, hba⟩ := h
    exact ⟨b, .inl hb, hba⟩

theorem lookUpBackendDesc_addExecutor_self :
    ((g.addExecutor d).lookUpBackendDesc d.address).isSome := by
  unfold addExecutor; split
  · next h => exact h
  · simp [lookUpBackendDesc, List.find?_isSome]

end ExecutorGroup

theorem exists_inGroup_of_hasExecutorAt (h : hasExecutorAt groups name a = true) :
    ∃ b, InGroup groups name b ∧ b.address = a := by
  obtain ⟨b, hb⟩ := Option.isSome_iff_exists.mp h
  obtain ⟨g, hg, hgb⟩ := Option.bind_eq_some.mp hb
  exact ⟨b, ⟨g, List.mem_of_find?_eq_some hg, by simpa using List.find?_some hg,
    List.mem_of_find?_eq_some hgb⟩, by simpa using List.find?_some hgb⟩

variable {op : ExecutorGroup → ExecutorGroup} {x : Bool}

theorem hasExecutorAt_findOrInsertExecutorGroup {desc : ExecutorGroupDesc}
    (hop : ∀ g, (op g).name = g.name)
    (hkeep : ∀ g : ExecutorGroup, (g.lookUpBackendDesc a).isSome = x →
      ((op g).lookUpBackendDesc a).isSome = x)
    (h : hasExecutorAt groups name a = x) :
    hasExecutorAt (findOrInsertExecutorGroup desc op groups) name a = x := by
  unfold hasExecutorAt at h ⊢
  rw [findExecutorGroup_findOrInsertExecutorGroup hop]
  split_ifs
  · cases hg : findExecutorGroup groups name with
    | none => rw [hg] at h; subst h; simpa using hkeep (.ofDesc desc) rfl
    | some g => rw [hg, Option.some_bind] at h; simpa using hkeep g h
  · exact h

theorem hasExecutorAt_findOrInsertExecutorGroup_self {desc : ExecutorGroupDesc}
    (hop : ∀ g, (op g).name = g.name)
    (hself : ∀ g : ExecutorGroup, ((op g).lookUpBackendDesc a).isSome = x) :
    hasExecutorAt (findOrInsertExecutorGroup desc op groups) desc.name a = x := by
  simp [hasExecutorAt, findExecutorGroup_findOrInsertExecutorGroup hop, hself]

theorem hasExecutorAt_foldl_findOrInsertExecutorGroup (op : ExecutorGroup → ExecutorGroup)
    (hop : ∀ g, (op g).name = g.name)
    (hkeep : ∀ g : ExecutorGroup, (g.lookUpBackendDesc a).isSome = x →
      ((op g).lookUpBackendDesc a).isSome = x)
    {descs : List ExecutorGroupDesc} (h : hasExecutorAt groups name a = x) :
    hasExecutorAt (descs.foldl (fun gs desc => findOrInsertExecutorGroup desc op gs) groups)
      name a = x := by
  induction descs generalizing groups with
  | nil => exact h
  | cons desc descs ih => exact ih (hasExecutorAt_findOrInsertExecutorGroup hop hkeep h)

theorem hasExecutorAt_foldl_findOrInsertExecutorGroup_self (op : ExecutorGroup → ExecutorGroup)
    (hop : ∀ g, (op g).name = g.name)
    (hself : ∀ g : ExecutorGroup, ((op g).lookUpBackendDesc a).isSome = x)
    {descs : List ExecutorGroupDesc} {desc : ExecutorGroupDesc} (hd : desc ∈ descs) :
    hasExecutorAt (descs.foldl (fun gs desc => findOrInsertExecutorGroup desc op gs) groups)
      desc.name a = x := by
  induction descs generalizing groups with
  | nil => cases hd
  | cons desc' descs ih =>
    rw [List.foldl_cons]
    rcases List.mem_cons.mp hd with rfl | hd
    · exact hasExecutorAt_foldl_findOrInsertExecutorGroup op hop (fun g _ => hself g)
        (hasExecutorAt_findOrInsertExecutorGroup_self hop hself)
    · exact ih hd

theorem hasExecutorAt_removeFromGroups (h : hasExecutorAt groups name a = true)
    (ha : a ≠ d.address) : hasExecutorAt (removeFromGroups groups d) name a = true :=
  hasExecutorAt_foldl_findOrInsertExecutorGroup (·.removeExecutor d) (fun _ => rfl)
    (fun _ hg => ExecutorGroup.lookUpBackendDesc_removeExecutor.mpr ⟨ha, hg⟩) h

theorem hasExecutorAt_removeFromGroups_self {desc : ExecutorGroupDesc}
    (hd : desc ∈ d.executorGroups) :
    hasExecutorAt (removeFromGroups groups d) desc.name d.address = false :=
  hasExecutorAt_foldl_findOrInsertExecutorGroup_self (·.removeExecutor d) (fun _ => rfl)
    (fun _ => Bool.eq_false_iff.mpr fun h =>
      (ExecutorGroup.lookUpBackendDesc_removeExecutor.mp h).1 rfl) hd

theorem hasExecutorAt_addToGroups (h : hasExecutorAt groups name a = true) :
    hasExecutorAt (addToGroups groups d) name a = true :=
  hasExecutorAt_foldl_findOrInsertExecutorGroup (·.addExecutor d) ExecutorGroup.addExecutor_name
    (fun _ hg => ExecutorGroup.lookUpBackendDesc_addExecutor hg) h

theorem hasExecutorAt_addToGroups_self {desc : ExecutorGroupDesc} (hd : desc ∈ d.executorGroups) :
    hasExecutorAt (addToGroups groups d) desc.name d.address = true :=
  hasExecutorAt_foldl_findOrInsertExecutorGroup_self _ ExecutorGroup.addExecutor_name
    (fun _ => ExecutorGroup.lookUpBackendDesc_addExecutor_self) hd

theorem hasExecutorAt_foldl_addToGroups {ds : List BackendDescriptor}
    (h : hasExecutorAt groups name a = true) :
    hasExecutorAt (ds.foldl addToGroups groups) name a = true := by
  induction ds generalizing groups with
  | nil => exact h
  | cons d ds ih => exact ih (hasExecutorAt_addToGroups h)

theorem hasExecutorAt_foldl_addToGroups_self {ds : List BackendDescriptor} (hd : d ∈ ds)
    {desc : ExecutorGroupDesc} (hdesc : desc ∈ d.executorGroups) :
    hasExecutorAt (ds.foldl addToGroups groups) desc.name d.address = true := by
  induction ds generalizing groups with
  | nil => cases hd
  | cons d' ds ih =>
    rw [List.foldl_cons]
    rcases List.mem_cons.mp hd with rfl | hd
    · exact hasExecutorAt_foldl_addToGroups (hasExecutorAt_addToGroups_self hdesc)
    · exact ih hd

end Groups

/-! ## The blacklist -/

namespace ExecutorBlacklist

variable {bl : ExecutorBlacklist} {d : BackendDescriptor} {e' : BlacklistEntry}

theorem findAndRemove_snd (bl : ExecutorBlacklist) (d : BackendDescriptor) :
    (bl.findAndRemove d).2 = bl.filter (·.beDesc.address ≠ d.address) := by
  unfold findAndRemove
  split
  · next hnone =>
    refine (List.filter_eq_self.mpr fun e he => ?_).symm
    simpa using List.find?_eq_none.mp hnone e he
  · rfl

theorem findAndRemove_fst (h : (bl.findAndRemove d).1 = .blacklisted) :
    ∃ e ∈ bl, e.beDesc.address = d.address ∧ e.state = .blacklisted := by
  unfold findAndRemove at h
  split at h
  · cases h
  · next e he => exact ⟨e, List.mem_of_find?_eq_some he, by simpa using List.find?_some he, h⟩

theorem mem_findAndRemove (h : e' ∈ (bl.findAndRemove d).2) :
    e' ∈ bl ∧ e'.beDesc.address ≠ d.address := by
  simpa [findAndRemove_snd] using h

theorem nodup_findAndRemove (hn : (bl.map (·.beDesc.address)).Nodup) :
    ((bl.findAndRemove d).2.map (·.beDesc.address)).Nodup := by
  rw [findAndRemove_snd]
  exact hn.sublist ((List.filter_sublist _).map _)

theorem mem_blacklist {now : Nat} (h : e' ∈ bl.blacklist d now) :
    e' ∈ bl ∧ e'.beDesc.address ≠ d.address ∨
      e'.beDesc.address = d.address ∧ ((∃ e ∈ bl, e'.beDesc = e.beDesc) ∨ e'.beDesc = d) := by
  unfold blacklist at h
  split at h
  · obtain ⟨e, he, rfl⟩ := List.mem_map.mp h
    by_cases ha : e.beDesc.address = d.address
    · rw [if_pos ha]; exact .inr ⟨ha, .inl ⟨e, he, rfl⟩⟩
    · rw [if_neg ha]; exact .inl ⟨he, ha⟩
  · next hany =>
    rcases List.mem_append.mp h with h | h
    · exact .inl ⟨h, fun ha => hany (List.any_eq_true.mpr ⟨e', h, by simp [ha]⟩)⟩
    · rw [List.mem_singleton.mp h]; exact .inr ⟨rfl, .inr rfl⟩

theorem nodup_blacklist {now : Nat} (hn : (bl.map (·.beDesc.address)).Nodup) :
    ((bl.blacklist d now).map (·.beDesc.address)).Nodup := by
  unfold blacklist
  split
  · rw [List.map_map]
    convert hn using 2
    funext e
    by_cases ha : e.beDesc.address = d.address <;> simp [ha]
  · next hany =>
    rw [List.map_append, List.map_singleton, List.nodup_append]
    refine ⟨hn, List.nodup_singleton _, fun x hx hx' => hany ?_⟩
    obtain ⟨e, he, rfl⟩ := List.mem_map.mp hx
    have ha : e.beDesc.address = d.address := List.mem_singleton.mp hx'
    exact List.any_eq_true.mpr ⟨e, he, by simp [ha]⟩

variable {t : BlacklistTimeouts} {now : Nat}

/-- An entry after `Maintenance` holds the descriptor of an entry before, and is still
blacklisted only if that entry was and had not timed out. -/
theorem mem_maintenance_fst (h : e' ∈ (bl.maintenance t now).1) :
    ∃ e ∈ bl, e'.beDesc = e.beDesc ∧
      (e'.state = .blacklisted → e' = e ∧ timedOut t now e = false) := by
  obtain ⟨e, he, hf⟩ := List.mem_filterMap.mp h
  refine ⟨e, he, ?_⟩
  split_ifs at hf with ht
  · cases hf; exact ⟨rfl, fun h => by cases h⟩
  · cases hf; exact ⟨rfl, fun _ => ⟨rfl, by simpa using ht⟩⟩

theorem mem_maintenance_snd (h : d ∈ (bl.maintenance t now).2) :
    ∃ e ∈ bl, e.beDesc = d ∧ timedOut t now e = true ∧ e.state = .blacklisted := by
  obtain ⟨e, he, rfl⟩ := List.mem_map.mp h
  obtain ⟨he, hc⟩ := List.mem_filter.mp he
  simp only [Bool.and_eq_true, decide_eq_true_eq] at hc
  exact ⟨e, he, rfl, hc.1, hc.2⟩

theorem maintenance_fst_sublist :
    ((bl.maintenance t now).1.map (·.beDesc.address)).Sublist (bl.map (·.beDesc.address)) := by
  induction bl with
  | nil => exact List.Sublist.slnil
  | cons e bl ih =>
    simp only [maintenance, List.filterMap_cons, List.map_cons] at ih ⊢
    split_ifs
    · exact ih.cons₂ _
    · exact ih.cons _
    · exact ih.cons₂ _

/-- With one entry per address, no entry at the address of a backend on the probation list
is still blacklisted. -/
theorem maintenance_probation (hn : (bl.map (·.beDesc.address)).Nodup)
    (hd : d ∈ (bl.maintenance t now).2) :
    ∀ e' ∈ (bl.maintenance t now).1, e'.beDesc.address = d.address →
      e'.state ≠ .blacklisted := by
  obtain ⟨e, he, rfl, ht, -⟩ := mem_maintenance_snd hd
  intro e' he' ha hs
  obtain ⟨e₀, he₀, hd₀, hst⟩ := mem_maintenance_fst he'
  obtain ⟨rfl, ht₀⟩ := hst hs
  obtain rfl : e' = e := List.inj_on_of_nodup_map hn he₀ he ha
  rw [ht] at ht₀
  cases ht₀

end ExecutorBlacklist

/-! ## The invariant -/

section Invariant

variable (reg : Registry) (cfg : Config)

/-- Executor `b` of a group named `name`, as `CheckConsistency` wants it and more: an executor
that is not quiescing, at the address of a current executor that is not quiescing and names
the group, and with no blacklisted entry at its address. -/
structure GroupMember (backends : BackendIdMap) (bl : ExecutorBlacklist) (name : String)
    (b : BackendDescriptor) : Prop where
  isExecutor : b.isExecutor = true
  isQuiescing : b.isQuiescing = false
  backend : ∃ k c, (k, c) ∈ backends ∧ c.address = b.address ∧ c.isExecutor = true ∧
    c.isQuiescing = false ∧ name ∈ c.executorGroups.map (·.name)
  notBlacklisted : ∀ e ∈ bl, e.beDesc.address = b.address → e.state ≠ .blacklisted

/-- A blacklist entry: a descriptor that is not quiescing and fits the key of a current
executor that is not quiescing, other than the local backend. -/
structure BlacklistMember (backends : BackendIdMap) (e : BlacklistEntry) : Prop where
  isQuiescing : e.beDesc.isQuiescing = false
  backend : ∃ k c, (k, c) ∈ backends ∧ k ≠ cfg.localBackendId ∧ reg.Fits k e.beDesc ∧
    c.isExecutor = true ∧ c.isQuiescing = false

/-- The local backend, registered as an executor that is not quiescing, has an executor at its
address in every group it names. -/
def LocalInGroups (backends : BackendIdMap) (groups : ExecutorGroups) : Prop :=
  ∀ l, backends.lookup cfg.localBackendId = some l → l.isExecutor = true → l.isQuiescing = false →
    ∀ desc ∈ l.executorGroups, hasExecutorAt groups desc.name l.address = true

/-- The invariant of the manager's snapshots. -/
structure Snapshot.Coherent (s : Snapshot) : Prop where
  backends : ∀ p ∈ s.currentBackends, reg.Fits p.1 p.2
  keys : (s.currentBackends.map (·.1)).Nodup
  localBeDesc : ∀ l, s.localBeDesc = some l → reg.Fits cfg.localBackendId l
  members : ∀ name b, InGroup s.executorGroups name b →
    GroupMember s.currentBackends s.executorBlacklist name b
  blacklist : ∀ e ∈ s.executorBlacklist, BlacklistMember reg cfg s.currentBackends e
  addresses : (s.executorBlacklist.map (·.beDesc.address)).Nodup
  localMember : LocalInGroups cfg s.currentBackends s.executorGroups

variable {reg cfg} {s : Snapshot}

theorem Snapshot.Coherent.key_eq (hs : s.Coherent reg cfg) {k k' : String}
    {c c' : BackendDescriptor} (h : (k, c) ∈ s.currentBackends) (h' : (k', c') ∈ s.currentBackends)
    (ha : c.address = c'.address) : k = k' ∧ c = c' := by
  obtain rfl := reg.address_inj ((hs.backends _ h).address.symm.trans
    (ha.trans (hs.backends _ h').address))
  exact ⟨rfl, BackendIdMap.eq_of_mem_of_nodup hs.keys h h'⟩

/-- A coherent snapshot passes `CheckConsistency`. -/
theorem Snapshot.Coherent.consistent (hs : s.Coherent reg cfg) : s.consistent = true := by
  unfold Snapshot.consistent checkConsistency
  refine List.all_eq_true.mpr fun g hg => List.all_eq_true.mpr fun b hb => ?_
  have hm := hs.members g.name b ⟨g, hg, rfl, hb⟩
  obtain ⟨k, c, hkc, ha, hex, hq, -⟩ := hm.backend
  obtain ⟨⟨k', c'⟩, hf⟩ : ∃ p, s.currentBackends.find? (·.2.address = b.address) = some p := by
    cases hf : s.currentBackends.find? (·.2.address = b.address) with
    | none => exact absurd (List.find?_eq_none.mp hf (k, c) hkc) (by simp [ha])
    | some p => exact ⟨p, rfl⟩
  have ha' : c'.address = b.address := by simpa using List.find?_some hf
  obtain ⟨rfl, rfl⟩ := hs.key_eq hkc (List.mem_of_find?_eq_some hf) (ha.trans ha'.symm)
  have hbl : s.executorBlacklist.isBlacklisted b = false := by
    refine List.any_eq_false.mpr fun e he => ?_
    simpa using hm.notBlacklisted e he
  simp [hf, hm.isExecutor, hm.isQuiescing, hex, hq, hbl]

end Invariant

/-! ## The branches of an update -/

section Branches

variable {reg : Registry} {cfg : Config} {s : Snapshot}

theorem GroupMember.mono {backends backends' : BackendIdMap} {bl bl' : ExecutorBlacklist}
    {name : String} {b : BackendDescriptor} (h : GroupMember backends bl name b)
    (hk : ∀ k c, (k, c) ∈ backends → c.address = b.address → (k, c) ∈ backends')
    (hbl : ∀ e ∈ bl', e.beDesc.address = b.address → e.state = .blacklisted → e ∈ bl) :
    GroupMember backends' bl' name b := by
  obtain ⟨k, c, hkc, ha, hex, hq, hn⟩ := h.backend
  exact ⟨h.isExecutor, h.isQuiescing, ⟨k, c, hk k c hkc ha, ha, hex, hq, hn⟩,
    fun e he hea hst => h.notBlacklisted e (hbl e he hea hst) hea hst⟩

theorem BlacklistMember.mono {backends backends' : BackendIdMap} {e : BlacklistEntry}
    (h : BlacklistMember reg cfg backends e)
    (hk : ∀ k c, (k, c) ∈ backends → k ≠ cfg.localBackendId → reg.Fits k e.beDesc →
      (k, c) ∈ backends') :
    BlacklistMember reg cfg backends' e := by
  obtain ⟨k, c, hkc, hl, hf, hex, hq⟩ := h.backend
  exact ⟨h.isQuiescing, k, c, hk k c hkc hl hf, hl, hf, hex, hq⟩

theorem BlacklistMember.of_beDesc {backends : BackendIdMap} {e e' : BlacklistEntry}
    (h : BlacklistMember reg cfg backends e) (he : e'.beDesc = e.beDesc) :
    BlacklistMember reg cfg backends e' :=
  ⟨he ▸ h.isQuiescing, he ▸ h.backend⟩

theorem LocalInGroups.mono {backends backends' : BackendIdMap} {groups groups' : ExecutorGroups}
    (h : LocalInGroups cfg backends groups)
    (hk : ∀ l, backends'.lookup cfg.localBackendId = some l →
      backends.lookup cfg.localBackendId = some l)
    (hg : ∀ l, backends'.lookup cfg.localBackendId = some l → ∀ name,
      hasExecutorAt groups name l.address = true → hasExecutorAt groups' name l.address = true) :
    LocalInGroups cfg backends' groups' := fun l hl hex hq desc hd =>
  hg l hl _ (h l (hk l hl) hex hq desc hd)

theorem coherent_empty : Snapshot.empty.Coherent reg cfg where
  backends _ h := absurd h (List.not_mem_nil _)
  keys := List.nodup_nil
  localBeDesc _ h := by cases h
  members _ _ h := by obtain ⟨_, h, -⟩ := h; exact absurd h (List.not_mem_nil _)
  blacklist _ h := absurd h (List.not_mem_nil _)
  addresses := List.nodup_nil
  localMember _ h := by cases h

namespace Snapshot.Coherent

variable (hs : s.Coherent reg cfg)
include hs

theorem withLocal (x : Option BackendDescriptor) (v : Nat)
    (hx : ∀ l, x = some l → reg.Fits cfg.localBackendId l) :
    ({ s with localBeDesc := x, version := v } : Snapshot).Coherent reg cfg :=
  ⟨hs.backends, hs.keys, hx, hs.members, hs.blacklist, hs.addresses, hs.localMember⟩

theorem assign {k : String} {d : BackendDescriptor} (hd : reg.Fits k d) :
    ∀ p ∈ s.currentBackends.assign k d, reg.Fits p.1 p.2 := fun ⟨_, _⟩ hp => by
  rcases BackendIdMap.mem_assign hp with ⟨-, hp⟩ | ⟨rfl, rfl⟩
  · exact hs.backends _ hp
  · exact hd

/-- The delete branch: the key leaves the backends, the entry at its address leaves the
blacklist, and the backend leaves its groups unless it was quiescing, no executor or
blacklisted, in which case it was in none. -/
theorem delete {k : String} {o : BackendDescriptor} (ho : s.currentBackends.lookup k = some o) :
    ({ s with
        currentBackends := BackendIdMap.erase s.currentBackends k
        executorGroups :=
          if o.isExecutor && !o.isQuiescing &&
              (s.executorBlacklist.findAndRemove o).1 != .blacklisted then
            removeFromGroups s.executorGroups o
          else s.executorGroups
        executorBlacklist := (s.executorBlacklist.findAndRemove o).2 } : Snapshot).Coherent reg cfg := by
  have hko := BackendIdMap.mem_of_lookup_eq_some ho
  have hfo := hs.backends _ hko
  refine ⟨fun p hp => hs.backends p (BackendIdMap.mem_erase.mp hp).1,
    BackendIdMap.nodup_erase hs.keys, hs.localBeDesc, fun name b hb => ?_,
    fun e he => ?_, ExecutorBlacklist.nodup_findAndRemove hs.addresses, ?lm⟩
  case lm =>
    refine hs.localMember.mono (fun _ hl => (BackendIdMap.lookup_erase_eq_some.mp hl).2)
      fun l hl _ h => ?_
    obtain ⟨hkl, hl⟩ := BackendIdMap.lookup_erase_eq_some.mp hl
    have hfl := hs.backends _ (BackendIdMap.mem_of_lookup_eq_some hl)
    dsimp only
    split
    · exact hasExecutorAt_removeFromGroups h fun ha => hkl (hfl.key_eq hfo ha)
    · exact h
  · obtain ⟨hb, hne⟩ : InGroup s.executorGroups name b ∧ b.address ≠ o.address := by
      split at hb
      · obtain ⟨hb, hne⟩ := inGroup_removeFromGroups hb
        refine ⟨hb, fun ha => hne ?_ ha⟩
        obtain ⟨k₁, c₁, h₁, ha₁, -, -, hn⟩ := (hs.members name b hb).backend
        rwa [← (hs.key_eq h₁ hko (ha₁.trans ha)).2]
      · next hcond =>
        refine ⟨hb, fun ha => ?_⟩
        have hm := hs.members name b hb
        obtain ⟨k₁, c₁, h₁, ha₁, hex, hq, -⟩ := hm.backend
        obtain ⟨-, rfl⟩ := hs.key_eq h₁ hko (ha₁.trans ha)
        obtain ⟨e, he, hea, hst⟩ := ExecutorBlacklist.findAndRemove_fst
          (by simpa [hex, hq] using hcond)
        exact hm.notBlacklisted e he (hea.trans ha.symm) hst
    exact (hs.members name b hb).mono (fun _ _ h₁ ha₁ => BackendIdMap.mem_erase.mpr
        ⟨h₁, (hs.backends _ h₁).key_ne hfo fun ha => hne (ha₁.symm.trans ha)⟩)
      fun _ he _ _ => (ExecutorBlacklist.mem_findAndRemove he).1
  · obtain ⟨he, hne⟩ := ExecutorBlacklist.mem_findAndRemove he
    exact (hs.blacklist e he).mono fun _ _ h₁ _ hf =>
      BackendIdMap.mem_erase.mpr ⟨h₁, hf.key_ne hfo hne⟩

/-- The update branch, for a descriptor that fits its key: the entry at the key's address
leaves the blacklist, and the backend leaves its groups when it starts quiescing. -/
theorem update {k : String} {o d : BackendDescriptor} (ho : s.currentBackends.lookup k = some o)
    (hd : reg.Fits k d) (hkl : k ≠ cfg.localBackendId) :
    ({ s with
        currentBackends := s.currentBackends.assign k d
        executorGroups :=
          if d.isQuiescing && !o.isQuiescing && o.isExecutor &&
              (s.executorBlacklist.findAndRemove d).1 != .blacklisted then
            removeFromGroups s.executorGroups d
          else s.executorGroups
        executorBlacklist := (s.executorBlacklist.findAndRemove d).2 } : Snapshot).Coherent reg cfg := by
  have hko := BackendIdMap.mem_of_lookup_eq_some ho
  have hfo := hs.backends _ hko
  refine ⟨hs.assign hd, BackendIdMap.nodup_assign hs.keys, hs.localBeDesc, fun name b hb => ?_,
    fun e he => ?_, ExecutorBlacklist.nodup_findAndRemove hs.addresses, ?lm⟩
  case lm =>
    refine hs.localMember.mono (fun _ hl => (BackendIdMap.lookup_assign_of_ne hkl.symm).symm.trans hl)
      fun l hl _ h => ?_
    rw [BackendIdMap.lookup_assign_of_ne hkl.symm] at hl
    dsimp only
    split
    · exact hasExecutorAt_removeFromGroups h fun ha =>
        hkl ((hs.backends _ (BackendIdMap.mem_of_lookup_eq_some hl)).key_eq hd ha).symm
    · exact h
  · have hb₀ : InGroup s.executorGroups name b := by
      split at hb
      · exact (inGroup_removeFromGroups hb).1
      · exact hb
    have hm := hs.members name b hb₀
    by_cases ha : b.address = d.address
    · obtain ⟨k₁, c₁, h₁, ha₁, hex, hq, hn⟩ := hm.backend
      obtain ⟨rfl, rfl⟩ := hs.key_eq h₁ hko (ha₁.trans (ha.trans (hd.address_eq hfo)))
      rw [← hd.executorGroups_eq hfo] at hn
      have hdq : d.isQuiescing = false := by
        cases hdq : d.isQuiescing
        · rfl
        · by_cases hr : (s.executorBlacklist.findAndRemove d).1 = .blacklisted
          · obtain ⟨e, he, hea, hst⟩ := ExecutorBlacklist.findAndRemove_fst hr
            exact absurd hst (hm.notBlacklisted e he (hea.trans ha.symm))
          · rw [if_pos (by simp [hdq, hq, hex, hr])] at hb
            exact absurd ha ((inGroup_removeFromGroups hb).2 hn)
      exact ⟨hm.isExecutor, hm.isQuiescing, ⟨k₁, d, BackendIdMap.mem_assign_self, ha.symm,
        (hd.isExecutor_eq hfo).trans hex, hdq, hn⟩,
        fun e he hea => absurd (hea.trans ha) (ExecutorBlacklist.mem_findAndRemove he).2⟩
    · exact hm.mono (fun _ _ h₁ ha₁ => BackendIdMap.mem_assign_of_ne h₁
          ((hs.backends _ h₁).key_ne hd fun h => ha (ha₁.symm.trans h)))
        fun _ he _ _ => (ExecutorBlacklist.mem_findAndRemove he).1
  · obtain ⟨he, hne⟩ := ExecutorBlacklist.mem_findAndRemove he
    exact (hs.blacklist e he).mono fun _ _ h₁ _ hf =>
      BackendIdMap.mem_assign_of_ne h₁ (hf.key_ne hd hne)

/-- The create branch, for a descriptor that fits its new key: no group holds and no
blacklist entry names the key's address, so the backend joins its groups cleanly. -/
theorem create {k : String} {d : BackendDescriptor} (hk : s.currentBackends.lookup k = none)
    (hd : reg.Fits k d) (hkl : k ≠ cfg.localBackendId) :
    ({ s with
        currentBackends := s.currentBackends.assign k d
        executorGroups :=
          if !d.isQuiescing && d.isExecutor then addToGroups s.executorGroups d
          else s.executorGroups } : Snapshot).Coherent reg cfg := by
  have hne : ∀ {k₁ c₁}, (k₁, c₁) ∈ s.currentBackends → k₁ ≠ k := fun h₁ hk₁ =>
    BackendIdMap.not_mem_of_lookup_eq_none hk (hk₁ ▸ h₁)
  have hstay : ∀ k₁ c₁, (k₁, c₁) ∈ s.currentBackends → (k₁, c₁) ∈ s.currentBackends.assign k d :=
    fun _ _ h₁ => BackendIdMap.mem_assign_of_ne h₁ (hne h₁)
  refine ⟨hs.assign hd, BackendIdMap.nodup_assign hs.keys, hs.localBeDesc, fun name b hb => ?_,
    fun e he => (hs.blacklist e he).mono fun k₁ c₁ h₁ _ _ => hstay k₁ c₁ h₁, hs.addresses, ?lm⟩
  case lm =>
    refine hs.localMember.mono (fun _ hl => (BackendIdMap.lookup_assign_of_ne hkl.symm).symm.trans hl)
      fun _ _ _ h => ?_
    dsimp only
    split
    · exact hasExecutorAt_addToGroups h
    · exact h
  have old : InGroup s.executorGroups name b →
      GroupMember (s.currentBackends.assign k d) s.executorBlacklist name b := fun hb =>
    (hs.members name b hb).mono (fun k₁ c₁ h₁ _ => hstay k₁ c₁ h₁) fun _ he _ _ => he
  split at hb
  · next hcond =>
    rcases inGroup_addToGroups hb with hb | ⟨rfl, hn⟩
    · exact old hb
    · simp only [Bool.and_eq_true, Bool.not_eq_true'] at hcond
      refine ⟨hcond.2, hcond.1, ⟨k, b, BackendIdMap.mem_assign_self, rfl, hcond.2, hcond.1, hn⟩,
        fun e he hea => ?_⟩
      obtain ⟨-, k₁, c₁, h₁, -, hf, -⟩ := hs.blacklist e he
      exact absurd (hf.key_eq hd hea) (hne h₁)
  · exact old hb

/-- Blacklist maintenance: the backends it puts on probation are current executors that are
not quiescing, now without a blacklisted entry, and rejoin the groups their key names. -/
theorem blacklistMaintenance (now : Nat) :
    (ClusterMembershipMgr.blacklistMaintenance cfg s now).Coherent reg cfg := by
  refine ⟨hs.backends, hs.keys, hs.localBeDesc, fun name b hb => ?_, fun e' he' => ?_,
    hs.addresses.sublist ExecutorBlacklist.maintenance_fst_sublist,
    hs.localMember.mono (fun _ hl => hl) fun _ _ _ h => hasExecutorAt_foldl_addToGroups h⟩
  · rcases inGroup_foldl_addToGroups hb with hb | ⟨hmem, hn⟩
    · refine (hs.members name b hb).mono (fun _ _ h₁ _ => h₁) fun e' he' _ hst => ?_
      obtain ⟨e, he, -, hst'⟩ := ExecutorBlacklist.mem_maintenance_fst he'
      exact (hst' hst).1 ▸ he
    · obtain ⟨e, he, rfl, -, -⟩ := ExecutorBlacklist.mem_maintenance_snd hmem
      obtain ⟨hq, k₁, c₁, h₁, -, hf, hex, hcq⟩ := hs.blacklist e he
      have hfc := hs.backends _ h₁
      exact ⟨(hf.isExecutor_eq hfc).trans hex, hq, ⟨k₁, c₁, h₁, hfc.address_eq hf, hex, hcq,
          hfc.executorGroups_eq hf ▸ hn⟩,
        ExecutorBlacklist.maintenance_probation hs.addresses hmem⟩
  · obtain ⟨e, he, hbd, -⟩ := ExecutorBlacklist.mem_maintenance_fst he'
    exact (hs.blacklist e he).of_beDesc hbd

/-- The local backend's update, for a descriptor that fits the local key: no blacklist entry
names the local backend, and its groups follow its quiescing and executor flags. -/
theorem updateLocalBackend {l : BackendDescriptor} (hl : reg.Fits cfg.localBackendId l) :
    (ClusterMembershipMgr.updateLocalBackend cfg s l).1.Coherent reg cfg := by
  refine ⟨hs.assign hl, BackendIdMap.nodup_assign hs.keys, hs.localBeDesc, fun name b hb => ?_,
    fun e he => (hs.blacklist e he).mono fun _ _ h₁ hk₁ _ => BackendIdMap.mem_assign_of_ne h₁ hk₁,
    hs.addresses, ?lm⟩
  case lm =>
    intro l' hl' hex hq desc hd
    dsimp only [ClusterMembershipMgr.updateLocalBackend] at hl' ⊢
    rw [BackendIdMap.lookup_assign, if_pos rfl] at hl'
    cases hl'
    rw [if_neg (by simp [hq]), if_pos hex]
    exact hasExecutorAt_addToGroups_self hd
  dsimp only [ClusterMembershipMgr.updateLocalBackend] at hb ⊢
  /- A member kept from before: at another address, or at the local address while the local
  backend stays a non-quiescing executor. -/
  have keep : InGroup s.executorGroups name b → (b.address = l.address →
      l.isExecutor = true ∧ l.isQuiescing = false) →
      GroupMember (s.currentBackends.assign cfg.localBackendId l) s.executorBlacklist name b := by
    intro hb hlx
    have hm := hs.members name b hb
    by_cases ha : b.address = l.address
    · obtain ⟨k₁, c₁, h₁, ha₁, -, -, hn⟩ := hm.backend
      obtain rfl : k₁ = cfg.localBackendId := (hs.backends _ h₁).key_eq hl (ha₁.trans ha)
      exact ⟨hm.isExecutor, hm.isQuiescing, ⟨_, l, BackendIdMap.mem_assign_self, ha.symm,
        (hlx ha).1, (hlx ha).2, (hs.backends _ h₁).executorGroups_eq hl ▸ hn⟩,
        hm.notBlacklisted⟩
    · exact hm.mono (fun _ _ h₁ ha₁ => BackendIdMap.mem_assign_of_ne h₁
        ((hs.backends _ h₁).key_ne hl fun h => ha (ha₁.symm.trans h))) fun _ he _ _ => he
  split_ifs at hb with hq hex
  · obtain ⟨hb, hne⟩ := inGroup_removeFromGroups hb
    refine keep hb fun ha => absurd ha (hne ?_)
    obtain ⟨k₁, c₁, h₁, ha₁, -, -, hn⟩ := (hs.members name b hb).backend
    obtain rfl : k₁ = cfg.localBackendId := (hs.backends _ h₁).key_eq hl (ha₁.trans ha)
    exact (hs.backends _ h₁).executorGroups_eq hl ▸ hn
  · have hq : l.isQuiescing = false := by simpa using hq
    rcases inGroup_addToGroups hb with hb | ⟨rfl, hn⟩
    · exact keep hb fun _ => ⟨hex, hq⟩
    · refine ⟨hex, hq, ⟨_, b, BackendIdMap.mem_assign_self, rfl, hex, hq, hn⟩,
        fun e he hea => ?_⟩
      obtain ⟨-, k₁, c₁, h₁, hk₁, hf, -⟩ := hs.blacklist e he
      exact absurd (hf.key_eq hl hea) hk₁
  · refine keep hb fun ha => ?_
    obtain ⟨k₁, c₁, h₁, ha₁, hcx, -, -⟩ := (hs.members name b hb).backend
    obtain rfl : k₁ = cfg.localBackendId := (hs.backends _ h₁).key_eq hl (ha₁.trans ha)
    rw [(hs.backends _ h₁).isExecutor_eq hl] at hcx
    simp [hcx] at hex

/-- The snapshot `BlacklistExecutor` builds, for a descriptor that fits a key other than the
local one, is not quiescing, and has the address of a group member: the backend leaves the
groups its key names and is blacklisted. -/
theorem blacklistExecutor {be : BackendDescriptor} {k₀ name₀ : String} {b₀ : BackendDescriptor}
    (hf : reg.Fits k₀ be) (hq : be.isQuiescing = false) (hk₀ : k₀ ≠ cfg.localBackendId)
    (hb₀ : InGroup s.executorGroups name₀ b₀) (ha₀ : b₀.address = be.address) (now : Nat) :
    ({ s with
        executorGroups := removeFromGroups s.executorGroups be
        executorBlacklist := s.executorBlacklist.blacklist be now } : Snapshot).Coherent reg cfg := by
  obtain ⟨k₁, c₁, h₁, ha₁, hcx, hcq, -⟩ := (hs.members name₀ b₀ hb₀).backend
  obtain rfl : k₁ = k₀ := (hs.backends _ h₁).key_eq hf (ha₁.trans ha₀)
  refine ⟨hs.backends, hs.keys, hs.localBeDesc, fun name b hb => ?_, fun e' he' => ?_,
    ExecutorBlacklist.nodup_blacklist hs.addresses, hs.localMember.mono (fun _ hl => hl)
      fun _ hl _ h => hasExecutorAt_removeFromGroups h fun ha =>
        hk₀ (hf.key_eq (hs.backends _ (BackendIdMap.mem_of_lookup_eq_some hl)) ha.symm)⟩
  · obtain ⟨hb, hne⟩ := inGroup_removeFromGroups hb
    have hm := hs.members name b hb
    have hba : b.address ≠ be.address := fun ha => by
      obtain ⟨k₂, c₂, h₂, ha₂, -, -, hn⟩ := hm.backend
      obtain rfl : k₂ = k₁ := (hs.backends _ h₂).key_eq hf (ha₂.trans ha)
      exact hne ((hs.backends _ h₂).executorGroups_eq hf ▸ hn) ha
    refine hm.mono (fun _ _ h _ => h) fun e' he' hea _ => ?_
    rcases ExecutorBlacklist.mem_blacklist he' with ⟨he', -⟩ | ⟨hea', -⟩
    · exact he'
    · exact absurd (hea.symm.trans hea') hba
  · rcases ExecutorBlacklist.mem_blacklist he' with ⟨he', -⟩ | ⟨-, ⟨e, he, hbd⟩ | hbd⟩
    · exact hs.blacklist e' he'
    · exact (hs.blacklist e he).of_beDesc hbd
    · exact ⟨hbd ▸ hq, k₁, c₁, h₁, hk₀, hbd ▸ hf, hcx, hcq⟩

/-- One item of the loop, whose descriptor fits its key if the loop would register it. -/
theorem processTopicItem (u : Bool) {item : TopicItem}
    (hfit : item.deleted = false → item.key ≠ cfg.localBackendId →
      ∀ d, item.value = some d → reg.Fits item.key d) :
    (ClusterMembershipMgr.processTopicItem cfg s u item).1.Coherent reg cfg := by
  unfold ClusterMembershipMgr.processTopicItem
  split
  · split
    · exact hs
    · next o ho => exact hs.delete ho
  · next hdel =>
    split
    · exact hs
    · next d hv =>
      split
      · exact hs
      · next hskip =>
        have hkl : item.key ≠ cfg.localBackendId := fun hk => hskip (by simp [hk])
        have hd := hfit (by simpa using hdel) hkl d hv
        split
        · next o ho => exact hs.update ho hd hkl
        · next ho => exact hs.create ho hd hkl

theorem processTopicEntries (u : Bool) {items : List TopicItem}
    (hfit : ∀ item ∈ items, item.deleted = false → item.key ≠ cfg.localBackendId →
      ∀ d, item.value = some d → reg.Fits item.key d) :
    (ClusterMembershipMgr.processTopicEntries cfg s u items).1.Coherent reg cfg := by
  induction items generalizing s u with
  | nil => exact hs
  | cons item items ih =>
    rw [ClusterMembershipMgr.processTopicEntries_cons]
    exact ih (hs.processTopicItem u (hfit item (List.mem_cons_self _ _))) _
      fun i hi => hfit i (List.mem_cons_of_mem _ hi)

theorem localBackendStep {l : Option BackendDescriptor}
    (hl : ∀ l', l = some l' → reg.Fits cfg.localBackendId l') :
    (ClusterMembershipMgr.localBackendStep cfg s l).1.Coherent reg cfg := by
  unfold ClusterMembershipMgr.localBackendStep
  split
  · next l' =>
    split
    · exact hs.updateLocalBackend (hl l' rfl)
    · exact hs
  · exact hs

end Snapshot.Coherent

end Branches

/-! ## Whole calls and runs -/

namespace ClusterMembershipMgr

variable (reg : Registry) (cfg : Config)

/-- The invariant of the manager: both snapshots are coherent. -/
structure Coherent (m : ClusterMembershipMgr) : Prop where
  current : m.currentMembership.Coherent reg cfg
  recovering : ∀ s, m.recoveringMembership = some s → s.Coherent reg cfg

variable {reg cfg} {m m' : ClusterMembershipMgr}

theorem coherent_init : init.Coherent reg cfg := ⟨coherent_empty, fun _ h => by cases h⟩

namespace Coherent

variable (hm : m.Coherent reg cfg)
include hm

theorem base : m.baseSnapshot.Coherent reg cfg := by
  unfold baseSnapshot
  cases h : m.recoveringMembership with
  | none => exact hm.current
  | some s => exact hm.recovering s h

theorem newSnapshot (update : TopicDelta) {env : Env}
    (hl : ∀ l, env.localBeDesc = some l → reg.Fits cfg.localBackendId l) :
    (ClusterMembershipMgr.newSnapshot m update env).Coherent reg cfg := by
  unfold ClusterMembershipMgr.newSnapshot
  have hs : (if update.isDelta then m.baseSnapshot else Snapshot.empty).Coherent reg cfg := by
    split
    · exact hm.base
    · exact coherent_empty
  refine hs.withLocal _ _ fun l h => ?_
  cases he : env.localBeDesc with
  | none => rw [he] at h; exact hs.localBeDesc l h
  | some l' => rw [he] at h; cases h; exact hl _ he

/-- `UpdateMembership` past its early return keeps both snapshots coherent. -/
theorem applyUpdate {update : TopicDelta} {env : Env}
    (hitems : ∀ item ∈ update.topicEntries, item.deleted = false →
      item.key ≠ cfg.localBackendId → ∀ d, item.value = some d → reg.Fits item.key d)
    (hl : ∀ l, env.localBeDesc = some l → reg.Fits cfg.localBackendId l)
    (updateLocalServer needsBlacklistMaintenance : Bool) :
    (ClusterMembershipMgr.applyUpdate cfg m update env updateLocalServer
      needsBlacklistMaintenance).1.Coherent reg cfg := by
  have hitems := (hm.newSnapshot update hl).processTopicEntries
    (updateLocalServer || !update.isDelta) hitems
  have hmaint : (if needsBlacklistMaintenance then
      ClusterMembershipMgr.blacklistMaintenance cfg (ClusterMembershipMgr.processTopicEntries cfg
        (ClusterMembershipMgr.newSnapshot m update env) (updateLocalServer || !update.isDelta)
          update.topicEntries).1 env.now
      else (ClusterMembershipMgr.processTopicEntries cfg (ClusterMembershipMgr.newSnapshot m update env)
        (updateLocalServer || !update.isDelta) update.topicEntries).1).Coherent reg cfg := by
    split
    · exact hitems.blacklistMaintenance _
    · exact hitems
  have hnew := hmaint.localBackendStep fun l h => hl l h
  unfold ClusterMembershipMgr.applyUpdate
  by_cases hr : env.ssIsRecovering = true
  · simp only [hr, if_true]
    exact ⟨hm.current, fun s h => Option.some.inj h ▸ hnew⟩
  · simp only [hr, if_false]
    exact ⟨hnew, fun s h => by cases h⟩

theorem updateMembership {incomingTopicDeltas : TopicDeltaMap} {env : Env}
    (hfit : reg.FitsAction cfg (.updateMembership incomingTopicDeltas env)) :
    (ClusterMembershipMgr.updateMembership cfg m incomingTopicDeltas env).1.Coherent reg cfg := by
  rcases updateMembership_cases m incomingTopicDeltas env with h | ⟨update, hu, -, h⟩ <;> rw [h]
  · exact hm
  · exact hm.applyUpdate (hfit.1 update hu) hfit.2 _ _

/-- `BlacklistExecutor` with the descriptor of a registered, non-quiescing executor: the
local backend is never blacklisted, and a backend in a group is a current executor. -/
theorem blacklistExecutor {beDesc : BackendDescriptor} {now : Nat} {events : List Event}
    (hfit : reg.FitsAction cfg (.blacklistExecutor beDesc now))
    (h : ClusterMembershipMgr.blacklistExecutor cfg m beDesc now = some (m', events)) :
    m'.Coherent reg cfg := by
  obtain ⟨⟨k₀, hf⟩, hq⟩ := hfit
  unfold ClusterMembershipMgr.blacklistExecutor at h
  split at h
  · cases h; exact hm
  split at h
  · cases h
  next l hlocal =>
  split at h
  · cases h; exact hm
  next hrefuse =>
  dsimp only at h
  split at h
  · cases h; exact hm
  next hpresent =>
  obtain ⟨desc, -, hd⟩ := List.any_eq_true.mp (by simpa using hpresent)
  split at hd
  · next group hgroup =>
    obtain ⟨b₀, hb₀⟩ := Option.isSome_iff_exists.mp hd
    have hg := List.mem_of_find?_eq_some hgroup
    have hgn : group.name = desc.name := by simpa using List.find?_some hgroup
    have hab : b₀.address = beDesc.address := by simpa using List.find?_some hb₀
    have hk₀ : k₀ ≠ cfg.localBackendId := by
      rintro rfl
      have hl := hm.current.localBeDesc l hlocal
      exact hrefuse ⟨hf.ipAddress.trans hl.ipAddress.symm,
        congrArg NetworkAddress.port (hf.address.trans hl.address.symm)⟩
    have hnew := hm.base.blacklistExecutor hf hq hk₀
      ⟨group, hg, rfl, List.mem_of_find?_eq_some hb₀⟩ hab now
    split at h
    · cases h; exact ⟨hm.current, fun s h => by cases h; exact hnew⟩
    · next hrec =>
      cases h
      exact ⟨hnew, fun s h => absurd (Option.isSome_iff_exists.mpr ⟨s, h⟩) hrec⟩
  · cases hd

theorem step {a : Action} {events : List Event} (hfit : reg.FitsAction cfg a)
    (h : ClusterMembershipMgr.step cfg m a = some (m', events)) : m'.Coherent reg cfg := by
  cases a with
  | updateMembership incomingTopicDeltas env =>
    obtain ⟨rfl, -⟩ := Prod.ext_iff.mp (Option.some.inj h).symm
    exact hm.updateMembership hfit
  | blacklistExecutor beDesc now => exact hm.blacklistExecutor hfit h

end Coherent

theorem setState_mem_applyUpdate {update : TopicDelta} {env : Env} {u nm : Bool} {s : Snapshot}
    (hs : Event.setState s ∈ (applyUpdate cfg m update env u nm).2) :
    s = (applyUpdate cfg m update env u nm).1.currentMembership := by
  have hlocal : ∀ s' l, Event.setState s ∉ (localBackendStep cfg s' l).2 := fun s' l => by
    unfold localBackendStep updateLocalBackend
    split
    · split <;> simp
    · simp
  have hnotify : ∀ bs, Event.setState s ∉ notifyLocalServerForDeletedBackend cfg bs := fun bs => by
    unfold notifyLocalServerForDeletedBackend; split <;> simp
  have hfront : ∀ bs, Event.setState s ∉ updateFrontendExecutorMembership cfg bs := fun bs => by
    unfold updateFrontendExecutorMembership; split <;> simp
  unfold applyUpdate at hs ⊢
  by_cases hr : env.ssIsRecovering = true
  · simp only [hr, ↓reduceIte] at hs
    exact absurd hs (hlocal _ _)
  · simp only [hr, Bool.false_eq_true, ↓reduceIte, List.mem_append, List.mem_singleton] at hs ⊢
    rcases hs with ((hs | hs) | hs) | hs
    · exact absurd hs (hlocal _ _)
    · split at hs
      · exact absurd hs (hnotify _)
      · cases hs
    · exact absurd hs (hfront _)
    · cases hs; rfl

theorem step_setState {a : Action} {events : List Event} {s : Snapshot}
    (h : step cfg m a = some (m', events)) (hs : Event.setState s ∈ events) :
    s = m'.currentMembership := by
  cases a with
  | updateMembership incomingTopicDeltas env =>
    obtain ⟨rfl, rfl⟩ := Prod.ext_iff.mp (Option.some.inj h).symm
    rcases updateMembership_cases m incomingTopicDeltas env with h | ⟨update, -, -, h⟩ <;>
      rw [h] at hs ⊢
    · cases hs
    · exact setState_mem_applyUpdate hs
  | blacklistExecutor beDesc now =>
    rcases blacklistExecutor_cases h with ⟨-, rfl⟩ | ⟨_, -, ⟨-, -, rfl⟩ | ⟨-, rfl, rfl⟩⟩
    · cases hs
    · cases hs
    · cases List.mem_singleton.mp hs; rfl

/-- Along a run of calls that keep to the registry the manager stays coherent, and every
snapshot it publishes is. -/
theorem Coherent.run (hm : m.Coherent reg cfg) {acts : List Action}
    {events : List (List Event)} (hfit : ∀ a ∈ acts, reg.FitsAction cfg a)
    (h : ClusterMembershipMgr.run cfg m acts = some (m', events)) :
    m'.Coherent reg cfg ∧
      ∀ evs ∈ events, ∀ s, Event.setState s ∈ evs → s.Coherent reg cfg := by
  induction acts generalizing m events with
  | nil => cases h; exact ⟨hm, fun _ h => absurd h (List.not_mem_nil _)⟩
  | cons a acts ih =>
    simp only [ClusterMembershipMgr.run, Option.bind_eq_some, Option.map_eq_some'] at h
    obtain ⟨r, hstep, t, hrun, ht⟩ := h
    obtain ⟨rfl, rfl⟩ := Prod.ext_iff.mp ht
    have hr := hm.step (hfit a (List.mem_cons_self _ _)) hstep
    obtain ⟨hend, hevs⟩ := ih hr (fun a ha => hfit a (List.mem_cons_of_mem _ ha)) hrun
    refine ⟨hend, fun evs hevs' s hs => ?_⟩
    rcases List.mem_cons.mp hevs' with rfl | hevs'
    · rw [step_setState hstep hs]; exact hr.current
    · exact hevs evs hevs' s hs

/-- Along every run of calls that keep to the registry (each key re-registers only with the
address, IP address, executor flag and groups it had, and `BlacklistExecutor` gets the
descriptor of a registered executor that is not quiescing), `CheckConsistency` holds of the
published and the recovering snapshot and of every snapshot handed to `SetState`; and of every
snapshot a `DCHECK(CheckConsistency(...))` of a further such `UpdateMembership` call tests:
after each prefix of its item loop, after blacklist maintenance, and after the local backend's
update. -/
theorem checkConsistency_of_registry (reg : Registry) {acts : List Action}
    {m : ClusterMembershipMgr} {events : List (List Event)}
    (hfit : ∀ a ∈ acts, reg.FitsAction cfg a) (h : run cfg init acts = some (m, events)) :
    m.currentMembership.consistent = true ∧
      (∀ s, m.recoveringMembership = some s → s.consistent = true) ∧
      (∀ evs ∈ events, ∀ s, Event.setState s ∈ evs → s.consistent = true) ∧
      ∀ (incomingTopicDeltas : TopicDeltaMap) (env : Env) (update : TopicDelta),
        reg.FitsAction cfg (.updateMembership incomingTopicDeltas env) →
        incomingTopicDeltas.lookup cfg.membershipTopic = some update → ∀ (u : Bool) (n : Nat),
          let items := (processTopicEntries cfg (newSnapshot m update env) u
            (update.topicEntries.take n)).1
          items.consistent = true ∧ (blacklistMaintenance cfg items env.now).consistent = true ∧
            (localBackendStep cfg items env.localBeDesc).1.consistent = true ∧
            (localBackendStep cfg (blacklistMaintenance cfg items env.now)
              env.localBeDesc).1.consistent = true := by
  obtain ⟨hm, hevs⟩ := (coherent_init : init.Coherent reg cfg).run hfit h
  refine ⟨hm.current.consistent, fun s hs => (hm.recovering s hs).consistent,
    fun evs he s hs => (hevs evs he s hs).consistent, fun _ env update hfit' hu u n => ?_⟩
  have hitems : (processTopicEntries cfg (newSnapshot m update env) u
      (update.topicEntries.take n)).1.Coherent reg cfg :=
    (hm.newSnapshot update hfit'.2).processTopicEntries u
      fun item hi => hfit'.1 update hu item (List.mem_of_mem_take hi)
  exact ⟨hitems.consistent, (hitems.blacklistMaintenance _).consistent,
    (hitems.localBackendStep hfit'.2).consistent,
    ((hitems.blacklistMaintenance _).localBackendStep hfit'.2).consistent⟩

end ClusterMembershipMgr

namespace Demo

/-- The registry of the small cluster: key `a` is executor `host-a`, the local key the
coordinator, and any other key a backend of its own host. -/
def registry : Registry where
  address k := if k = "a" then executorA.address
    else if k = config.localBackendId then coordinator.address else ⟨k, 0⟩
  ipAddress k := if k = "a" then executorA.ipAddress
    else if k = config.localBackendId then coordinator.ipAddress else ""
  isExecutor k := k = "a"
  executorGroups k := if k = "a" then [defaultGroup] else []
  address_inj {k k'} h := by
    dsimp only at h
    split_ifs at h <;> simp_all [executorA, coordinator, config]

end Demo

namespace ClusterMembershipMgr

open Demo in
/-- Executor `a` registers, is blacklisted, and after its timeout goes on probation back into
the default group: every snapshot along the way passes `CheckConsistency`. -/
theorem checkConsistency_of_registry_probation :
    let acts : List Action :=
      [.updateMembership (membershipUpdate true [register "a" executorA]) (env 0),
       .blacklistExecutor executorA 1,
       .updateMembership (membershipUpdate true []) (env 20)]
    (∀ a ∈ acts, registry.FitsAction config a) ∧
      ∃ m events, run config init acts = some (m, events) ∧
        m.currentMembership.consistent = true ∧
        (∀ s, m.recoveringMembership = some s → s.consistent = true) ∧
        (∀ evs ∈ events, ∀ s, Event.setState s ∈ evs → s.consistent = true) ∧
        ∀ (incomingTopicDeltas : TopicDeltaMap) (env : Env) (update : TopicDelta),
          registry.FitsAction config (.updateMembership incomingTopicDeltas env) →
          incomingTopicDeltas.lookup config.membershipTopic = some update → ∀ (u : Bool) (n : Nat),
            let items := (processTopicEntries config (newSnapshot m update env) u
              (update.topicEntries.take n)).1
            items.consistent = true ∧ (blacklistMaintenance config items env.now).consistent = true ∧
              (localBackendStep config items env.localBeDesc).1.consistent = true ∧
              (localBackendStep config (blacklistMaintenance config items env.now)
                env.localBeDesc).1.consistent = true := by
  intro acts
  have hfit : ∀ a ∈ acts, registry.FitsAction config a := by
    have hlocal : ∀ n l, (env n).localBeDesc = some l → registry.Fits config.localBackendId l := by
      rintro n l ⟨⟩
      exact ⟨rfl, rfl, rfl, rfl⟩
    simp only [acts, List.mem_cons, List.mem_singleton, List.not_mem_nil, or_false]
    rintro a (rfl | rfl | rfl)
    · refine ⟨fun update hu item hi _ _ d hv => ?_, hlocal 0⟩
      cases hu
      obtain rfl := List.mem_singleton.mp hi
      cases hv
      exact ⟨rfl, rfl, rfl, rfl⟩
    · exact ⟨⟨"a", rfl, rfl, rfl, rfl⟩, rfl⟩
    · refine ⟨fun update hu item hi => ?_, hlocal 20⟩
      cases hu
      exact absurd hi (List.not_mem_nil _)
  exact ⟨hfit, _, _, rfl, checkConsistency_of_registry registry hfit rfl⟩

end ClusterMembershipMgr

end Impala.Scheduling
