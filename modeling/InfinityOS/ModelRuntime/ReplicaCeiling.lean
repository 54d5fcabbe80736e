import InfinityOS.ModelRuntime.ReplicaPool

/-!
# The ceiling on planned replicas

Over exact numbers a plan has no more replicas than the demand allows or than it has modules:
each selected module gets one replica, whatever the ceiling. A module gets no more than it is
registered for, and the counts add up to the total.
-/

namespace InfinityOS

namespace ModelRuntime

/-- Exact arithmetic; the conversion to `u32` saturates. -/
instance Rat.instScoreArithmetic : ScoreArithmetic ℚ where
  zero := 0
  one := 1
  add a b := a + b
  sub a b := a - b
  mul a b := a * b
  lt a b := decide (a < b)
  ensembleThreshold := 7 / 10
  ge a b := decide (a ≥ b)
  ofUInt32 n := n.toNat
  ceilToUInt32 x := UInt32.ofNat (min ⌈x⌉.toNat (2 ^ 32 - 1))

section Registered

variable {F : Type}

/-- `register_module`, on the map of modules. -/
def registerModule (modules : HashMap String (ModelModule F)) (m : ModelModule F) :
    HashMap String (ModelModule F) :=
  let m := { m with maxReplicas := max m.maxReplicas 1 }
  modules.insert m.moduleId m

theorem registerModule_eq {κ : Type} (pool : ModelReplicaPool κ) (m : ModelModule Float) :
    (pool.registerModule m).modules = registerModule pool.modules m :=
  rfl

def registeredModules (registrations : List (ModelModule F)) : HashMap String (ModelModule F) :=
  registrations.foldl registerModule ∅

/-- The entries of the map are modules under their ids that allow a replica. -/
def WellRegistered (modules : HashMap String (ModelModule F)) : Prop :=
  ∀ (id : String) (m : ModelModule F), modules[id]? = some m →
    m.moduleId = id ∧ 1 ≤ m.maxReplicas.toNat

theorem wellRegistered_registerModule {modules : HashMap String (ModelModule F)}
    (h : WellRegistered modules) (m : ModelModule F) :
    WellRegistered (registerModule modules m) := by
  intro id m' hget
  simp only [registerModule] at hget
  rw [Maps.getElem?_insert_ite] at hget
  split at hget
  · next hid =>
      cases hget
      refine ⟨hid.symm, ?_⟩
      rw [UInt32.toNat_max]
      exact le_max_right _ _
  · exact h id m' hget

theorem wellRegistered_registeredModules (registrations : List (ModelModule F)) :
    WellRegistered (registeredModules registrations) := by
  unfold registeredModules
  have hempty : WellRegistered (∅ : HashMap String (ModelModule F)) := by
    intro id m hget
    rw [Std.ExtTreeMap.getElem?_empty] at hget
    cases hget
  generalize (∅ : HashMap String (ModelModule F)) = modules at hempty
  induction registrations generalizing modules with
  | nil => exact hempty
  | cons m rest ih => exact ih _ (wellRegistered_registerModule hempty m)

end Registered

/-! ## The selection -/

section Selection

variable {F : Type} [ScoreArithmetic F] {demand : ReplicaDemand F}

theorem mem_of_mem_rankModules {modules : List (ModelModule F)} {p : ModelModule F × F}
    (h : p ∈ rankModules demand modules) : p.1 ∈ modules := by
  unfold rankModules at h
  rw [List.mem_insertionSort, List.mem_map] at h
  obtain ⟨m, hm, rfl⟩ := h
  exact hm

/-- What is selected: nothing, the best module, or one of each kind. -/
theorem selectModules_cases (demand : ReplicaDemand F) (scored : List (ModelModule F × F)) :
    selectModules demand scored = scored.head?.toList ∨
      ∃ ml ai, needsEnsemble demand = true ∧ selectModules demand scored = [ml, ai] ∧
        ml ∈ scored ∧ ai ∈ scored ∧ ml.1.kind = .ml ∧ ai.1.kind = .ai := by
  unfold selectModules
  split
  · next hneeds =>
      cases hml : scored.find? fun p => p.1.kind = .ml with
      | none => exact .inl rfl
      | some ml =>
          cases hai : scored.find? fun p => p.1.kind = .ai with
          | none => exact .inl rfl
          | some ai =>
              exact .inr ⟨ml, ai, hneeds, rfl, List.mem_of_find?_eq_some hml,
                List.mem_of_find?_eq_some hai, by simpa using List.find?_some hml,
                by simpa using List.find?_some hai⟩
  · exact .inl rfl

theorem mem_of_mem_selectModules {scored : List (ModelModule F × F)} {p : ModelModule F × F}
    (h : p ∈ selectModules demand scored) : p ∈ scored := by
  rcases selectModules_cases demand scored with hselect | ⟨ml, ai, -, hselect, hml, hai, -, -⟩
  · rw [hselect, Option.mem_toList] at h
    exact List.mem_of_mem_head? h
  · rw [hselect, List.mem_pair] at h
    rcases h with rfl | rfl
    · exact hml
    · exact hai

theorem length_selectModules_le (demand : ReplicaDemand F) (scored : List (ModelModule F × F)) :
    (selectModules demand scored).length ≤ if needsEnsemble demand then 2 else 1 := by
  have hhead : scored.head?.toList.length ≤ 1 := by
    cases scored <;> simp
  rcases selectModules_cases demand scored with hselect | ⟨ml, ai, hneeds, hselect, -⟩
  · rw [hselect]
    split
    · exact hhead.trans (by decide)
    · exact hhead
  · rw [hselect, if_pos hneeds]
    rfl

theorem selectModules_ne_nil {scored : List (ModelModule F × F)} (h : scored ≠ []) :
    selectModules demand scored ≠ [] := by
  rcases selectModules_cases demand scored with hselect | ⟨ml, ai, -, hselect, -⟩
  · rw [hselect]
    cases scored with
    | nil => exact absurd rfl h
    | cons p rest => exact List.cons_ne_nil _ _
  · rw [hselect]
    exact List.cons_ne_nil _ _

end Selection

/-! ## The counts -/

section Counts

variable {F : Type}

def replicaSum (selections : List (ModelModuleSelection F)) : ℕ :=
  (selections.map fun s => s.replicas.toNat).sum

theorem map_moduleId_allocate (baseCount : UInt32) (index : ℕ) (remaining : UInt32)
    (selections : List (ModelModule F × F)) :
    (allocate baseCount index remaining selections).map ModelModuleSelection.moduleId =
      selections.map fun p => p.1.moduleId := by
  induction selections generalizing index remaining with
  | nil => rfl
  | cons p rest ih => rw [allocate, List.map_cons, ih, List.map_cons]

theorem length_allocate (baseCount : UInt32) (index : ℕ) (remaining : UInt32)
    (selections : List (ModelModule F × F)) :
    (allocate baseCount index remaining selections).length = selections.length := by
  have hids := congrArg List.length (map_moduleId_allocate baseCount index remaining selections)
  rwa [List.length_map, List.length_map] at hids

theorem replicas_of_mem_allocate {baseCount : UInt32} {index : ℕ} {remaining : UInt32}
    {selections : List (ModelModule F × F)} {s : ModelModuleSelection F}
    (h : s ∈ allocate baseCount index remaining selections) :
    ∃ p ∈ selections, s.moduleId = p.1.moduleId ∧ s.replicas.toNat ≤ p.1.maxReplicas.toNat ∧
      (1 ≤ p.1.maxReplicas.toNat → 1 ≤ s.replicas.toNat) := by
  induction selections generalizing index remaining with
  | nil => cases h
  | cons p rest ih =>
      rw [allocate, List.mem_cons] at h
      rcases h with rfl | h
      · refine ⟨p, List.mem_cons_self, rfl, ?_⟩
        dsimp only
        rw [UInt32.toNat_min, UInt32.toNat_max]
        exact ⟨min_le_right _ _, fun hroom => le_min (le_max_right _ _) hroom⟩
      · obtain ⟨q, hq, hrest⟩ := ih h
        exact ⟨q, List.mem_cons_of_mem _ hq, hrest⟩

theorem replicaSum_allocate_cons (baseCount : UInt32) (index : ℕ) (remaining : UInt32)
    (p : ModelModule F × F) (rest : List (ModelModule F × F)) :
    ∃ remaining', replicaSum (allocate baseCount index remaining (p :: rest)) ≤
      (if index = 0 then 1 + (remaining.toNat - baseCount.toNat) else 1) +
        replicaSum (allocate baseCount (index + 1) remaining' rest) := by
  rw [allocate, replicaSum, List.map_cons, List.sum_cons]
  refine ⟨_, Nat.add_le_add_right ?_ _⟩
  rw [UInt32.toNat_min, UInt32.toNat_max]
  apply (min_le_left _ _).trans
  by_cases hfirst : index = 0
  · rw [if_pos hfirst]
    split
    · next hmore =>
        have hlt : baseCount.toNat < remaining.toNat := UInt32.lt_iff_toNat_lt.mp hmore.2
        have hbound := remaining.toNat_lt_size
        have hsub : (remaining - baseCount).toNat = remaining.toNat - baseCount.toNat :=
          UInt32.toNat_sub_of_le _ _ (UInt32.le_iff_toNat_le.mpr hlt.le)
        rw [UInt32.toNat_add, hsub, UInt32.toNat_one]
        have hsize : UInt32.size = 2 ^ 32 := rfl
        omega
    · exact max_le (Nat.le_add_right _ _) (Nat.le_add_right _ _)
  · rw [if_neg hfirst, if_neg fun h => hfirst h.1]
    exact max_le le_rfl le_rfl

theorem replicaSum_allocate_succ_le (baseCount : UInt32) (index : ℕ) (remaining : UInt32)
    (selections : List (ModelModule F × F)) :
    replicaSum (allocate baseCount (index + 1) remaining selections) ≤ selections.length := by
  induction selections generalizing index remaining with
  | nil => exact le_rfl
  | cons p rest ih =>
      obtain ⟨remaining', hle⟩ := replicaSum_allocate_cons baseCount (index + 1) remaining p rest
      have hrest := ih (index + 1) remaining'
      rw [if_neg (Nat.succ_ne_zero index)] at hle
      rw [List.length_cons]
      omega

theorem replicaSum_allocate_le {selections : List (ModelModule F × F)} {baseCount : UInt32}
    (hbase : baseCount.toNat = selections.length) (hne : selections ≠ [])
    (remaining : UInt32) :
    replicaSum (allocate baseCount 0 remaining selections) ≤
      max remaining.toNat selections.length := by
  cases selections with
  | nil => exact absurd rfl hne
  | cons p rest =>
      obtain ⟨remaining', hle⟩ := replicaSum_allocate_cons baseCount 0 remaining p rest
      have hrest := replicaSum_allocate_succ_le baseCount 0 remaining' rest
      rw [if_pos rfl] at hle
      rw [List.length_cons] at hbase ⊢
      omega

theorem toNat_foldl_add (counts : List UInt32) (acc : UInt32) :
    (counts.foldl (· + ·) acc).toNat = (acc.toNat + (counts.map UInt32.toNat).sum) % 2 ^ 32 := by
  induction counts generalizing acc with
  | nil => exact (Nat.mod_eq_of_lt acc.toNat_lt).symm
  | cons n counts ih =>
      rw [List.foldl_cons, ih, UInt32.toNat_add, List.map_cons, List.sum_cons]
      omega

end Counts

/-! ## The plan over exact numbers -/

theorem clampUnit_le_one (x : ℚ) : clampUnit x ≤ 1 := by
  unfold clampUnit
  split
  · exact zero_le_one
  · split
    · exact le_rfl
    · next hle =>
        exact not_lt.mp fun h => hle (decide_eq_true h)

theorem toNat_desiredReplicaCount_le (maxReplicas : UInt32) {complexity : ℚ}
    (h : complexity ≤ 1) {baseCount : UInt32} (hbase : 1 ≤ baseCount.toNat) :
    (desiredReplicaCount maxReplicas complexity baseCount).toNat ≤
      max maxReplicas.toNat baseCount.toNat := by
  have hscaled : ⌈(maxReplicas.toNat : ℚ) * complexity⌉ ≤ maxReplicas.toNat := by
    rw [Int.ceil_le]
    exact mul_le_of_le_one_right (Nat.cast_nonneg _) h
  have hceil : (ScoreArithmetic.ceilToUInt32 (ScoreArithmetic.mul
      (ScoreArithmetic.ofUInt32 maxReplicas) complexity)).toNat ≤ maxReplicas.toNat := by
    change (UInt32.ofNat (min ⌈(maxReplicas.toNat : ℚ) * complexity⌉.toNat (2 ^ 32 - 1))).toNat ≤ _
    rw [UInt32.toNat_ofNat']
    omega
  unfold desiredReplicaCount
  dsimp only
  rw [UInt32.toNat_max, UInt32.toNat_max, UInt32.toNat_one]
  omega

section Plan

variable {registrations : List (ModelModule ℚ)} {demand : ReplicaDemand ℚ}

/-- The modules that a plan can use, the best first. -/
def ranked (order : Maps.Enumeration (registeredModules registrations))
    (demand : ReplicaDemand ℚ) : List (ModelModule ℚ × ℚ) :=
  rankModules demand (order.entries.map Prod.snd)

theorem registered_of_mem_ranked {order : Maps.Enumeration (registeredModules registrations)}
    {p : ModelModule ℚ × ℚ} (h : p ∈ ranked order demand) :
    (registeredModules registrations)[p.1.moduleId]? = some p.1 ∧ 1 ≤ p.1.maxReplicas.toNat := by
  obtain ⟨⟨id, m⟩, hentry, hm⟩ := List.mem_map.mp (mem_of_mem_rankModules h)
  dsimp only at hm
  subst hm
  have hget := Maps.mem_toList.mp (order.perm.mem_iff.mp hentry)
  obtain ⟨hid, hroom⟩ := wellRegistered_registeredModules registrations id p.1 hget
  rw [hid]
  exact ⟨hget, hroom⟩

theorem nodup_selectModules (order : Maps.Enumeration (registeredModules registrations)) :
    ((selectModules demand (ranked order demand)).map fun p => p.1.moduleId).Nodup := by
  rcases selectModules_cases demand (ranked order demand) with
    hselect | ⟨ml, ai, -, hselect, hml, hai, hkind, hkind'⟩
  · rw [hselect]
    cases (ranked order demand).head? with
    | none => exact List.nodup_nil
    | some p => exact List.nodup_singleton _
  · rw [hselect, List.map_cons, List.map_cons, List.map_nil, List.nodup_cons,
      List.mem_singleton]
    refine ⟨fun hsame => ?_, List.nodup_singleton _⟩
    have hml := (registered_of_mem_ranked hml).1
    rw [hsame, (registered_of_mem_ranked hai).1] at hml
    rw [← Option.some.inj hml, hkind'] at hkind
    cases hkind

theorem ranked_ne_nil {order : Maps.Enumeration (registeredModules registrations)}
    (h : ¬ (order.entries.map Prod.snd).isEmpty) : ranked order demand ≠ [] := by
  intro hnil
  unfold ranked rankModules at hnil
  have hlength := congrArg List.length hnil
  rw [List.length_insertionSort, List.length_map] at hlength
  exact h (List.isEmpty_iff_length_eq_zero.mpr hlength)

theorem toNat_baseCount {n : ℕ} (hpos : 1 ≤ n) (htwo : n ≤ 2) :
    (max (UInt32.ofNat n) 1).toNat = n := by
  rw [UInt32.toNat_max, UInt32.toNat_ofNat', UInt32.toNat_one]
  omega

/-- A plan has at most as many replicas as the demand allows or as it has modules, which are
two at the most and different; each module has a replica and no more than it is registered
for, and the counts add up to the total. -/
theorem ensemblePlan_within (registrations : List (ModelModule ℚ))
    (order : Maps.Enumeration (registeredModules registrations)) (demand : ReplicaDemand ℚ)
    (plan : ModelEnsemblePlan ℚ)
    (h : buildEnsemblePlan (order.entries.map Prod.snd) demand = some plan) :
    plan.totalReplicas.toNat ≤ max demand.maxReplicas.toNat plan.modules.length ∧
      plan.modules.length ≤ (if needsEnsemble demand then 2 else 1) ∧
      (plan.modules.map ModelModuleSelection.moduleId).Nodup ∧
      (∀ s ∈ plan.modules, ∃ m, (registeredModules registrations)[s.moduleId]? = some m ∧
        1 ≤ s.replicas.toNat ∧ s.replicas.toNat ≤ m.maxReplicas.toNat) ∧
      replicaSum plan.modules = plan.totalReplicas.toNat := by
  unfold buildEnsemblePlan at h
  split at h
  · cases h
  · next hmodules =>
      have hne : selectModules demand (ranked order demand) ≠ [] :=
        selectModules_ne_nil (ranked_ne_nil hmodules)
      have hlength := length_selectModules_le demand (ranked order demand)
      have hnodup : ((selectModules demand (ranked order demand)).map
          fun p => p.1.moduleId).Nodup := nodup_selectModules order
      have hmem : ∀ p ∈ selectModules demand (ranked order demand),
          p ∈ ranked order demand := fun p => mem_of_mem_selectModules
      change some _ = some plan at h
      obtain rfl := Option.some.inj h
      dsimp only
      rw [← ranked]
      generalize selectModules demand (ranked order demand) = selections at *
      have htwo : selections.length ≤ 2 := hlength.trans (by split <;> decide)
      have hpos : 1 ≤ selections.length := List.length_pos_iff.mpr hne
      have hbase := toNat_baseCount hpos htwo
      generalize max (UInt32.ofNat selections.length) 1 = baseCount at hbase ⊢
      have hdesired := toNat_desiredReplicaCount_le demand.maxReplicas
        (clampUnit_le_one demand.complexity) (hpos.trans_eq hbase.symm)
      generalize desiredReplicaCount demand.maxReplicas (clampUnit demand.complexity) baseCount =
        remaining at hdesired ⊢
      have hsum := replicaSum_allocate_le hbase hne remaining
      have htotal := toNat_foldl_add
        ((allocate baseCount 0 remaining selections).map ModelModuleSelection.replicas) 0
      rw [List.map_map] at htotal
      change _ = (0 + replicaSum (allocate baseCount 0 remaining selections)) % 2 ^ 32 at htotal
      have hword := remaining.toNat_lt
      rw [htotal, length_allocate, map_moduleId_allocate]
      refine ⟨?_, hlength, hnodup, ?_, ?_⟩
      · omega
      · intro s hs
        obtain ⟨p, hp, hid, hmax, hone⟩ := replicas_of_mem_allocate hs
        obtain ⟨hget, hroom⟩ := registered_of_mem_ranked (hmem p hp)
        rw [← hid] at hget
        exact ⟨p.1, hget, hone hroom, hmax⟩
      · omega

end Plan

def mlAndAi : List (ModelModule ℚ) :=
  [{ moduleId := "ml-core", kind := .ml, efficiencyScore := 1, complexityWeight := 1,
      maxReplicas := 4 },
    { moduleId := "ai-core", kind := .ai, efficiencyScore := 1, complexityWeight := 1,
      maxReplicas := 4 }]

def oneReplica : ReplicaDemand ℚ :=
  { dimensionId := 7, taskId := 9, modelId := "model-a", complexity := 1, efficiencyTarget := 1,
    maxReplicas := 1, policy := .default }

theorem ensemblePlan_within_sample :
    ∃ plan, buildEnsemblePlan ((registeredModules mlAndAi).toList.map Prod.snd) oneReplica =
        some plan ∧
      plan.totalReplicas.toNat ≤ max oneReplica.maxReplicas.toNat plan.modules.length := by
  cases hplan : buildEnsemblePlan ((registeredModules mlAndAi).toList.map Prod.snd)
      oneReplica with
  | none => exact absurd (congrArg Option.isSome hplan) (by decide +kernel)
  | some plan =>
      exact ⟨plan, rfl, (ensemblePlan_within mlAndAi ⟨_, .refl _⟩ oneReplica plan hplan).1⟩

/-- One replica is allowed, two are planned. -/
theorem ensemble_exceeds_ceiling :
    (buildEnsemblePlan ((registeredModules mlAndAi).toList.map Prod.snd) oneReplica).map
        (fun plan => decide (plan.totalReplicas ≤ oneReplica.maxReplicas)) = some false := by
  decide +kernel

end ModelRuntime

end InfinityOS
