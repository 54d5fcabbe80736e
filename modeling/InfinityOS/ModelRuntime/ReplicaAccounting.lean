import InfinityOS.ModelRuntime.ReplicaPool
import InfinityOS.Transition.Run

/-!
# The replicas of the pool and of the kernel

A kernel is lawful if its creations and removals are what they answer. Over a lawful kernel
the map of the pool and the replicas of the kernel agree from call to call, except when
`release` fails: it takes the handle out of the map before it asks the kernel, so a replica
that the kernel keeps is lost to the pool.
-/

namespace InfinityOS

namespace ModelRuntime

open Registry (Stamp)
open Transition

section Accounting

variable {κ : Type}

/-- A kernel that creates a replica under a fresh id or does nothing, and that removes the
replica or does nothing; `alive` are the replicas in a state. -/
structure ReplicaKernel.Lawful (kernel : ReplicaKernel κ) (alive : κ → Set ReplicaId) :
    Prop where
  created : ∀ k request handle k', kernel.createReplica k request = (.ok handle, k') →
    handle.id ∉ alive k ∧ alive k' = insert handle.id (alive k)
  refused : ∀ k request e k', kernel.createReplica k request = (.error e, k') →
    alive k' = alive k
  destroyed : ∀ k id k', kernel.destroyReplica k id = (.ok (), k') → alive k' = alive k \ {id}
  notDestroyed : ∀ k id e k', kernel.destroyReplica k id = (.error e, k') → alive k' = alive k

/-- The ids in the map of the pool are those of the replicas in the kernel. -/
def ModelReplicaPool.Agrees (alive : κ → Set ReplicaId) (pool : ModelReplicaPool κ) : Prop :=
  ∀ id, id ∈ pool.replicas ↔ id ∈ alive pool.kernel

/-- A call of the pool; a `provision` comes with the order in which the map of modules is
iterated, whatever it holds, and both with what they draw for the log. -/
inductive PoolCall where
  | registerModule (m : ModelModule Float)
  | provision (order : ∀ modules : HashMap String (ModelModule Float), Maps.Enumeration modules)
      (demand : ReplicaDemand Float) (stamps : ℕ → Stamp)
  | release (id : ReplicaId) (stamp : Stamp)

inductive PoolAnswer where
  | registered
  | provisioned (result : Except ModelReplicaError ReplicaProvisioningResult)
  | released (result : Except ModelReplicaError Unit)

def ModelReplicaPool.step (kernel : ReplicaKernel κ) (pool : ModelReplicaPool κ) :
    PoolCall → PoolAnswer × ModelReplicaPool κ
  | .registerModule m => (.registered, pool.registerModule m)
  | .provision order demand stamps =>
      let r := pool.provision kernel (order pool.modules) demand stamps
      (.provisioned r.1, r.2)
  | .release id stamp =>
      let r := pool.release kernel id stamp
      (.released r.1, r.2)

/-- The kernel destroys the replica that the call releases, if it is one of the pool. -/
def ReplicaKernel.Destroys (kernel : ReplicaKernel κ) (pool : ModelReplicaPool κ) :
    PoolCall → Prop
  | .release id _ =>
      id ∈ pool.replicas → (kernel.destroyReplica pool.kernel id).1 = .ok ()
  | _ => True

variable {kernel : ReplicaKernel κ} {alive : κ → Set ReplicaId} {pool : ModelReplicaPool κ}

open ModelReplicaPool

theorem agrees_enter (h : pool.Agrees alive) {handle : ReplicaHandle} {k : κ}
    (hcreated : alive k = insert handle.id (alive pool.kernel)) (entry : ActionLog.Entry) :
    (pool.enter k handle entry).Agrees alive := by
  intro id
  unfold ModelReplicaPool.enter
  dsimp only
  rw [Std.ExtTreeMap.mem_insert, hcreated, Set.mem_insert_iff, h id,
    Std.LawfulEqCmp.compare_eq_iff_eq, eq_comm]

theorem agrees_provisionTurns (hlawful : kernel.Lawful alive) (h : pool.Agrees alive)
    (demand : ReplicaDemand Float) (stamps : ℕ → Stamp)
    (turns : List (ModelModuleSelection Float)) (replicas : List ReplicaHandle) :
    (provisionTurns kernel demand stamps turns replicas pool).2.Agrees alive := by
  induction turns generalizing replicas pool with
  | nil => exact h
  | cons selection turns ih =>
      cases hcreate : kernel.createReplica pool.kernel (demand.request selection) with
      | mk answer k =>
          cases answer with
          | error e =>
              rw [provisionTurns_refused turns hcreate]
              intro id
              dsimp only
              rw [hlawful.refused _ _ _ _ hcreate]
              exact h id
          | ok handle =>
              rw [provisionTurns_granted turns hcreate]
              exact ih (agrees_enter h (hlawful.created _ _ _ _ hcreate).2 _) _

theorem agrees_provision (hlawful : kernel.Lawful alive) (h : pool.Agrees alive)
    (order : Maps.Enumeration pool.modules) (demand : ReplicaDemand Float)
    (stamps : ℕ → Stamp) : (pool.provision kernel order demand stamps).2.Agrees alive := by
  unfold ModelReplicaPool.provision
  cases buildEnsemblePlan (order.entries.map Prod.snd) demand with
  | none => exact h
  | some plan =>
      have hturns := agrees_provisionTurns hlawful h demand stamps plan.turns []
      dsimp only
      generalize provisionTurns kernel demand stamps plan.turns [] pool = outcome at hturns
      obtain ⟨answer, pool'⟩ := outcome
      cases answer with
      | error e => exact hturns
      | ok handles => exact hturns

theorem agrees_release_iff (hlawful : kernel.Lawful alive) (h : pool.Agrees alive)
    (id : ReplicaId) (stamp : Stamp) :
    (pool.release kernel id stamp).2.Agrees alive ↔
      (id ∈ pool.replicas → (kernel.destroyReplica pool.kernel id).1 = .ok ()) := by
  unfold ModelReplicaPool.release
  cases hget : pool.replicas[id]? with
  | none =>
      refine iff_of_true h fun hmem => ?_
      rw [Std.ExtTreeMap.mem_iff_isSome_getElem?, hget] at hmem
      cases hmem
  | some handle =>
      have hmem : id ∈ pool.replicas := by
        rw [Std.ExtTreeMap.mem_iff_isSome_getElem?, hget]
        rfl
      rw [forall_prop_of_true hmem]
      dsimp only
      cases hdestroy : kernel.destroyReplica pool.kernel id with
      | mk answer k =>
          cases answer with
          | error e =>
              refine iff_of_false (fun hagrees => ?_) fun hok => by cases hok
              have halive : id ∈ alive k := by
                rw [hlawful.notDestroyed _ _ _ _ hdestroy]
                exact (h id).mp hmem
              have hin := (hagrees id).mpr halive
              dsimp only at hin
              rw [Std.ExtTreeMap.mem_erase] at hin
              exact hin.1 Std.ReflCmp.compare_self
          | ok done =>
              refine iff_of_true (fun other => ?_) rfl
              dsimp only
              rw [Std.ExtTreeMap.mem_erase, hlawful.destroyed _ _ _ hdestroy, Set.mem_sdiff,
                Set.mem_singleton_iff, h other, ne_eq, Std.LawfulEqCmp.compare_eq_iff_eq,
                eq_comm, and_comm]

theorem agrees_step_iff (hlawful : kernel.Lawful alive) (h : pool.Agrees alive)
    (call : PoolCall) :
    (pool.step kernel call).2.Agrees alive ↔ kernel.Destroys pool call := by
  cases call with
  | registerModule m => exact iff_of_true h trivial
  | provision order demand stamps =>
      exact iff_of_true (agrees_provision hlawful h _ demand stamps) trivial
  | release id stamp => exact agrees_release_iff hlawful h id stamp

/-- At every boundary of the calls the map of the pool has the replicas of the kernel exactly
if the kernel fails to destroy none that is released. -/
theorem agrees_reached_iff (kernel : ReplicaKernel κ) (alive : κ → Set ReplicaId)
    (pool : ModelReplicaPool κ) (calls : List PoolCall) (hlawful : kernel.Lawful alive)
    (h : pool.Agrees alive) :
    (∀ made, made <+: calls → (final (ModelReplicaPool.step kernel) pool made).Agrees alive) ↔
      Along kernel.Destroys (ModelReplicaPool.step kernel) pool calls :=
  forall_reached_iff_along (ModelReplicaPool.Agrees alive)
    (fun _ call hpool => agrees_step_iff hlawful hpool call) calls h

theorem release_after_failed {id : ReplicaId} {stamp : Stamp} {e : ModelReplicaError}
    (h : (pool.release kernel id stamp).1 = .error e) (stamp' : Stamp) :
    (pool.release kernel id stamp).2.release kernel id stamp' =
      (.ok (), (pool.release kernel id stamp).2) := by
  have hgone : (pool.release kernel id stamp).2.replicas[id]? = none := by
    unfold ModelReplicaPool.release at h ⊢
    cases hget : pool.replicas[id]? with
    | none => exact hget
    | some handle =>
        rw [hget] at h
        dsimp only at h ⊢
        generalize kernel.destroyReplica pool.kernel id = outcome at h ⊢
        obtain ⟨answer, k⟩ := outcome
        cases answer with
        | ok done => cases h
        | error e =>
            dsimp only
            rw [Maps.getElem?_erase_ite, if_pos rfl]
  generalize (pool.release kernel id stamp).2 = pool' at hgone ⊢
  rw [ModelReplicaPool.release, hgone]

end Accounting

/-! ## Kernels in memory -/

def InMemoryReplicaKernel.alive (k : InMemoryReplicaKernel) : Set ReplicaId :=
  {id | id ∈ k.replicas}

theorem mem_alive {k : InMemoryReplicaKernel} {id : ReplicaId} :
    id ∈ k.alive ↔ id ∈ k.replicas :=
  Iff.rfl

/-- The kernel in memory, which refuses instead of giving out an id in use, with any way to
destroy. -/
def freshInMemory
    (destroyReplica : InMemoryReplicaKernel → ReplicaId →
      Except ReplicaKernelError Unit × InMemoryReplicaKernel) :
    ReplicaKernel InMemoryReplicaKernel where
  createReplica k request :=
    if k.replicas.contains k.nextId then (.error (.limitReached k.maxReplicas), k)
    else k.createReplica request
  destroyReplica

theorem lawful_freshInMemory
    {destroyReplica : InMemoryReplicaKernel → ReplicaId →
      Except ReplicaKernelError Unit × InMemoryReplicaKernel}
    (hdestroyed : ∀ k id k', destroyReplica k id = (.ok (), k') → k'.alive = k.alive \ {id})
    (hnot : ∀ k id e k', destroyReplica k id = (.error e, k') → k'.alive = k.alive) :
    (freshInMemory destroyReplica).Lawful InMemoryReplicaKernel.alive where
  created := by
    intro k request handle k' hcreate
    simp only [freshInMemory, InMemoryReplicaKernel.createReplica] at hcreate
    split at hcreate
    · cases hcreate
    · next hfree =>
        split at hcreate
        · cases hcreate
        · cases hcreate
          refine ⟨fun hmem => hfree hmem, ?_⟩
          ext id
          rw [Set.mem_insert_iff, mem_alive, mem_alive, Std.ExtTreeMap.mem_insert,
            Std.LawfulEqCmp.compare_eq_iff_eq, eq_comm]
  refused := by
    intro k request e k' hcreate
    simp only [freshInMemory, InMemoryReplicaKernel.createReplica] at hcreate
    split at hcreate
    · cases hcreate
      rfl
    · split at hcreate
      · cases hcreate
        rfl
      · cases hcreate
  destroyed := hdestroyed
  notDestroyed := hnot

theorem lawful_inMemory :
    (freshInMemory InMemoryReplicaKernel.destroyReplica).Lawful
      InMemoryReplicaKernel.alive := by
  apply lawful_freshInMemory
  · intro k id k' hdestroy
    unfold InMemoryReplicaKernel.destroyReplica at hdestroy
    split at hdestroy
    · cases hdestroy
      ext other
      rw [Set.mem_sdiff, Set.mem_singleton_iff, mem_alive, mem_alive, Std.ExtTreeMap.mem_erase,
        ne_eq, Std.LawfulEqCmp.compare_eq_iff_eq, eq_comm, and_comm]
    · cases hdestroy
  · intro k id e k' hdestroy
    unfold InMemoryReplicaKernel.destroyReplica at hdestroy
    split at hdestroy
    · cases hdestroy
    · cases hdestroy
      rfl

/-- No replica can be destroyed. -/
def stuck (k : InMemoryReplicaKernel) (id : ReplicaId) :
    Except ReplicaKernelError Unit × InMemoryReplicaKernel :=
  (.error (.replicaNotFound id), k)

theorem lawful_stuck : (freshInMemory stuck).Lawful InMemoryReplicaKernel.alive := by
  apply lawful_freshInMemory
  · intro k id k' hdestroy
    cases hdestroy
  · intro k id e k' hdestroy
    cases hdestroy
    rfl

theorem agrees_new (maxReplicas : UInt32) (nowMs : ℕ → UInt64) :
    (ModelReplicaPool.new (InMemoryReplicaKernel.new maxReplicas nowMs)).Agrees
      InMemoryReplicaKernel.alive := by
  intro id
  exact iff_of_false (Std.ExtTreeMap.not_mem_empty) (Std.ExtTreeMap.not_mem_empty)

def provisionAndRelease : List PoolCall :=
  [.registerModule
    { moduleId := "ml-core", kind := .ml, efficiencyScore := 1, complexityWeight := 1,
      maxReplicas := 1 },
    .provision (fun modules => ⟨modules.toList, .refl _⟩)
      { dimensionId := 7, taskId := 9, modelId := "model-a", complexity := 1,
        efficiencyTarget := 1, maxReplicas := 1, policy := .default }
      fun _ => { eventId := 3, occurredAtMs := 0 },
    .release 1 { eventId := 4, occurredAtMs := 0 }]

theorem agrees_reached_sample :
    (final (ModelReplicaPool.step (freshInMemory InMemoryReplicaKernel.destroyReplica))
      (.new (.new 1 fun _ => 0)) (provisionAndRelease.take 2)).Agrees
        InMemoryReplicaKernel.alive ∧
    (final (ModelReplicaPool.step (freshInMemory InMemoryReplicaKernel.destroyReplica))
      (.new (.new 1 fun _ => 0)) provisionAndRelease).Agrees InMemoryReplicaKernel.alive := by
  have hagrees := (agrees_reached_iff (freshInMemory InMemoryReplicaKernel.destroyReplica)
    InMemoryReplicaKernel.alive (.new (.new 1 fun _ => 0)) provisionAndRelease lawful_inMemory
    (agrees_new 1 fun _ => 0)).mpr ⟨trivial, trivial, fun _ => by decide +kernel, trivial⟩
  exact ⟨hagrees _ (List.take_prefix 2 _), hagrees _ List.prefix_rfl⟩

/-- The kernel keeps the replica, and the pool has forgotten it. -/
theorem failed_release_loses_replica :
    (freshInMemory stuck).Lawful InMemoryReplicaKernel.alive ∧
      ¬ ∀ made, made <+: provisionAndRelease →
        (final (ModelReplicaPool.step (freshInMemory stuck)) (.new (.new 1 fun _ => 0))
          made).Agrees InMemoryReplicaKernel.alive := by
  refine ⟨lawful_stuck, fun h => ?_⟩
  have hagrees := h provisionAndRelease List.prefix_rfl 1
  have halive : (final (ModelReplicaPool.step (freshInMemory stuck)) (.new (.new 1 fun _ => 0))
      provisionAndRelease).kernel.replicas.contains 1 = true := by decide +kernel
  have hlost : (final (ModelReplicaPool.step (freshInMemory stuck)) (.new (.new 1 fun _ => 0))
      provisionAndRelease).replicas.contains 1 = false := by decide +kernel
  have hin := hagrees.mpr halive
  rw [Std.ExtTreeMap.mem_iff_contains, hlost] at hin
  cases hin

end ModelRuntime

end InfinityOS
