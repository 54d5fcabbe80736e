import InfinityOS.ModelRuntime.ReplicaPlan

/-!
# Provisioning replicas

`provision` asks the kernel for the replicas of a plan one by one and enters each into the
map of the pool and into the log as soon as it is there. It returns at the first request that
the kernel refuses: the replicas created before stay in the kernel and in the map, and no
handle of them reaches the caller.
-/

namespace InfinityOS

namespace ModelRuntime

open Registry (Stamp)

abbrev ReplicaId := UInt32

-- One name for each law of identifiers that definitions over maps refer to.
instance ReplicaId.instTransOrd : Std.TransOrd ReplicaId := inferInstance

structure ReplicaRequest where
  dimensionId : DimensionId
  taskId : TaskId
  modelId : String
  moduleId : String
  policy : ReplicaPolicy
  deriving DecidableEq

structure ReplicaHandle where
  id : ReplicaId
  request : ReplicaRequest
  createdAtMs : UInt64
  deriving DecidableEq

inductive ReplicaKernelError where
  | limitReached (limit : UInt32)
  | replicaNotFound (id : UInt32)
  deriving DecidableEq

/-- The trait `ReplicaKernel`, over the state `κ` of the kernel. -/
structure ReplicaKernel (κ : Type) where
  createReplica : κ → ReplicaRequest → Except ReplicaKernelError ReplicaHandle × κ
  destroyReplica : κ → ReplicaId → Except ReplicaKernelError Unit × κ

/-! ## The kernel in memory -/

structure InMemoryReplicaKernel where
  maxReplicas : UInt32
  nextId : UInt32
  replicas : HashMap ReplicaId ReplicaHandle
  /-- The readings of the clock to come. -/
  nowMs : ℕ → UInt64

namespace InMemoryReplicaKernel

def new (maxReplicas : UInt32) (nowMs : ℕ → UInt64) : InMemoryReplicaKernel :=
  { maxReplicas, nextId := 1, replicas := ∅, nowMs }

def createReplica (k : InMemoryReplicaKernel) (request : ReplicaRequest) :
    Except ReplicaKernelError ReplicaHandle × InMemoryReplicaKernel :=
  if UInt32.ofNat k.replicas.size ≥ k.maxReplicas then
    (.error (.limitReached k.maxReplicas), k)
  else
    let handle := { id := k.nextId, request, createdAtMs := k.nowMs 0 }
    (.ok handle,
      { k with
        nextId := k.nextId + 1
        replicas := k.replicas.insert k.nextId handle
        nowMs := fun n => k.nowMs (n + 1) })

def destroyReplica (k : InMemoryReplicaKernel) (id : ReplicaId) :
    Except ReplicaKernelError Unit × InMemoryReplicaKernel :=
  if k.replicas.contains id then (.ok (), { k with replicas := k.replicas.erase id })
  else (.error (.replicaNotFound id), k)

end InMemoryReplicaKernel

def inMemory : ReplicaKernel InMemoryReplicaKernel where
  createReplica := InMemoryReplicaKernel.createReplica
  destroyReplica := InMemoryReplicaKernel.destroyReplica

/-! ## The pool -/

structure ReplicaProvisioningResult where
  plan : ModelEnsemblePlan Float
  replicas : List ReplicaHandle

inductive ModelReplicaError where
  | noModulesAvailable
  | kernelError (e : ReplicaKernelError)
  deriving DecidableEq

structure ModelReplicaPool (κ : Type) where
  kernel : κ
  actionLog : List ActionLog.Entry
  modules : HashMap String (ModelModule Float)
  replicas : HashMap ReplicaId ReplicaHandle

/-- The entry of `log_replica_provisioned`. -/
def provisionedEntry (demand : ReplicaDemand Float) (handle : ReplicaHandle)
    (selection : ModelModuleSelection Float) (stamp : Stamp) : ActionLog.Entry :=
  .new .replicaProvisioned .kernel (some demand.dimensionId) (some demand.taskId)
    (.object [("complexity", .ofFloat demand.complexity),
      ("efficiency_target", .ofFloat demand.efficiencyTarget),
      ("kind", .string selection.kind.debug), ("model_id", .string demand.modelId),
      ("module_id", .string selection.moduleId),
      ("replica_id", .number (.posInt handle.id.toUInt64))])
    stamp

/-- The entry of `log_replica_released`. -/
def releasedEntry (handle : ReplicaHandle) (stamp : Stamp) : ActionLog.Entry :=
  .new .replicaReleased .kernel (some handle.request.dimensionId) (some handle.request.taskId)
    (.object [("model_id", .string handle.request.modelId),
      ("module_id", .string handle.request.moduleId),
      ("replica_id", .number (.posInt handle.id.toUInt64))])
    stamp

def ReplicaDemand.request (demand : ReplicaDemand Float)
    (selection : ModelModuleSelection Float) : ReplicaRequest :=
  { dimensionId := demand.dimensionId, taskId := demand.taskId, modelId := demand.modelId,
    moduleId := selection.moduleId, policy := demand.policy }

def ModelEnsemblePlan.turns (plan : ModelEnsemblePlan Float) :
    List (ModelModuleSelection Float) :=
  plan.modules.flatMap fun selection => List.replicate selection.replicas.toNat selection

namespace ModelReplicaPool

variable {κ : Type}

def new (kernel : κ) : ModelReplicaPool κ :=
  { kernel, actionLog := [], modules := ∅, replicas := ∅ }

def registerModule (pool : ModelReplicaPool κ) (m : ModelModule Float) : ModelReplicaPool κ :=
  let m := { m with maxReplicas := max m.maxReplicas 1 }
  { pool with modules := pool.modules.insert m.moduleId m }

/-- The body of the loops of `provision`, for each turn that is left; the `n`-th replica of
the call draws `stamps n`. -/
def provisionTurns (kernel : ReplicaKernel κ) (demand : ReplicaDemand Float)
    (stamps : ℕ → Stamp) : List (ModelModuleSelection Float) → List ReplicaHandle →
    ModelReplicaPool κ → Except ModelReplicaError (List ReplicaHandle) × ModelReplicaPool κ
  | [], replicas, pool => (.ok replicas, pool)
  | selection :: turns, replicas, pool =>
      match kernel.createReplica pool.kernel (demand.request selection) with
      | (.error e, k) => (.error (.kernelError e), { pool with kernel := k })
      | (.ok handle, k) =>
          provisionTurns kernel demand stamps turns (replicas ++ [handle])
            { pool with
              kernel := k
              replicas := pool.replicas.insert handle.id handle
              actionLog := pool.actionLog ++
                [provisionedEntry demand handle selection (stamps replicas.length)] }

/-- `provision`; `order` is the order in which the map of modules is iterated. -/
def provision (kernel : ReplicaKernel κ) (pool : ModelReplicaPool κ)
    (order : Maps.Enumeration pool.modules) (demand : ReplicaDemand Float)
    (stamps : ℕ → Stamp) :
    Except ModelReplicaError ReplicaProvisioningResult × ModelReplicaPool κ :=
  match buildEnsemblePlan (order.entries.map Prod.snd) demand with
  | none => (.error .noModulesAvailable, pool)
  | some plan =>
      match provisionTurns kernel demand stamps plan.turns [] pool with
      | (.error e, pool) => (.error e, pool)
      | (.ok replicas, pool) => (.ok { plan, replicas }, pool)

def release (kernel : ReplicaKernel κ) (pool : ModelReplicaPool κ) (id : ReplicaId)
    (stamp : Stamp) : Except ModelReplicaError Unit × ModelReplicaPool κ :=
  match pool.replicas[id]? with
  | none => (.ok (), pool)
  | some handle =>
      let pool := { pool with replicas := pool.replicas.erase id }
      match kernel.destroyReplica pool.kernel id with
      | (.error e, k) => (.error (.kernelError e), { pool with kernel := k })
      | (.ok (), k) =>
          (.ok (),
            { pool with
              kernel := k
              actionLog := pool.actionLog ++ [releasedEntry handle stamp] })

end ModelReplicaPool

/-! ## The calls of the kernel -/

/-- A call of the kernel with its answer. -/
inductive KernelEvent where
  | created (handle : ReplicaHandle)
  | refused (request : ReplicaRequest) (e : ReplicaKernelError)
  | destroyed (id : ReplicaId)
  | notDestroyed (id : ReplicaId) (e : ReplicaKernelError)
  deriving DecidableEq

section Recording

variable {κ : Type}

/-- The same kernel, which keeps its calls beside its state. -/
def ReplicaKernel.recorded (kernel : ReplicaKernel κ) :
    ReplicaKernel (κ × List KernelEvent) where
  createReplica s request :=
    match kernel.createReplica s.1 request with
    | (.ok handle, k) => (.ok handle, k, s.2 ++ [.created handle])
    | (.error e, k) => (.error e, k, s.2 ++ [.refused request e])
  destroyReplica s id :=
    match kernel.destroyReplica s.1 id with
    | (.ok (), k) => (.ok (), k, s.2 ++ [.destroyed id])
    | (.error e, k) => (.error e, k, s.2 ++ [.notDestroyed id e])

def ModelReplicaPool.record (pool : ModelReplicaPool κ) :
    ModelReplicaPool (κ × List KernelEvent) :=
  { pool with kernel := (pool.kernel, []) }

/-- The pool without the calls. -/
def ModelReplicaPool.forget (pool : ModelReplicaPool (κ × List KernelEvent)) :
    ModelReplicaPool κ :=
  { pool with kernel := pool.kernel.1 }

def ReplicaKernel.Grants (kernel : ReplicaKernel κ) : κ → List ReplicaRequest → Prop
  | _, [] => True
  | k, request :: rest =>
      (∃ handle, (kernel.createReplica k request).1 = .ok handle) ∧
        kernel.Grants (kernel.createReplica k request).2 rest

/-- The kernel refuses the first request or grants all of them. -/
def ReplicaKernel.AllOrNone (kernel : ReplicaKernel κ) (k : κ) : List ReplicaRequest → Prop
  | [] => True
  | request :: rest =>
      (∃ handle, (kernel.createReplica k request).1 = .ok handle) →
        kernel.Grants (kernel.createReplica k request).2 rest

/-- Each replica that was created has been destroyed later on. -/
def CreatedDestroyed (events : List KernelEvent) : Prop :=
  ∀ before handle after, events = before ++ .created handle :: after →
    .destroyed handle.id ∈ after

variable {kernel : ReplicaKernel κ} {demand : ReplicaDemand Float} {stamps : ℕ → Stamp}

open ModelReplicaPool

theorem createReplica_recorded_ok {s : κ × List KernelEvent} {request : ReplicaRequest}
    {handle : ReplicaHandle} {k : κ}
    (hcreate : kernel.createReplica s.1 request = (.ok handle, k)) :
    kernel.recorded.createReplica s request = (.ok handle, k, s.2 ++ [.created handle]) := by
  rw [ReplicaKernel.recorded]
  dsimp only
  rw [hcreate]

theorem createReplica_recorded_error {s : κ × List KernelEvent} {request : ReplicaRequest}
    {e : ReplicaKernelError} {k : κ}
    (hcreate : kernel.createReplica s.1 request = (.error e, k)) :
    kernel.recorded.createReplica s request = (.error e, k, s.2 ++ [.refused request e]) := by
  rw [ReplicaKernel.recorded]
  dsimp only
  rw [hcreate]

/-- The pool after a turn whose request is granted. -/
def ModelReplicaPool.enter (pool : ModelReplicaPool κ) (kernel : κ) (handle : ReplicaHandle)
    (entry : ActionLog.Entry) : ModelReplicaPool κ :=
  { pool with
    kernel
    replicas := pool.replicas.insert handle.id handle
    actionLog := pool.actionLog ++ [entry] }

theorem provisionTurns_granted {pool : ModelReplicaPool κ} {replicas : List ReplicaHandle}
    {selection : ModelModuleSelection Float} {handle : ReplicaHandle} {k : κ}
    (turns : List (ModelModuleSelection Float))
    (hcreate : kernel.createReplica pool.kernel (demand.request selection) = (.ok handle, k)) :
    provisionTurns kernel demand stamps (selection :: turns) replicas pool =
      provisionTurns kernel demand stamps turns (replicas ++ [handle])
        (pool.enter k handle
          (provisionedEntry demand handle selection (stamps replicas.length))) := by
  rw [provisionTurns, hcreate]
  rfl

theorem provisionTurns_refused {pool : ModelReplicaPool κ} {replicas : List ReplicaHandle}
    {selection : ModelModuleSelection Float} {e : ReplicaKernelError} {k : κ}
    (turns : List (ModelModuleSelection Float))
    (hcreate : kernel.createReplica pool.kernel (demand.request selection) = (.error e, k)) :
    provisionTurns kernel demand stamps (selection :: turns) replicas pool =
      (.error (.kernelError e), { pool with kernel := k }) := by
  rw [provisionTurns, hcreate]

theorem provisionTurns_recorded (turns : List (ModelModuleSelection Float))
    (replicas : List ReplicaHandle) (pool : ModelReplicaPool (κ × List KernelEvent)) :
    provisionTurns kernel demand stamps turns replicas pool.forget =
      ((provisionTurns kernel.recorded demand stamps turns replicas pool).1,
        (provisionTurns kernel.recorded demand stamps turns replicas pool).2.forget) := by
  induction turns generalizing replicas pool with
  | nil => rfl
  | cons selection turns ih =>
      cases hcreate : kernel.createReplica pool.forget.kernel (demand.request selection) with
      | mk answer k =>
          cases answer with
          | error e =>
              rw [provisionTurns_refused turns hcreate,
                provisionTurns_refused turns (createReplica_recorded_error hcreate)]
              rfl
          | ok handle =>
              rw [provisionTurns_granted turns hcreate,
                provisionTurns_granted turns (createReplica_recorded_ok hcreate)]
              exact ih (replicas ++ [handle]) (pool.enter (k, pool.kernel.2 ++ [.created handle])
                handle (provisionedEntry demand handle selection (stamps replicas.length)))

theorem provision_recorded (pool : ModelReplicaPool κ) (order : Maps.Enumeration pool.modules) :
    provision kernel pool order demand stamps =
      ((provision kernel.recorded pool.record order demand stamps).1,
        (provision kernel.recorded pool.record order demand stamps).2.forget) := by
  unfold provision
  cases buildEnsemblePlan (order.entries.map Prod.snd) demand with
  | none => rfl
  | some plan =>
      have hturns := @provisionTurns_recorded κ kernel demand stamps plan.turns [] pool.record
      have hpool : pool.record.forget = pool := rfl
      rw [hpool] at hturns
      dsimp only
      rw [hturns]
      generalize provisionTurns kernel.recorded demand stamps plan.turns [] pool.record = outcome
      obtain ⟨answer, pool'⟩ := outcome
      cases answer <;> rfl

theorem provisionTurns_fails_iff (turns : List (ModelModuleSelection Float))
    (replicas : List ReplicaHandle) (pool : ModelReplicaPool κ) :
    (∃ e, (provisionTurns kernel demand stamps turns replicas pool).1 = .error e) ↔
      ¬ kernel.Grants pool.kernel (turns.map demand.request) := by
  induction turns generalizing replicas pool with
  | nil => exact iff_of_false (fun ⟨e, h⟩ => by cases h) fun h => h trivial
  | cons selection turns ih =>
      rw [List.map_cons, ReplicaKernel.Grants]
      cases hcreate : kernel.createReplica pool.kernel (demand.request selection) with
      | mk answer k =>
          cases answer with
          | error e =>
              rw [provisionTurns_refused turns hcreate]
              simp
          | ok handle =>
              rw [provisionTurns_granted turns hcreate, ih, and_iff_right ⟨handle, rfl⟩]
              rfl

theorem provisionTurns_recorded_fails_iff (turns : List (ModelModuleSelection Float))
    (replicas : List ReplicaHandle) (pool : ModelReplicaPool (κ × List KernelEvent)) :
    (∃ e, (provisionTurns kernel.recorded demand stamps turns replicas pool).1 = .error e) ↔
      ¬ kernel.Grants pool.kernel.1 (turns.map demand.request) := by
  have hfails := @provisionTurns_fails_iff κ kernel demand stamps turns replicas pool.forget
  rw [provisionTurns_recorded] at hfails
  exact hfails

theorem provisionTurns_events (turns : List (ModelModuleSelection Float))
    (replicas : List ReplicaHandle) (pool : ModelReplicaPool (κ × List KernelEvent)) :
    ∃ later, (provisionTurns kernel.recorded demand stamps turns replicas pool).2.kernel.2 =
        pool.kernel.2 ++ later ∧ ∀ id, KernelEvent.destroyed id ∉ later := by
  induction turns generalizing replicas pool with
  | nil => exact ⟨[], (List.append_nil _).symm, by simp⟩
  | cons selection turns ih =>
      cases hcreate : kernel.createReplica pool.kernel.1 (demand.request selection) with
      | mk answer k =>
          cases answer with
          | error e =>
              rw [provisionTurns_refused turns (createReplica_recorded_error hcreate)]
              exact ⟨[.refused (demand.request selection) e], rfl, by simp⟩
          | ok handle =>
              rw [provisionTurns_granted turns (createReplica_recorded_ok hcreate)]
              obtain ⟨later, hlater, hnone⟩ := ih (replicas ++ [handle])
                (pool.enter (k, pool.kernel.2 ++ [.created handle]) handle
                  (provisionedEntry demand handle selection (stamps replicas.length)))
              exact ⟨.created handle :: later, hlater.trans (List.append_assoc _ _ _),
                by simpa using hnone⟩

theorem provisionTurns_atomic_iff (turns : List (ModelModuleSelection Float))
    (pool : ModelReplicaPool κ) :
    ((∃ e, (provisionTurns kernel.recorded demand stamps turns [] pool.record).1 = .error e) →
        CreatedDestroyed
            (provisionTurns kernel.recorded demand stamps turns [] pool.record).2.kernel.2 ∧
          (provisionTurns kernel.recorded demand stamps turns [] pool.record).2.replicas =
            pool.replicas) ↔
      kernel.AllOrNone pool.kernel (turns.map demand.request) := by
  cases turns with
  | nil => exact iff_of_true (fun ⟨e, h⟩ => by cases h) trivial
  | cons selection turns =>
      rw [List.map_cons, ReplicaKernel.AllOrNone]
      cases hcreate : kernel.createReplica pool.kernel (demand.request selection) with
      | mk answer k =>
          cases answer with
          | error e =>
              rw [provisionTurns_refused turns
                (createReplica_recorded_error (s := pool.record.kernel) hcreate)]
              refine iff_of_true (fun _ => ⟨?_, rfl⟩) fun ⟨handle, h⟩ => by cases h
              intro before handle after h
              cases before with
              | nil => cases h
              | cons event before => simp [record] at h
          | ok handle =>
              rw [provisionTurns_granted turns
                (createReplica_recorded_ok (s := pool.record.kernel) hcreate)]
              obtain ⟨later, hlater, hnone⟩ := @provisionTurns_events κ kernel demand stamps turns
                ([] ++ [handle]) (pool.record.enter (k, pool.record.kernel.2 ++ [.created handle])
                  handle (provisionedEntry demand handle selection (stamps [].length)))
              rw [provisionTurns_recorded_fails_iff]
              constructor
              · intro hclean _
                by_contra hrefuses
                have hdestroyed := (hclean hrefuses).1 [] handle later hlater
                exact hnone handle.id hdestroyed
              · intro hgrants hrefuses
                exact absurd (hgrants ⟨handle, rfl⟩) hrefuses

/-- A failing `provision` has destroyed all that it created and left the map of the pool as
it was exactly if there is no module to plan with, or the kernel refuses the first request of
the plan, or it cannot fail because the kernel grants all of them. -/
theorem provision_atomic_iff (kernel : ReplicaKernel κ) (pool : ModelReplicaPool κ)
    (order : Maps.Enumeration pool.modules) (demand : ReplicaDemand Float)
    (stamps : ℕ → Stamp) :
    ((∃ e, (provision kernel.recorded pool.record order demand stamps).1 = .error e) →
        CreatedDestroyed (provision kernel.recorded pool.record order demand stamps).2.kernel.2 ∧
          (provision kernel.recorded pool.record order demand stamps).2.replicas =
            pool.replicas) ↔
      ∀ plan, buildEnsemblePlan (order.entries.map Prod.snd) demand = some plan →
        kernel.AllOrNone pool.kernel (plan.turns.map demand.request) := by
  unfold provision
  cases buildEnsemblePlan (order.entries.map Prod.snd) demand with
  | none =>
      refine iff_of_true (fun _ => ⟨?_, rfl⟩) fun plan h => by cases h
      intro before handle after h
      cases before <;> cases h
  | some plan =>
      simp only [Option.some.injEq, forall_eq']
      rw [← @provisionTurns_atomic_iff κ kernel demand stamps]
      generalize provisionTurns kernel.recorded demand stamps plan.turns [] pool.record = outcome
      obtain ⟨answer, pool'⟩ := outcome
      cases answer with
      | error e => simp
      | ok handles => simp

end Recording

/-- A pool with one module over a kernel that has room for one replica. -/
def crampedPool : ModelReplicaPool InMemoryReplicaKernel :=
  (ModelReplicaPool.new (.new 1 fun _ => 0)).registerModule
    { moduleId := "ml-core", kind := .ml, efficiencyScore := 1, complexityWeight := 1,
      maxReplicas := 2 }

def crampedCall : Except ModelReplicaError ReplicaProvisioningResult ×
    ModelReplicaPool (InMemoryReplicaKernel × List KernelEvent) :=
  ModelReplicaPool.provision inMemory.recorded crampedPool.record
    ⟨crampedPool.modules.toList, .refl _⟩
    { dimensionId := 7, taskId := 9, modelId := "model-a", complexity := 1,
      efficiencyTarget := 1, maxReplicas := 2, policy := .default }
    fun _ => { eventId := 3, occurredAtMs := 0 }

theorem refused_replica_leaves_first :
    ¬ ((∃ e, crampedCall.1 = .error e) →
      CreatedDestroyed crampedCall.2.kernel.2 ∧ crampedCall.2.replicas = crampedPool.replicas) := by
  intro h
  have hfails : crampedCall.1.toBool = false := by decide +kernel
  cases hcall : crampedCall.1 with
  | ok result =>
      rw [hcall] at hfails
      cases hfails
  | error e =>
      have hsize := congrArg Std.ExtTreeMap.size (h ⟨e, hcall⟩).2
      revert hsize
      decide +kernel

end ModelRuntime

end InfinityOS
