import InfinityOS.ModelRuntime.Performance

/-!
# Plans of replicas

`build_ensemble_plan` ranks the registered modules by a score, selects the best module or,
for a complex demand, the best of each kind, and spreads the desired number of replicas over
the selection. The arithmetic of the scores is a parameter: that of `f64` is the one the
code runs with.
-/

namespace InfinityOS

namespace ModelRuntime

/-- The operations that the plan needs of its numbers. -/
class ScoreArithmetic (F : Type) where
  zero : F
  one : F
  add : F → F → F
  sub : F → F → F
  mul : F → F → F
  /-- `a < b`, false where the two do not compare. -/
  lt : F → F → Bool
  /-- `ENSEMBLE_COMPLEXITY_THRESHOLD`. -/
  ensembleThreshold : F
  /-- `a >= b`. -/
  ge : F → F → Bool
  /-- `n as f64`. -/
  ofUInt32 : UInt32 → F
  /-- `x.ceil() as u32`. -/
  ceilToUInt32 : F → UInt32

/-- `x.ceil() as u32` for an `f64`: the conversion truncates and saturates, a NaN gives zero,
and the next integer is taken where something was cut off. -/
def ceilFloat (x : Float) : UInt32 :=
  let truncated := x.toUInt32
  if truncated.toFloat < x ∧ truncated < UInt32.ofNat (2 ^ 32 - 1) then truncated + 1
  else truncated

instance Float.instScoreArithmetic : ScoreArithmetic Float where
  zero := 0
  one := 1
  add a b := a + b
  sub a b := a - b
  mul a b := a * b
  lt a b := decide (a < b)
  ensembleThreshold := 0.7
  ge a b := decide (a ≥ b)
  ofUInt32 n := n.toFloat
  ceilToUInt32 := ceilFloat

structure ModelModule (F : Type) where
  moduleId : String
  kind : ModelKind
  efficiencyScore : F
  complexityWeight : F
  maxReplicas : UInt32

structure ReplicaPolicy where
  maxTasks : UInt32
  arenaCapBytes : UInt64
  autoDestroy : Bool
  cpuPin : Option UInt8
  deriving DecidableEq

def ReplicaPolicy.default : ReplicaPolicy :=
  { maxTasks := 32, arenaCapBytes := 1048576, autoDestroy := true, cpuPin := none }

structure ReplicaDemand (F : Type) where
  dimensionId : DimensionId
  taskId : TaskId
  modelId : String
  complexity : F
  efficiencyTarget : F
  maxReplicas : UInt32
  policy : ReplicaPolicy

structure ModelModuleSelection (F : Type) where
  moduleId : String
  kind : ModelKind
  alignmentScore : F
  replicas : UInt32

structure ModelEnsemblePlan (F : Type) where
  modelId : String
  modules : List (ModelModuleSelection F)
  totalReplicas : UInt32
  rationale : String

/-- `u32::saturating_sub`. -/
def saturatingSub32 (a b : UInt32) : UInt32 :=
  if a < b then 0 else a - b

section Plan

variable {F : Type} [ScoreArithmetic F]

open ScoreArithmetic

/-- `x.clamp(0.0, 1.0)`. -/
def clampUnit (x : F) : F :=
  if lt x zero then zero else if lt one x then one else x

/-- The modules with their scores, the best first; the sort is stable. The order of scores
that do not compare is not specified. -/
def rankModules (demand : ReplicaDemand F) (modules : List (ModelModule F)) :
    List (ModelModule F × F) :=
  let efficiencyWeight := clampUnit demand.efficiencyTarget
  let complexityWeight := sub one efficiencyWeight
  let scored := modules.map fun m =>
    (m, add (mul m.efficiencyScore efficiencyWeight) (mul m.complexityWeight complexityWeight))
  scored.insertionSort fun a b => lt a.2 b.2 = false

/-- `complexity >= ENSEMBLE_COMPLEXITY_THRESHOLD`. -/
def needsEnsemble (demand : ReplicaDemand F) : Bool :=
  ge (clampUnit demand.complexity) ensembleThreshold

/-- The modules that the plan uses: the best of each kind for a complex demand for which
there are both, else the best of all. -/
def selectModules (demand : ReplicaDemand F) (scored : List (ModelModule F × F)) :
    List (ModelModule F × F) :=
  if needsEnsemble demand then
    match scored.find? fun p => p.1.kind = .ml, scored.find? fun p => p.1.kind = .ai with
    | some ml, some ai => [ml, ai]
    | _, _ => scored.head?.toList
  else scored.head?.toList

def desiredReplicaCount (maxReplicas : UInt32) (complexity : F) (baseCount : UInt32) : UInt32 :=
  let scaled := ceilToUInt32 (mul (ofUInt32 maxReplicas) complexity)
  max (max scaled baseCount) 1

/-- The loop over the selection, from the module at `index` on. -/
def allocate (baseCount : UInt32) : ℕ → UInt32 → List (ModelModule F × F) →
    List (ModelModuleSelection F)
  | _, _, [] => []
  | index, remaining, (m, score) :: rest =>
      let replicas := if index = 0 ∧ baseCount < remaining then 1 + (remaining - baseCount) else 1
      let replicas := min (max replicas 1) m.maxReplicas
      { moduleId := m.moduleId, kind := m.kind, alignmentScore := score, replicas } ::
        allocate baseCount (index + 1) (saturatingSub32 remaining replicas) rest

/-- `build_ensemble_plan` for the modules in the order in which the map yields them; `none`
if there are none. -/
def buildEnsemblePlan (modules : List (ModelModule F)) (demand : ReplicaDemand F) :
    Option (ModelEnsemblePlan F) :=
  if modules.isEmpty then none
  else
    let selections := selectModules demand (rankModules demand modules)
    let baseCount := max (UInt32.ofNat selections.length) 1
    let remaining := desiredReplicaCount demand.maxReplicas (clampUnit demand.complexity) baseCount
    let modules := allocate baseCount 0 remaining selections
    let rationale :=
      if needsEnsemble demand then "high complexity signal requested an ML+AI ensemble"
      else "efficiency-weighted primary module selected"
    some
      { modelId := demand.modelId, modules
        totalReplicas := (modules.map ModelModuleSelection.replicas).foldl (· + ·) 0
        rationale }

end Plan

end ModelRuntime

end InfinityOS
