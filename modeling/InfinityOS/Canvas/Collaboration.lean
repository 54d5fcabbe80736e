import InfinityOS.Core.LastWriter
import InfinityOS.Core.Maps
import InfinityOS.Core.Types

/-!
# Conflict resolution between collaborators

Concurrent edits of the canvas, each addressed to one field, and the resolver that keeps
the last edit of every field. The accepted edits are a store of registers under the last
writer rule, ranked by the timestamp and then by the id of the operation, so resolvers
that have received the same operations agree.
-/

namespace InfinityOS

namespace Canvas

structure CollaboratorId where
  id : String

/-- A point of the canvas; its coordinates are `f64` bit patterns. -/
structure Point where
  x : UInt64
  y : UInt64

inductive NodeChange where
  | move (position : Point)
  | setParameter (name : String) (value : Json)
  | addEdge (fromNode fromPort toNode toPort : String)
  | removeEdge (fromNode fromPort toNode toPort : String)

structure EditOperation where
  opId : String
  author : CollaboratorId
  timestampMs : UInt64
  nodeId : String
  change : NodeChange

structure ConflictResolver where
  accepted : HashMap String EditOperation

def fieldKey (op : EditOperation) : String :=
  match op.change with
  | .move _ => op.nodeId ++ ":position"
  | .setParameter name _ => op.nodeId ++ ":param:" ++ name
  | .addEdge fromNode fromPort toNode toPort =>
      "edge:" ++ fromNode ++ ":" ++ fromPort ++ "->" ++ toNode ++ ":" ++ toPort
  | .removeEdge fromNode fromPort toNode toPort =>
      "edge:" ++ fromNode ++ ":" ++ fromPort ++ "->" ++ toNode ++ ":" ++ toPort

/-- Whether `op` replaces `existing`. -/
def newer (op existing : EditOperation) : Bool :=
  decide (existing.timestampMs < op.timestampMs) ||
    (op.timestampMs == existing.timestampMs && decide (existing.opId < op.opId))

namespace ConflictResolver

def new : ConflictResolver where
  accepted := ∅

/-- The answer tells whether the operation was accepted. -/
def apply (r : ConflictResolver) (op : EditOperation) : Bool × ConflictResolver :=
  let key := fieldKey op
  match r.accepted[key]? with
  | some existing =>
      if newer op existing then (true, { r with accepted := r.accepted.insert key op })
      else (false, r)
  | none => (true, { r with accepted := r.accepted.insert key op })

def acceptedOp (r : ConflictResolver) (key : String) : Option EditOperation :=
  r.accepted[key]?

def received (ops : List EditOperation) : ConflictResolver :=
  ops.foldl (fun r op => (r.apply op).2) new

end ConflictResolver

def stamp (op : EditOperation) : ℕ ×ₗ String :=
  toLex (op.timestampMs.toNat, op.opId)

theorem newer_iff {op existing : EditOperation} :
    newer op existing = true ↔ stamp existing < stamp op := by
  unfold newer stamp
  rw [Prod.Lex.toLex_lt_toLex, Bool.or_eq_true, Bool.and_eq_true, decide_eq_true_eq,
    decide_eq_true_eq, beq_iff_eq, UInt64.lt_iff_toNat_lt, ← UInt64.toNat_inj]
  constructor
  · rintro (h | ⟨htime, hid⟩)
    · exact .inl h
    · exact .inr ⟨htime.symm, hid⟩
  · rintro (h | ⟨htime, hid⟩)
    · exact .inl h
    · exact .inr ⟨htime.symm, hid⟩

namespace ConflictResolver

open LastWriter

theorem apply_of_none {r : ConflictResolver} {op : EditOperation}
    (h : r.accepted[fieldKey op]? = none) :
    r.apply op = (true, { r with accepted := r.accepted.insert (fieldKey op) op }) := by
  simp only [apply, h]

theorem apply_of_some {r : ConflictResolver} {op existing : EditOperation}
    (h : r.accepted[fieldKey op]? = some existing) :
    r.apply op = if stamp existing < stamp op
      then (true, { r with accepted := r.accepted.insert (fieldKey op) op })
      else (false, r) := by
  simp only [apply, h, newer_iff]

theorem acceptedOp_apply (r : ConflictResolver) (op : EditOperation) :
    (r.apply op).2.acceptedOp = write fieldKey stamp r.acceptedOp op := by
  funext key
  unfold write
  rw [Function.update_apply]
  cases hold : r.accepted[fieldKey op]? with
  | none =>
      rw [apply_of_none hold, show r.acceptedOp (fieldKey op) = none from hold]
      exact Maps.getElem?_insert_ite _ _ _ _
  | some existing =>
      rw [apply_of_some hold, show r.acceptedOp (fieldKey op) = some existing from hold]
      unfold accept
      by_cases hlt : stamp existing < stamp op
      · rw [if_pos hlt]
        simp only [if_pos hlt]
        exact Maps.getElem?_insert_ite _ _ _ _
      · rw [if_neg hlt]
        simp only [if_neg hlt]
        split
        · next hkey => exact hkey ▸ hold
        · rfl

theorem acceptedOp_received (ops : List EditOperation) :
    (received ops).acceptedOp = ops.foldl (write fieldKey stamp) fun _ => none := by
  have hfold : ∀ r : ConflictResolver,
      (ops.foldl (fun r op => (r.apply op).2) r).acceptedOp =
        ops.foldl (write fieldKey stamp) r.acceptedOp := by
    induction ops with
    | nil => exact fun r => rfl
    | cons op ops ih =>
        intro r
        rw [List.foldl_cons, List.foldl_cons, ih, acceptedOp_apply]
  have hnew : new.acceptedOp = fun _ => none := by
    funext key
    exact Std.ExtTreeMap.getElem?_empty
  rw [← hnew]
  exact hfold new

theorem newest_received (ops : List EditOperation) :
    Newest fieldKey stamp {op | op ∈ ops} (received ops).acceptedOp := by
  rw [acceptedOp_received]
  exact newest_foldl ops

theorem ext_acceptedOp {r r' : ConflictResolver} (h : r.acceptedOp = r'.acceptedOp) :
    r.accepted = r'.accepted := by
  apply Std.ExtTreeMap.ext_getElem?
  intro key
  exact congrFun h key

end ConflictResolver

/-- Resolvers that have received the same operations with distinct stamps hold the same
accepted operations, of each field the one with the largest stamp. -/
theorem resolvers_converge (ops : Finset EditOperation) (hdistinct : Set.InjOn stamp ops)
    (first second : List EditOperation) (hfirst : ∀ op, op ∈ first ↔ op ∈ ops)
    (hsecond : ∀ op, op ∈ second ↔ op ∈ ops) :
    (ConflictResolver.received first).accepted = (ConflictResolver.received second).accepted ∧
      ∀ (key : String) (op : EditOperation),
        (ConflictResolver.received first).acceptedOp key = some op ↔
          op ∈ ops ∧ fieldKey op = key ∧
            ∀ other ∈ ops, fieldKey other = key → stamp other ≤ stamp op := by
  have hset : ∀ l : List EditOperation, (∀ op, op ∈ l ↔ op ∈ ops) →
      LastWriter.Newest fieldKey stamp ops (ConflictResolver.received l).acceptedOp := by
    intro l hl
    have hnewest := ConflictResolver.newest_received l
    rwa [show {op | op ∈ l} = (ops : Set EditOperation) from Set.ext hl] at hnewest
  refine ⟨?_, fun key op => ?_⟩
  · apply ConflictResolver.ext_acceptedOp
    exact (hset first hfirst).unique (hset second hsecond) hdistinct
  · rw [(hset first hfirst).eq_some_iff hdistinct]
    constructor
    · rintro ⟨hmem, hkey, hleast⟩
      exact ⟨hmem, hkey, hleast⟩
    · rintro ⟨hmem, hkey, hleast⟩
      exact ⟨hmem, hkey, hleast⟩

/-- A move of the node `n1` to the origin. -/
def moveToOrigin (opId : String) (timestampMs : UInt64) : EditOperation where
  opId := opId
  author := ⟨"alice"⟩
  timestampMs := timestampMs
  nodeId := "n1"
  change := .move ⟨0, 0⟩

theorem resolvers_converge_tie :
    (ConflictResolver.received [moveToOrigin "op-a" 1000, moveToOrigin "op-z" 1000,
        moveToOrigin "op-a" 1000]).accepted =
        (ConflictResolver.received [moveToOrigin "op-z" 1000, moveToOrigin "op-a" 1000]).accepted ∧
      (ConflictResolver.received [moveToOrigin "op-a" 1000, moveToOrigin "op-z" 1000,
        moveToOrigin "op-a" 1000]).acceptedOp "n1:position" = some (moveToOrigin "op-z" 1000) := by
  have hne : moveToOrigin "op-a" 1000 ≠ moveToOrigin "op-z" 1000 :=
    fun h => absurd (congrArg EditOperation.opId h) (by decide)
  have hle : stamp (moveToOrigin "op-a" 1000) ≤ stamp (moveToOrigin "op-z" 1000) := by decide
  have hstamp : stamp (moveToOrigin "op-a" 1000) ≠ stamp (moveToOrigin "op-z" 1000) := by decide
  have hmem : ∀ op, op ∈ Finset.cons (moveToOrigin "op-a" 1000) {moveToOrigin "op-z" 1000}
      (by simpa using hne) ↔ op = moveToOrigin "op-a" 1000 ∨ op = moveToOrigin "op-z" 1000 := by
    simp
  have hconverge := resolvers_converge
    (Finset.cons (moveToOrigin "op-a" 1000) {moveToOrigin "op-z" 1000} (by simpa using hne))
    (by
      intro op hop other hother heq
      rcases (hmem op).mp hop with rfl | rfl <;> rcases (hmem other).mp hother with rfl | rfl
      · rfl
      · exact absurd heq hstamp
      · exact absurd heq.symm hstamp
      · rfl)
    [moveToOrigin "op-a" 1000, moveToOrigin "op-z" 1000, moveToOrigin "op-a" 1000]
    [moveToOrigin "op-z" 1000, moveToOrigin "op-a" 1000]
    (by intro op; rw [hmem]; simp; tauto) (by intro op; rw [hmem]; simp; tauto)
  refine ⟨hconverge.1, (hconverge.2 _ _).mpr ⟨(hmem _).mpr (.inr rfl), by decide, ?_⟩⟩
  intro other hother _
  rcases (hmem other).mp hother with rfl | rfl
  · exact hle
  · exact le_rfl

end Canvas

end InfinityOS
