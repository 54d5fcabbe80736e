import InfinityOS.Core.Maps
import InfinityOS.Core.Types
import InfinityOS.Transition.Run

/-!
# The task allocator

`TaskAllocator` keeps one map, whose keys are the registered dimensions and whose values are
meant to be the ids that were allocated last. A registration has to put some id under the
new key, and the default of `TaskId` is a fresh id, so until its first allocation a dimension
seems to have an id that nothing was given.

The ids that the calls draw from `TaskId::new` are arguments of the calls.
-/

namespace InfinityOS

namespace Execution

open Transition

inductive AllocatorError where
  | unknownDimension (dim : DimensionId)
  deriving DecidableEq

structure TaskAllocator where
  last : HashMap DimensionId TaskId

namespace TaskAllocator

def new : TaskAllocator where
  last := ∅

/-- `register_dimension`, where `fresh` is the default that a new entry draws. -/
def registerDimension (allocator : TaskAllocator) (dim : DimensionId) (fresh : TaskId) :
    TaskAllocator :=
  if allocator.last.contains dim then allocator
  else { last := allocator.last.insert dim fresh }

/-- `next`, where `fresh` is the id that is drawn. -/
def next (allocator : TaskAllocator) (dim : DimensionId) (fresh : TaskId) :
    Except AllocatorError TaskId × TaskAllocator :=
  if ! allocator.last.contains dim then (.error (.unknownDimension dim), allocator)
  else (.ok fresh, { last := allocator.last.insert dim fresh })

def lastFor (allocator : TaskAllocator) (dim : DimensionId) : Option TaskId :=
  allocator.last[dim]?

inductive Call where
  | registerDimension (dim : DimensionId) (fresh : TaskId)
  | next (dim : DimensionId) (fresh : TaskId)
  | lastFor (dim : DimensionId)
  deriving DecidableEq

inductive Answer where
  | registered
  | next (result : Except AllocatorError TaskId)
  | last (id : Option TaskId)
  deriving DecidableEq

/-- One call; the lock makes calls atomic. -/
def step (allocator : TaskAllocator) : Call → Answer × TaskAllocator
  | .registerDimension dim fresh => (.registered, allocator.registerDimension dim fresh)
  | .next dim fresh =>
      let (result, allocator') := allocator.next dim fresh
      (.next result, allocator')
  | .lastFor dim => (.last (allocator.lastFor dim), allocator)

/-! ## What the history of the calls says -/

/-- The dimension has been registered. -/
def Registered (past : List Call) (dim : DimensionId) : Prop :=
  ∃ fresh, .registerDimension dim fresh ∈ past

/-- An id of the dimension has been asked for after its registration. -/
def Allocated (past : List Call) (dim : DimensionId) : Prop :=
  ∃ before fresh after, past = before ++ .next dim fresh :: after ∧ Registered before dim

def returnedBy (dim : DimensionId) : Call × Answer → Option TaskId
  | (.next dim' _, .next (.ok id)) => if dim' = dim then some id else none
  | _ => none

def returned (past : List Call) (dim : DimensionId) : List TaskId :=
  (trace step new past).filterMap (returnedBy dim)

def answer (past : List Call) (call : Call) : Answer :=
  (step (final step new past) call).1

/-- The books are right in every state of a run: ids are allocated for the registered
dimensions only, the last id is the one that was returned last, and registering again changes
nothing. -/
structure Bookkept (calls : List Call) : Prop where
  next : ∀ past dim fresh, past ++ [.next dim fresh] <+: calls →
    ((∃ id, answer past (.next dim fresh) = .next (.ok id)) ↔ Registered past dim)
  lastFor : ∀ past dim, past ++ [.lastFor dim] <+: calls →
    answer past (.lastFor dim) = .last (returned past dim).getLast?
  again : ∀ past dim fresh, past ++ [.registerDimension dim fresh] <+: calls →
    Registered past dim →
      final step new (past ++ [.registerDimension dim fresh]) = final step new past

/-! ## One call more -/

theorem returned_concat (past : List Call) (call : Call) (dim : DimensionId) :
    returned (past ++ [call]) dim =
      returned past dim ++ (returnedBy dim (call, answer past call)).toList := by
  rw [returned, trace_append, List.filterMap_append]
  rfl

theorem registered_concat (past : List Call) (call : Call) (dim : DimensionId) :
    Registered (past ++ [call]) dim ↔
      Registered past dim ∨ ∃ fresh, call = .registerDimension dim fresh := by
  constructor
  · rintro ⟨fresh, hmem⟩
    rw [List.mem_append, List.mem_singleton] at hmem
    exact hmem.imp (fun h => ⟨fresh, h⟩) (fun h => ⟨fresh, h.symm⟩)
  · rintro (⟨fresh, hmem⟩ | ⟨fresh, rfl⟩)
    · exact ⟨fresh, List.mem_append_left _ hmem⟩
    · exact ⟨fresh, List.mem_append_right _ (List.mem_singleton.mpr rfl)⟩

theorem allocated_concat (past : List Call) (call : Call) (dim : DimensionId) :
    Allocated (past ++ [call]) dim ↔
      Allocated past dim ∨ Registered past dim ∧ ∃ fresh, call = .next dim fresh := by
  constructor
  · rintro ⟨before, fresh, after, hsplit, hregistered⟩
    rcases List.eq_nil_or_concat after with rfl | ⟨after', last, rfl⟩
    · obtain ⟨rfl, hcall⟩ := List.append_inj' hsplit rfl
      exact .inr ⟨hregistered, fresh, List.singleton_injective hcall⟩
    · rw [List.concat_eq_append, ← List.cons_append, ← List.append_assoc] at hsplit
      obtain ⟨rfl, -⟩ := List.append_inj' hsplit rfl
      exact .inl ⟨before, fresh, after', rfl, hregistered⟩
  · rintro (⟨before, fresh, after, rfl, hregistered⟩ | ⟨hregistered, fresh, rfl⟩)
    · exact ⟨before, fresh, after ++ [call], by rw [List.append_assoc, List.cons_append],
        hregistered⟩
    · exact ⟨past, fresh, [], rfl, hregistered⟩

/-! ## The keys of the map -/

section Steps

variable (allocator : TaskAllocator) (dim dim' : DimensionId) (fresh : TaskId)

theorem contains_registerDimension :
    (allocator.registerDimension dim fresh).last.contains dim' = true ↔
      allocator.last.contains dim' = true ∨ dim = dim' := by
  rw [registerDimension]
  split
  · next hcontains =>
      constructor
      · exact .inl
      · rintro (h | rfl)
        · exact h
        · exact hcontains
  · simp [or_comm]

theorem contains_next :
    (allocator.next dim fresh).2.last.contains dim' = allocator.last.contains dim' := by
  rw [next]
  split
  · rfl
  · next hcontains =>
      rw [Bool.not_eq_true', Bool.not_eq_false] at hcontains
      rw [Std.ExtTreeMap.contains_insert]
      by_cases hdim : dim = dim'
      · rw [← hdim, hcontains, Bool.or_true]
      · simp [hdim]

end Steps

theorem contains_iff_registered (past : List Call) (dim : DimensionId) :
    (final step new past).last.contains dim = true ↔ Registered past dim := by
  induction past using List.reverseRecOn with
  | nil => simp [new, Registered]
  | append_singleton past call ih =>
      rw [final_concat, registered_concat, ← ih]
      cases call with
      | registerDimension dim' fresh =>
          refine (contains_registerDimension _ dim' dim fresh).trans (or_congr_right ?_)
          simp
      | next dim' fresh =>
          change ((final step new past).next dim' fresh).2.last.contains dim = true ↔ _
          rw [contains_next]
          simp
      | lastFor dim' => simp [step]

theorem answer_next (past : List Call) (dim : DimensionId) (fresh : TaskId) :
    answer past (.next dim fresh) =
      if (final step new past).last.contains dim then .next (.ok fresh)
      else .next (.error (.unknownDimension dim)) := by
  cases hcontains : (final step new past).last.contains dim with
  | true => simp [answer, step, next, hcontains]
  | false => simp [answer, step, next, hcontains]

theorem returnedBy_next (past : List Call) (dim dim' : DimensionId) (fresh : TaskId) :
    returnedBy dim (.next dim' fresh, answer past (.next dim' fresh)) =
      if (final step new past).last.contains dim' = true ∧ dim' = dim then some fresh
      else none := by
  rw [answer_next]
  cases hcontains : (final step new past).last.contains dim' with
  | true => simp [returnedBy]
  | false => simp [returnedBy]

theorem returned_ne_nil_iff (past : List Call) (dim : DimensionId) :
    returned past dim ≠ [] ↔ Allocated past dim := by
  induction past using List.reverseRecOn with
  | nil => simp [returned, Allocated]
  | append_singleton past call ih =>
      rw [returned_concat, allocated_concat, ← ih]
      cases call with
      | registerDimension dim' fresh => simp [returnedBy]
      | next dim' fresh =>
          rw [returnedBy_next]
          by_cases hdim : dim' = dim
          · subst hdim
            by_cases hregistered : Registered past dim'
            · simp [(contains_iff_registered past dim').mpr hregistered, hregistered]
            · simp [mt (contains_iff_registered past dim').mp hregistered, hregistered]
          · simp [hdim]
      | lastFor dim' => simp [returnedBy]

theorem last_of_returned (past : List Call) (dim : DimensionId) (id : TaskId)
    (h : (returned past dim).getLast? = some id) :
    (final step new past).lastFor dim = some id := by
  induction past using List.reverseRecOn with
  | nil => cases h
  | append_singleton past call ih =>
      rw [final_concat]
      rw [returned_concat] at h
      cases call with
      | registerDimension dim' fresh =>
          have hbefore := ih (by simpa [returnedBy] using h)
          change ((final step new past).registerDimension dim' fresh).lastFor dim = some id
          rw [registerDimension]
          split
          · exact hbefore
          · next hcontains =>
              have hdim : dim ≠ dim' := by
                rintro rfl
                rw [lastFor] at hbefore
                simp [Std.ExtTreeMap.contains_eq_isSome_getElem?, hbefore] at hcontains
              rw [lastFor, Maps.getElem?_insert_ite, if_neg hdim]
              exact hbefore
      | next dim' fresh =>
          rw [returnedBy_next] at h
          change ((final step new past).next dim' fresh).2.lastFor dim = some id
          rw [next]
          cases hcontains : (final step new past).last.contains dim' with
          | false => exact ih (by simpa [hcontains] using h)
          | true =>
              change ((final step new past).last.insert dim' fresh)[dim]? = some id
              rw [Maps.getElem?_insert_ite]
              by_cases hdim : dim' = dim
              · subst hdim
                simpa [hcontains] using h
              · rw [if_neg (Ne.symm hdim)]
                exact ih (by simpa [hdim] using h)
      | lastFor dim' => exact ih (by simpa [returnedBy] using h)

/-! ## When the books are right -/

theorem lastFor_eq_none_iff (past : List Call) (dim : DimensionId) :
    (final step new past).lastFor dim = none ↔ ¬ Registered past dim := by
  rw [← contains_iff_registered, lastFor, Std.ExtTreeMap.contains_eq_isSome_getElem?]
  cases (final step new past).last[dim]? with
  | none => simp
  | some id => simp

/-- The books are right in the runs that ask for the last id of no dimension between its
registration and its first allocation. -/
theorem bookkept_iff (calls : List Call) :
    Bookkept calls ↔ ∀ past dim, past ++ [.lastFor dim] <+: calls →
      Registered past dim → Allocated past dim := by
  constructor
  · intro h past dim hpast hregistered
    rw [← returned_ne_nil_iff]
    intro hnil
    have hlast := h.lastFor past dim hpast
    rw [hnil] at hlast
    have hnone : (final step new past).lastFor dim = none := Answer.last.inj hlast
    exact (lastFor_eq_none_iff past dim).mp hnone hregistered
  · intro h
    refine ⟨?_, ?_, ?_⟩
    · intro past dim fresh _
      rw [← contains_iff_registered, answer_next]
      cases (final step new past).last.contains dim with
      | true => simp
      | false => simp
    · intro past dim hpast
      change Answer.last ((final step new past).lastFor dim) = _
      congr 1
      cases hlast : (returned past dim).getLast? with
      | some id => exact last_of_returned past dim id hlast
      | none =>
          rw [lastFor_eq_none_iff]
          intro hregistered
          have hne := (returned_ne_nil_iff past dim).mpr (h past dim hpast hregistered)
          exact hne (List.getLast?_eq_none_iff.mp hlast)
    · intro past dim fresh _ hregistered
      rw [final_concat]
      change (final step new past).registerDimension dim fresh = _
      rw [registerDimension, if_pos ((contains_iff_registered past dim).mpr hregistered)]

/-- A dimension that is only registered has an id that no call returned. -/
theorem not_bookkept_registered : ¬ Bookkept [.registerDimension 1 7, .lastFor 1] := by
  intro h
  have hlast := h.lastFor [.registerDimension 1 7] 1 (List.prefix_refl _)
  exact absurd hlast (by decide +kernel)

end TaskAllocator

end Execution

end InfinityOS
