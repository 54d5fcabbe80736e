import InfinityOS.Core.Maps
import InfinityOS.Core.Types
import InfinityOS.Transition.Run

/-!
# Recorded events

The task records of `LocalOrchestrator` and the locked section of each call, which
records an event in the history of a task. The action log is left out. A submission
replaces the record of a task that is already known, so the histories only grow in the
runs without such a submission.
-/

namespace InfinityOS

namespace Orchestrator

open Transition

inductive OrchestratorError where
  | taskNotFound (id : TaskId)
  | alreadyTerminal (id : TaskId)
  | dimensionMismatch (expected got : DimensionId)
  deriving DecidableEq

inductive OrchestratorEvent where
  | submitted (taskId : TaskId)
  | progress (taskId : TaskId) (percent : UInt8) (message : String)
  | completed (taskId : TaskId)
  | failed (taskId : TaskId) (error : String)
  | cancelled (taskId : TaskId)
  deriving DecidableEq

namespace OrchestratorEvent

def taskId : OrchestratorEvent → TaskId
  | submitted id => id
  | progress id _ _ => id
  | completed id => id
  | failed id _ => id
  | cancelled id => id

def isTerminal : OrchestratorEvent → Bool
  | completed _ | failed _ _ | cancelled _ => true
  | _ => false

end OrchestratorEvent

structure TaskRecord where
  history : List OrchestratorEvent
  terminal : Bool

/-- The dimension, the records and the events that were broadcast. -/
structure LocalOrchestrator where
  dimensionId : DimensionId
  tasks : HashMap TaskId TaskRecord
  sent : List OrchestratorEvent

inductive Call where
  | submit (taskId : TaskId) (dimensionId : DimensionId)
  | progress (taskId : TaskId) (percent : UInt8) (message : String)
  | complete (taskId : TaskId)
  | fail (taskId : TaskId) (error : String)
  | cancel (taskId : TaskId)
  deriving DecidableEq

def Call.taskId : Call → TaskId
  | submit id _ => id
  | progress id _ _ => id
  | complete id => id
  | fail id _ => id
  | cancel id => id

namespace LocalOrchestrator

def new (dimensionId : DimensionId) : LocalOrchestrator :=
  { dimensionId, tasks := ∅, sent := [] }

def broadcast (s : LocalOrchestrator) (event : OrchestratorEvent) : LocalOrchestrator :=
  { s with sent := s.sent ++ [event] }

def insertSubmitted (s : LocalOrchestrator) (taskId : TaskId) : LocalOrchestrator :=
  { s with tasks := s.tasks.insert taskId { history := [.submitted taskId], terminal := false } }

/-- `record_event`, and with `terminal` set `record_terminal`. -/
def record (s : LocalOrchestrator) (taskId : TaskId) (event : OrchestratorEvent)
    (terminal : Bool) : Except OrchestratorError LocalOrchestrator :=
  match s.tasks[taskId]? with
  | none => .error (.taskNotFound taskId)
  | some r =>
      if r.terminal then
        .error (.alreadyTerminal taskId)
      else
        .ok { s with
          tasks := s.tasks.insert taskId { history := r.history ++ [event], terminal } }

def recordEvent (s : LocalOrchestrator) (taskId : TaskId) (event : OrchestratorEvent) :
    Except OrchestratorError LocalOrchestrator :=
  s.record taskId event false

def recordTerminal (s : LocalOrchestrator) (taskId : TaskId) (event : OrchestratorEvent) :
    Except OrchestratorError LocalOrchestrator :=
  s.record taskId event true

/-- The part of a call up to the end of its locked section: the event that it has still to
broadcast. -/
def locked (s : LocalOrchestrator) :
    Call → Except OrchestratorError (OrchestratorEvent × LocalOrchestrator)
  | .submit taskId dimensionId =>
      if dimensionId ≠ s.dimensionId then
        .error (.dimensionMismatch s.dimensionId dimensionId)
      else
        .ok (.submitted taskId, s.insertSubmitted taskId)
  | .progress taskId percent message =>
      let event := .progress taskId percent message
      (s.recordEvent taskId event).map fun s => (event, s)
  | .complete taskId =>
      let event := .completed taskId
      (s.recordTerminal taskId event).map fun s => (event, s)
  | .fail taskId error =>
      let event := .failed taskId error
      (s.recordTerminal taskId event).map fun s => (event, s)
  | .cancel taskId =>
      let event := .cancelled taskId
      (s.recordTerminal taskId event).map fun s => (event, s)

/-- A whole call, not interrupted. -/
def step (s : LocalOrchestrator) (call : Call) :
    Except OrchestratorError Unit × LocalOrchestrator :=
  match s.locked call with
  | .error e => (.error e, s)
  | .ok (event, s) => (.ok (), s.broadcast event)

def replay (s : LocalOrchestrator) (taskId : TaskId) :
    Except OrchestratorError (List OrchestratorEvent) :=
  match s.tasks[taskId]? with
  | none => .error (.taskNotFound taskId)
  | some r => .ok r.history

def historyOf (s : LocalOrchestrator) (id : TaskId) : List OrchestratorEvent :=
  (s.tasks[id]?.map TaskRecord.history).getD []

end LocalOrchestrator

/-- `Submitted Progress*`, followed by one terminal event if the task has ended. -/
def HistoryForm (id : TaskId) (terminal : Bool) (history : List OrchestratorEvent) : Prop :=
  ∃ updates last, history = .submitted id :: (updates ++ last) ∧
    (∀ e ∈ updates, ∃ percent message, e = .progress id percent message) ∧
    if terminal then ∃ e, last = [e] ∧ e.isTerminal = true ∧ e.taskId = id else last = []

/-- Every history has the form that its record announces. -/
def WellFormed (s : LocalOrchestrator) : Prop :=
  ∀ id r, s.tasks[id]? = some r → HistoryForm id r.terminal r.history

/-- After the call every history extends the one before, which had not ended if it is
longer now, and is of the right form. -/
def KeepsHistories (s : LocalOrchestrator) (call : Call) : Prop :=
  let s' := (s.step call).2
  WellFormed s' ∧ ∀ id, s.historyOf id <+: s'.historyOf id ∧
    ((∃ e ∈ s.historyOf id, e.isTerminal = true) → s'.historyOf id = s.historyOf id)

/-- The call does not submit a task for which more is recorded than its submission. -/
def NoResubmission (s : LocalOrchestrator) : Call → Prop
  | .submit id dim => dim = s.dimensionId → (s.historyOf id).length ≤ 1
  | _ => True

inductive Recorded (s : LocalOrchestrator) :
    Call → OrchestratorEvent → LocalOrchestrator → Prop
  | submitted (id : TaskId) :
      Recorded s (.submit id s.dimensionId) (.submitted id) (s.insertSubmitted id)
  | appended {call : Call} {event : OrchestratorEvent} {r : TaskRecord} {terminal : Bool}
      (hcall : ∀ id dim, call ≠ .submit id dim) (htask : event.taskId = call.taskId)
      (hfound : s.tasks[event.taskId]? = some r) (hopen : r.terminal = false)
      (hkind : if terminal then event.isTerminal = true
        else ∃ percent message, event = .progress event.taskId percent message) :
      Recorded s call event { s with
        tasks := s.tasks.insert event.taskId { history := r.history ++ [event], terminal } }

/-! ## Forms of histories -/

namespace HistoryForm

variable {id : TaskId} {history : List OrchestratorEvent} {terminal : Bool}

theorem submitted (id : TaskId) : HistoryForm id false [.submitted id] :=
  ⟨[], [], rfl, by simp, rfl⟩

theorem append (h : HistoryForm id false history) {event : OrchestratorEvent}
    (hid : event.taskId = id)
    (hkind : if terminal then event.isTerminal = true
      else ∃ percent message, event = .progress id percent message) :
    HistoryForm id terminal (history ++ [event]) := by
  obtain ⟨updates, last, rfl, hupdates, hlast⟩ := h
  obtain rfl : last = [] := hlast
  cases terminal with
  | true =>
      refine ⟨updates, [event], by simp, hupdates, event, rfl, hkind, hid⟩
  | false =>
      refine ⟨updates ++ [event], [], by simp, ?_, rfl⟩
      intro e he
      rcases List.mem_append.mp he with he | he
      · exact hupdates e he
      · rw [List.mem_singleton.mp he]
        exact hkind

theorem not_isTerminal (h : HistoryForm id false history) :
    ∀ e ∈ history, e.isTerminal = false := by
  obtain ⟨updates, last, rfl, hupdates, hlast⟩ := h
  obtain rfl : last = [] := hlast
  intro e he
  rw [List.append_nil] at he
  rcases List.mem_cons.mp he with rfl | he
  · rfl
  · obtain ⟨percent, message, rfl⟩ := hupdates e he
    rfl

theorem taskId_eq (h : HistoryForm id terminal history) : ∀ e ∈ history, e.taskId = id := by
  obtain ⟨updates, last, rfl, hupdates, hlast⟩ := h
  intro e he
  rcases List.mem_cons.mp he with rfl | he
  · rfl
  · rcases List.mem_append.mp he with he | he
    · obtain ⟨percent, message, rfl⟩ := hupdates e he
      rfl
    · cases terminal with
      | true =>
          obtain ⟨e', rfl, -, hid⟩ := hlast
          rw [List.mem_singleton.mp he, hid]
      | false =>
          obtain rfl : last = [] := hlast
          cases he

theorem dropLast (h : HistoryForm id terminal history) :
    ∀ e ∈ history.dropLast, e.isTerminal = false := by
  cases terminal with
  | false =>
      intro e he
      exact h.not_isTerminal e (List.mem_of_mem_dropLast he)
  | true =>
      obtain ⟨updates, last, rfl, hupdates, e', rfl, -, -⟩ := h
      have hopen : HistoryForm id false (.submitted id :: updates) :=
        ⟨updates, [], by simp, hupdates, rfl⟩
      rw [← List.cons_append, List.dropLast_concat]
      exact hopen.not_isTerminal

theorem nil_of_isTerminal (h : HistoryForm id terminal history)
    {l l' : List OrchestratorEvent} {e : OrchestratorEvent} (heq : history = l ++ e :: l')
    (he : e.isTerminal = true) : l' = [] := by
  by_contra hne
  have hmem : e ∈ history.dropLast := by
    rw [heq, List.dropLast_append_cons, List.dropLast_cons_of_ne_nil hne]
    exact List.mem_append_right l List.mem_cons_self
  have hopen := h.dropLast e hmem
  rw [he] at hopen
  cases hopen

end HistoryForm

/-! ## The locked sections -/

variable {s s' : LocalOrchestrator} {call : Call} {event : OrchestratorEvent}

theorem historyOf_insert (s : LocalOrchestrator) (id : TaskId) (r : TaskRecord) (i : TaskId) :
    ({ s with tasks := s.tasks.insert id r } : LocalOrchestrator).historyOf i =
      if i = id then r.history else s.historyOf i := by
  rw [LocalOrchestrator.historyOf, Maps.getElem?_insert_ite]
  split <;> rfl

theorem historyOf_of_found {id : TaskId} {r : TaskRecord} (h : s.tasks[id]? = some r) :
    s.historyOf id = r.history := by
  rw [LocalOrchestrator.historyOf, h]
  rfl

theorem record_ok {id : TaskId} {terminal : Bool}
    (h : s.record id event terminal = .ok s') :
    ∃ r, s.tasks[id]? = some r ∧ r.terminal = false ∧ s' = { s with
      tasks := s.tasks.insert id { history := r.history ++ [event], terminal } } := by
  unfold LocalOrchestrator.record at h
  split at h
  · cases h
  · next r hr =>
      split at h
      · cases h
      · next hopen =>
          cases h
          exact ⟨r, hr, by simpa using hopen, rfl⟩

theorem locked_recorded (h : s.locked call = .ok (event, s')) : Recorded s call event s' := by
  have map_ok {e e' : OrchestratorEvent} {x : Except OrchestratorError LocalOrchestrator}
      {t : LocalOrchestrator} (h : (x.map fun s => (e, s)) = .ok (e', t)) :
      x = .ok t ∧ e' = e := by
    cases x with
    | error _ => cases h
    | ok u =>
        cases h
        exact ⟨rfl, rfl⟩
  cases call with
  | submit id dim =>
      rw [LocalOrchestrator.locked] at h
      split at h
      · cases h
      · next hdim =>
          cases h
          rw [not_not] at hdim
          subst hdim
          exact .submitted id
  | progress id percent message =>
      obtain ⟨hrecord, rfl⟩ := map_ok h
      obtain ⟨r, hr, hopen, rfl⟩ := record_ok hrecord
      exact .appended (by simp) rfl hr hopen ⟨percent, message, rfl⟩
  | complete id =>
      obtain ⟨hrecord, rfl⟩ := map_ok h
      obtain ⟨r, hr, hopen, rfl⟩ := record_ok hrecord
      exact .appended (by simp) rfl hr hopen rfl
  | fail id error =>
      obtain ⟨hrecord, rfl⟩ := map_ok h
      obtain ⟨r, hr, hopen, rfl⟩ := record_ok hrecord
      exact .appended (by simp) rfl hr hopen rfl
  | cancel id =>
      obtain ⟨hrecord, rfl⟩ := map_ok h
      obtain ⟨r, hr, hopen, rfl⟩ := record_ok hrecord
      exact .appended (by simp) rfl hr hopen rfl

namespace Recorded

theorem sent (hr : Recorded s call event s') : s'.sent = s.sent := by
  cases hr <;> rfl

theorem taskId_eq (hr : Recorded s call event s') : event.taskId = call.taskId := by
  cases hr with
  | submitted id => rfl
  | appended _ htask _ _ _ => exact htask

theorem wellFormed (hr : Recorded s call event s') (h : WellFormed s) : WellFormed s' := by
  intro i r' hr'
  cases hr with
  | submitted id =>
      change (s.tasks.insert id _)[i]? = some r' at hr'
      rw [Maps.getElem?_insert_ite] at hr'
      split at hr'
      · next hid =>
          cases hr'
          rw [hid]
          exact HistoryForm.submitted id
      · exact h i r' hr'
  | appended hcall htask hfound hopen hkind =>
      change (s.tasks.insert event.taskId _)[i]? = some r' at hr'
      rw [Maps.getElem?_insert_ite] at hr'
      split at hr'
      · next hid =>
          cases hr'
          have hform := h _ _ hfound
          rw [hopen] at hform
          rw [hid]
          exact hform.append rfl hkind
      · exact h i r' hr'

theorem historyOf_of_ne (hr : Recorded s call event s') {i : TaskId} (hi : i ≠ event.taskId) :
    s'.historyOf i = s.historyOf i := by
  cases hr with
  | submitted id =>
      change i ≠ id at hi
      rw [LocalOrchestrator.insertSubmitted, historyOf_insert, if_neg hi]
  | appended => rw [historyOf_insert, if_neg hi]

end Recorded

theorem WellFormed.historyOf_form (h : WellFormed s) (id : TaskId) :
    s.historyOf id = [] ∨ ∃ terminal, HistoryForm id terminal (s.historyOf id) := by
  cases hget : s.tasks[id]? with
  | none =>
      rw [LocalOrchestrator.historyOf, hget]
      exact .inl rfl
  | some r =>
      rw [historyOf_of_found hget]
      exact .inr ⟨r.terminal, h id r hget⟩

theorem Recorded.historyOf_self (hr : Recorded s call event s')
    (hnew : ∀ id dim, call = .submit id dim → s.historyOf id = []) :
    s'.historyOf event.taskId = s.historyOf event.taskId ++ [event] := by
  cases hr with
  | submitted id =>
      change (s.insertSubmitted id).historyOf id = s.historyOf id ++ _
      rw [hnew id _ rfl, LocalOrchestrator.insertSubmitted, historyOf_insert, if_pos rfl]
      rfl
  | appended hcall htask hfound hopen hkind =>
      rw [historyOf_insert, if_pos rfl, historyOf_of_found hfound]

/-! ## Growing histories -/

theorem step_of_recorded (h : s.locked call = .ok (event, s')) :
    (s.step call).2 = s'.broadcast event := by
  rw [LocalOrchestrator.step, h]

theorem wellFormed_step (h : WellFormed s) (call : Call) : WellFormed (s.step call).2 := by
  rw [LocalOrchestrator.step]
  split
  · exact h
  · next event s' hlocked => exact (locked_recorded hlocked).wellFormed h

theorem HistoryForm.eq_submitted {id : TaskId} {terminal : Bool}
    {history : List OrchestratorEvent} (h : HistoryForm id terminal history)
    (hlength : history.length ≤ 1) : history = [.submitted id] := by
  obtain ⟨updates, last, rfl, -, -⟩ := h
  have hnil : updates ++ last = [] := by simpa using hlength
  rw [hnil]

theorem keepsHistories_of_recorded (h : WellFormed s) (hr : Recorded s call event s')
    (hcall : NoResubmission s call) (id : TaskId) :
    s.historyOf id <+: s'.historyOf id ∧
      ((∃ e ∈ s.historyOf id, e.isTerminal = true) → s'.historyOf id = s.historyOf id) := by
  by_cases hid : id = event.taskId
  swap
  · rw [hr.historyOf_of_ne hid]
    exact ⟨List.prefix_rfl, fun _ => rfl⟩
  subst hid
  cases hr with
  | submitted id =>
      have hafter : (s.insertSubmitted id).historyOf id = [.submitted id] := by
        rw [LocalOrchestrator.insertSubmitted, historyOf_insert, if_pos rfl]
      change s.historyOf id <+: (s.insertSubmitted id).historyOf id ∧
        ((∃ e ∈ s.historyOf id, e.isTerminal = true) →
          (s.insertSubmitted id).historyOf id = s.historyOf id)
      rw [hafter]
      rcases h.historyOf_form id with hnil | ⟨terminal, hform⟩
      · rw [hnil]
        exact ⟨List.nil_prefix, by simp⟩
      · rw [hform.eq_submitted (hcall rfl)]
        exact ⟨List.prefix_rfl, fun _ => rfl⟩
  | appended hcall htask hfound hopen hkind =>
      have hform := h _ _ hfound
      rw [hopen] at hform
      rw [historyOf_insert, if_pos rfl, historyOf_of_found hfound]
      refine ⟨List.prefix_append _ _, fun ⟨e, he, hterminal⟩ => ?_⟩
      rw [hform.not_isTerminal e he] at hterminal
      cases hterminal

theorem keepsHistories_iff (h : WellFormed s) (call : Call) :
    KeepsHistories s call ↔ NoResubmission s call := by
  constructor
  · rintro ⟨-, hkeeps⟩
    cases call with
    | submit id dim =>
        intro hdim
        subst hdim
        have hafter : (s.step (.submit id s.dimensionId)).2.historyOf id = [.submitted id] := by
          rw [LocalOrchestrator.step, LocalOrchestrator.locked, if_neg (by simp)]
          change (s.insertSubmitted id).historyOf id = _
          rw [LocalOrchestrator.insertSubmitted, historyOf_insert, if_pos rfl]
        have hgrows := (hkeeps id).1.length_le
        rw [hafter] at hgrows
        exact hgrows
    | _ => trivial
  · intro hcall
    refine ⟨wellFormed_step h call, fun id => ?_⟩
    cases hlocked : s.locked call with
    | error e =>
        rw [LocalOrchestrator.step, hlocked]
        exact ⟨List.prefix_rfl, fun _ => rfl⟩
    | ok p =>
        rw [step_of_recorded hlocked]
        exact keepsHistories_of_recorded h (locked_recorded hlocked) hcall id

theorem along_keepsHistories_iff (h : WellFormed s) (calls : List Call) :
    Along KeepsHistories LocalOrchestrator.step s calls ↔
      Along NoResubmission LocalOrchestrator.step s calls := by
  induction calls generalizing s with
  | nil => exact Iff.rfl
  | cons call calls ih =>
      rw [Along, Along, keepsHistories_iff h call, ih (wellFormed_step h call)]

theorem wellFormed_new (dim : DimensionId) : WellFormed (.new dim) := by
  intro id r hr
  simp [LocalOrchestrator.new] at hr

/-- In a run from a new orchestrator every call keeps the histories, which grow and are of
the form `Submitted Progress*` with at most one terminal event at the end, if and only if
no call submits a task for which more than its submission is recorded. -/
theorem histories_grow_iff (dim : DimensionId) (calls : List Call) :
    Along KeepsHistories LocalOrchestrator.step (.new dim) calls ↔
      Along NoResubmission LocalOrchestrator.step (.new dim) calls :=
  along_keepsHistories_iff (wellFormed_new dim) calls

/-- A task that is completed and submitted again: its history starts anew. -/
theorem resubmission_erases_history :
    ¬ Along KeepsHistories LocalOrchestrator.step (.new 7)
      [.submit 1 7, .complete 1, .submit 1 7] := by
  rw [along_keepsHistories_iff (wellFormed_new 7)]
  rintro ⟨-, -, hcall, -⟩
  have hlength := hcall rfl
  revert hlength
  decide +kernel

end Orchestrator

end InfinityOS
