import InfinityOS.Scheduler.Renumbering
import InfinityOS.Scheduler.Rewrite

/-!
# When a restored scheduler stands in for the old one

`restore` leaves the counters of running tasks and of submissions at zero, and it fills the
ready queue from the records. So a restored scheduler behaves as the old one where no task
was running or counted as such, the queue was that of the queued tasks, and no later
submission can overtake an open task: the old counter was zero as well, no id is left to
submit, or no open task has a number. Without earlier restorations this is exact.
For the other direction one open task is brought into the ready queue
together with a new one: the old scheduler hands out the old task first, the
restored one the new task.
-/

namespace InfinityOS

namespace Scheduler

open Transition

/-- The records in insertion order, without their sequence numbers. -/
def TaskScheduler.listing (s : TaskScheduler) : List TaskRecord :=
  s.index.iterInOrder.map fun r => r.withSeq 0

/-- The answer of a call without the sequence number of the record it carries. -/
def Reply.withoutSeq : Reply → Reply
  | .answer a => .answer a.withoutSeq
  | .restored result => .restored result

def Call.BringsClosed (json : RecordJson) : Call → Prop
  | .op _ => True
  | .restore text => ∀ records, json.fromStr text = .ok records →
      ∀ record ∈ records, record.state.isClosed = true

/-- Under every further sequence of calls, in which restorations only bring closed tasks, `r`
gives the answers of `s` and shows the same records, and its counters cover its running
tasks. -/
structure RestoredFaithfully (json : RecordJson) (s r : TaskScheduler) : Prop where
  answers : ∀ calls : List Call, (∀ call ∈ calls, call.BringsClosed json) →
    (trace (stepCall json) s calls).map (fun p => (p.1, p.2.withoutSeq)) =
      (trace (stepCall json) r calls).map (fun p => (p.1, p.2.withoutSeq))
  records : ∀ calls : List Call, (∀ call ∈ calls, call.BringsClosed json) →
    (final (stepCall json) s calls).listing = (final (stepCall json) r calls).listing
  counted : ∀ calls : List Call, (∀ call ∈ calls, call.BringsClosed json) → ∀ d,
    (final (stepCall json) r calls).index.runningTasks d ≤
      ((final (stepCall json) r calls).runningFor d).toNat

/-- No task is running or counted as running, the queued tasks are in the ready queue once
each, and either nothing was ever submitted, or every id is taken, or no open task has a
sequence number. -/
structure Restorable (s : TaskScheduler) : Prop where
  idle : ∀ id, s.stateOf id ≠ some .running
  uncounted : ∀ d, s.runningFor d = 0
  queue : s.readyQueue = s.index.queuedEntries.insertionSort ReadyEntry.before
  settled : s.index.seq = 0 ∨ (∀ id, s.index.contains id = true) ∨
    ∀ id r, s.index.get id = some r → r.state.isClosed = false → r.seq = 0

section Faithful

variable {s : TaskScheduler}

theorem Restorable.ne_running (h : Restorable s) :
    ∀ id r, s.index.get id = some r → r.state ≠ .running := by
  intro id r hr hrun
  refine h.idle id ?_
  rw [TaskScheduler.stateOf, hr, Option.map_some, hrun]

theorem Accounted.runningFor_of_idle (h : Accounted s)
    (hidle : ∀ id r, s.index.get id = some r → r.state ≠ .running) (d : DimensionId) :
    s.runningFor d = 0 := by
  have hzero : s.index.runningTasks d = 0 := by
    rw [TaskIndex.runningTasks, List.countP_eq_zero]
    intro r hr
    obtain ⟨id, hid⟩ := (TaskIndex.mem_iterInOrder h.index).mp hr
    simp [hidle id r hid]
  apply UInt32.toNat_inj.mp
  rw [h.running, hzero]
  rfl

theorem Restorable.shifted_by (hs : Restorable s) (h : s.index.WellFormed) {k : ℕ}
    (hcounter : s.index.seq = k ∨ ∀ id, s.index.contains id = true)
    (hrecords : ∀ id r, s.index.get id = some r →
      r.state.isClosed = true ∨ r.seq = shiftSeq k r.seq) : Shifted k s s.restored := by
  have hbase := h.loaded.base
  refine ⟨h.insertionOrder_restored.symm, fun id => ?_, ?_, ?_, fun d => ?_, ?_, ?_, ?_⟩
  · rw [h.get_restored]
    cases hr : s.index.get id with
    | none => exact .none
    | some r => exact .some ⟨r.seq, rfl, hrecords id r hr⟩
  · rw [h.loaded.counter, Nat.zero_add]
    refine hcounter.imp_right fun hall id => ?_
    rw [h.get_restored, ← TaskIndex.contains_eq_isSome]
    exact hall id
  · have hentry : ∀ e ∈ s.index.queuedEntries, e.shift k = e := by
      intro e he
      obtain ⟨r, hr, hq, rfl⟩ := (TaskIndex.mem_queuedEntries h).mp he
      rcases hrecords _ r hr with hclosed | hseq
      · rw [hq] at hclosed
        cases hclosed
      · exact congrArg (ReadyEntry.mk r.spec.priority · r.taskId) hseq.symm
    have hqueue : s.restored.readyQueue =
        s.index.queuedEntries.insertionSort ReadyEntry.before := h.loaded.queue
    rw [hqueue, hs.queue]
    have hsame : (s.index.queuedEntries.insertionSort ReadyEntry.before).map
        (ReadyEntry.shift k) =
          (s.index.queuedEntries.insertionSort ReadyEntry.before).map id :=
      List.map_congr_left fun e he => hentry e (List.mem_insertionSort _ |>.mp he)
    rw [hsame, List.map_id]
  · rw [hs.uncounted, h.runningFor_restored]
  all_goals rw [hbase]; rfl

theorem Restorable.shifted (hs : Restorable s) (h : s.index.WellFormed) :
    ∃ k, Shifted k s s.restored := by
  rcases hs.settled with hzero | hfull | hopen
  · exact ⟨0, hs.shifted_by h (.inl hzero) fun _ r _ => .inr (shiftSeq_zero_left r.seq).symm⟩
  · exact ⟨0, hs.shifted_by h (.inr hfull) fun _ r _ => .inr (shiftSeq_zero_left r.seq).symm⟩
  · refine ⟨s.index.seq, hs.shifted_by h (.inl rfl) fun id r hr => ?_⟩
    cases hclosed : r.state.isClosed with
    | true => exact .inl rfl
    | false =>
        rw [hopen id r hr hclosed]
        exact .inr rfl

variable {json : RecordJson}

theorem Shifted.stepCall {k : ℕ} {r : TaskScheduler} (h : Shifted k s r) {call : Call}
    (hcall : call.BringsClosed json) :
    (stepCall json s call).1.withoutSeq = (stepCall json r call).1.withoutSeq ∧
      Shifted k (stepCall json s call).2 (stepCall json r call).2 := by
  cases call with
  | op op =>
      obtain ⟨hanswer, h'⟩ := h.step op
      exact ⟨congrArg Reply.answer hanswer, h'⟩
  | restore text =>
      change (Reply.restored (s.restore json text).1).withoutSeq =
          (Reply.restored (r.restore json text).1).withoutSeq ∧
        Shifted k (s.restore json text).2 (r.restore json text).2
      unfold TaskScheduler.restore
      cases hread : json.fromStr text with
      | error e => exact ⟨rfl, h⟩
      | ok records => exact ⟨rfl, h.restoreRecords (hcall records hread)⟩

theorem Call.BringsClosed.admits {call : Call} (h : call.BringsClosed json) :
    call.Admits json s := by
  cases call with
  | op op => trivial
  | restore text =>
      intro records hread
      refine along_of_forall (fun record hrecord t => ?_) s
      have hclosed := h records hread record hrecord
      constructor
      · rintro hq
        rw [hq] at hclosed
        cases hclosed
      · rintro - hrun
        rw [hrun] at hclosed
        cases hclosed

theorem Restorable.faithful (hs : Restorable s) (h : s.index.WellFormed) :
    RestoredFaithfully json s s.restored := by
  obtain ⟨k, hshift⟩ := hs.shifted h
  have hsim (calls : List Call) (hcalls : ∀ call ∈ calls, call.BringsClosed json) :
      (trace (Scheduler.stepCall json) s calls).map (fun p => (p.1, p.2.withoutSeq)) =
          (trace (Scheduler.stepCall json) s.restored calls).map (fun p => (p.1, p.2.withoutSeq)) ∧
        Shifted k (final (Scheduler.stepCall json) s calls)
          (final (Scheduler.stepCall json) s.restored calls) :=
    simulation (fun _ _ _ hR hcall => hR.stepCall hcall) hshift hcalls
  refine ⟨fun calls hcalls => (hsim calls hcalls).1, fun calls hcalls => ?_,
    fun calls hcalls d => ?_⟩
  · exact (hsim calls hcalls).2.map_iterInOrder _ fun _ _ => rfl
  · have hacc : Accounted (final (Scheduler.stepCall json) s.restored calls) :=
      invariant_final Accounted (fun _ _ hacc hcall => hacc.stepCall hcall)
        (h.accounted_restored hs.ne_running)
        (along_of_forall (fun call hcall _ => (hcalls call hcall).admits) _)
    exact (hacc.running d).ge

end Faithful

/-! ## Calls that succeed -/

section Calls

variable {s : TaskScheduler} {id : TaskId} {r : TaskRecord}

theorem cancel_isOk (hr : s.index.get id = some r) (hopen : r.state.isClosed = false)
    (now : Clock) : (s.cancel id now).1 = .ok () := by
  obtain ⟨t, ht⟩ := TaskScheduler.transition_isOk hr .cancelled
    (TaskState.canTransitionTo_cancelled hopen) (now 0)
  unfold TaskScheduler.cancel
  rw [ht]

theorem pause_isOk (hr : s.index.get id = some r) (hrun : r.state = .running)
    (now : Clock) : (s.pause id now).1 = .ok () := by
  obtain ⟨t, ht⟩ := TaskScheduler.transition_isOk hr .paused
    (by simp [hrun, TaskState.canTransitionTo]) (now 0)
  unfold TaskScheduler.pause
  rw [ht]

/-- A free slot for the head of the queue: it is handed out. -/
theorem nextReady_head (h : Accounted s) {e : ReadyEntry} {rest : List ReadyEntry}
    (hq : s.readyQueue = e :: rest) (helig : s.eligible e = true) (w : String)
    (now : Clock) : (s.step (.nextReady w now)).1.handedOut = some e.taskId := by
  have hpos : s.readyQueue.findIdx? s.eligible = some 0 := by
    rw [hq, List.findIdx?_cons, helig]
    rfl
  have hget : s.readyQueue[0]? = some e := by
    rw [hq]
    rfl
  obtain ⟨r, r', lease, s', heq, hm, -⟩ := nextReady_found h hpos hget w now
  change (Answer.handed (s.nextReady w now).1).handedOut = _
  rw [heq, Answer.handedOut, hm.taskId, h.index.keyed hm.found]

theorem resume_queue (hr : s.index.get id = some r)
    (hcan : r.state.canTransitionTo .queued = true) (now : Clock) :
    (s.resume id now).1 = .ok () ∧
      (s.resume id now).2.readyQueue =
        (s.readyQueue ++ [ReadyEntry.mk r.spec.priority r.seq id]).insertionSort
          ReadyEntry.before := by
  obtain ⟨t, ht⟩ := TaskScheduler.transition_isOk hr .queued hcan (now 0)
  obtain ⟨r₀, hr₀, -, htdef⟩ := TaskScheduler.transition_ok ht
  have hsame : r₀ = r := Option.some.inj (hr₀.symm.trans hr)
  unfold TaskScheduler.resume
  rw [ht]
  refine ⟨rfl, ?_⟩
  change t.readyQueue = _
  rw [htdef, if_pos rfl, hsame]
  rfl

theorem submit_isOk (hnew : s.index.get id = none) {spec : TaskSpec}
    (hdeps : spec.dependencies = []) (hempty : ∀ i t, s.index.get i = some t → t.state ≠ .queued)
    (h : Accounted s) (hquota : (s.quotaFor spec.dimensionId).maxQueued ≠ 0)
    (now : Clock) : (s.submit id spec now).1 = .ok () := by
  have hcontains : ¬ s.index.contains id = true := by
    simp [TaskIndex.contains_eq_isSome, hnew]
  have hcount : (s.index.iterInOrder.countP fun t =>
      t.spec.dimensionId = spec.dimensionId ∧ t.state = .queued) = 0 := by
    rw [List.countP_eq_zero]
    intro t ht
    obtain ⟨i, hi⟩ := (TaskIndex.mem_iterInOrder h.index).mp ht
    simp [hempty i t hi]
  have hget : ({ s with index := s.index.push id spec (now 0) } : TaskScheduler).index.get id =
      some (TaskRecord.new id spec (s.index.seq + 1) (now 0)) := by
    change (s.index.push id spec (now 0)).get id = _
    rw [TaskIndex.get_push, if_pos rfl]
  obtain ⟨t, ht⟩ := TaskScheduler.transition_isOk hget .queued rfl (now 1)
  unfold TaskScheduler.submit
  rw [if_neg hcontains]
  dsimp only
  rw [hcount, hdeps, if_neg (by simpa using hquota), List.find?_nil]
  dsimp only
  rw [TaskIndex.insert, if_neg hcontains]
  dsimp only
  rw [if_pos (show s.allDepsCompleted [] = true from rfl), ht]

end Calls

/-! ## The duel of two tasks -/

/-- Every other task than `id` is closed, and the dimension of `id` has no limit. -/
structure Alone (s : TaskScheduler) (id : TaskId) (r : TaskRecord) : Prop where
  accounted : Accounted s
  found : s.index.get id = some r
  others : ∀ i t, s.index.get i = some t → i ≠ id → t.state.isClosed = true
  quota : s.quotaFor r.spec.dimensionId = .unlimited
  live : r.state.isClosed = false

section Duel

variable {s : TaskScheduler} {id : TaskId} {r : TaskRecord}

theorem cancel_closes (h : Accounted s) (i : TaskId) (now : Clock) :
    let s' := (s.step (.cancel i now)).2
    (∀ t, s'.index.get i = some t → t.state.isClosed = true) ∧
      (∀ j, j ≠ i → s'.index.get j = s.index.get j) ∧
      s'.quotas = s.quotas ∧ s'.index.seq = s.index.seq := by
  intro s'
  have hok : ∀ t, s.index.get i = some t → t.state.isClosed = false →
      (s.step (.cancel i now)).1 = .done (.ok ()) := by
    intro t ht hopen
    exact congrArg Answer.done (cancel_isOk ht hopen now)
  have he : Effect s (.cancel i now) (s.step (.cancel i now)).1 s' := step_effect h _
  generalize (s.step (.cancel i now)).1 = answer at hok he
  generalize s' = u at he
  cases he with
  | refused hrefusal =>
      refine ⟨fun t ht => ?_, fun _ _ => rfl, rfl, rfl⟩
      by_contra hopen
      rw [hok t ht (by simpa using hopen)] at hrefusal
      cases hrefusal
  | cancelled hm hcan hc =>
      refine ⟨fun t ht => ?_, fun j hj => ?_, hm.quotas, ?_⟩
      · rw [hm.get, if_pos rfl] at ht
        cases ht
        rw [hc]
        rfl
      · rw [hm.get, if_neg hj]
      · rw [hm.index, TaskIndex.seq_set]

theorem alone_cancelAll (h : Accounted s) (hr : s.index.get id = some r)
    (hquota : s.quotaFor r.spec.dimensionId = .unlimited) (hlive : r.state.isClosed = false)
    (ids : List TaskId) (hid : id ∉ ids)
    (hrest : ∀ i t, s.index.get i = some t → i ≠ id → i ∉ ids → t.state.isClosed = true) :
    let s' := final TaskScheduler.step s (ids.map fun i => .cancel i fun _ => 0)
    Alone s' id r ∧ s'.index.seq = s.index.seq ∧
      ∀ i, i ∉ ids → s'.index.get i = s.index.get i := by
  induction ids generalizing s with
  | nil =>
      refine ⟨⟨h, hr, fun i t ht hne => ?_, hquota, hlive⟩, rfl, fun _ _ => rfl⟩
      exact hrest i t ht hne (by simp)
  | cons i ids ih =>
      rw [List.mem_cons, not_or] at hid
      obtain ⟨hclosed, hframe, hquotas, hseq⟩ := cancel_closes h i fun _ => 0
      rw [List.map_cons, final_cons]
      set u := (s.step (.cancel i fun _ => 0)).2 with hu
      have hcancelled : ∀ j t, u.index.get j = some t → j ≠ id → j ∉ ids →
          t.state.isClosed = true := by
        intro j t ht hne hj
        by_cases hji : j = i
        · exact hclosed t (hji ▸ ht)
        · rw [hframe j hji] at ht
          exact hrest j t ht hne (by simp [hji, hj])
      have hquota' : u.quotaFor r.spec.dimensionId = .unlimited := by
        rw [TaskScheduler.quotaFor, hquotas]
        exact hquota
      obtain ⟨halone, hseq', hframe'⟩ := ih (accounted_step _ h)
        (by rw [hframe id hid.1, hr]) hquota' hid.2 hcancelled
      refine ⟨halone, hseq'.trans hseq, fun j hj => ?_⟩
      rw [List.mem_cons, not_or] at hj
      rw [hframe' j hj.2, hframe j hj.1]

theorem Alone.not_running (ha : Alone s id r) (hne : r.state ≠ .running) :
    ∀ i t, s.index.get i = some t → t.state ≠ .running := by
  intro i t ht hrun
  by_cases hi : i = id
  · subst hi
    rw [ha.found] at ht
    cases ht
    exact hne hrun
  · have := ha.others i t ht hi
    simp [hrun, TaskState.isClosed] at this

theorem Alone.readyQueue (ha : Alone s id r) :
    s.readyQueue = if r.state = .queued then [r.entry] else [] := by
  obtain ⟨rest, hperm, hfilter, -⟩ := ha.accounted.queue_split ha.found
  have hrest : rest = [] := by
    refine List.eq_nil_iff_forall_not_mem.mpr fun e he => ?_
    have hmem := hfilter.mem_iff.mpr he
    obtain ⟨t, ht, hq, -⟩ := ha.accounted.mem_queue.mp (List.mem_of_mem_filter hmem)
    have := ha.others _ t ht (by simpa using List.of_mem_filter hmem)
    simp [hq, TaskState.isClosed] at this
  rw [hrest, List.append_nil] at hperm
  by_cases hq : r.state = .queued
  · rw [if_pos hq] at hperm ⊢
    exact List.perm_singleton.mp hperm
  · rw [if_neg hq] at hperm ⊢
    exact List.perm_nil.mp hperm

theorem eligible_of_idle (h : Accounted s)
    (hidle : ∀ i t, s.index.get i = some t → t.state ≠ .running) {e : ReadyEntry}
    (hr : s.index.get e.taskId = some r)
    (hquota : s.quotaFor r.spec.dimensionId = .unlimited) : s.eligible e = true := by
  unfold TaskScheduler.eligible
  rw [hr]
  dsimp only
  rw [h.runningFor_of_idle hidle, hquota]
  decide

theorem Moved.alone {s' : TaskScheduler} {r' : TaskRecord} (hm : Moved s s' id r r')
    (ha : Alone s id r) (hlive : r'.state.isClosed = false) : Alone s' id r' where
  accounted := hm.accounted ha.accounted
  found := by
    rw [hm.get, if_pos rfl]
  others i t ht hne := by
    rw [hm.get, if_neg hne] at ht
    exact ha.others i t ht hne
  quota := by
    rw [TaskScheduler.quotaFor, hm.quotas, hm.spec]
    exact ha.quota
  live := hlive

def parkOps (id : TaskId) (state : TaskState) : List Op :=
  if state = .queued then [.nextReady "" fun _ => 0, .pause id fun _ => 0] else []

theorem Alone.handOut (ha : Alone s id r) (hq : r.state = .queued) :
    ∃ r', Moved s (s.step (.nextReady "" fun _ => 0)).2 id r r' ∧ r'.state = .running := by
  have hid : r.entry.taskId = id := ha.accounted.index.keyed ha.found
  have hqueue : s.readyQueue = r.entry :: [] := by
    rw [ha.readyQueue, if_pos hq]
  have hidle := ha.not_running (by simp [hq])
  have hhand := nextReady_head ha.accounted hqueue
    (eligible_of_idle ha.accounted hidle (hid ▸ ha.found) ha.quota) "" fun _ => 0
  have he := step_effect ha.accounted (.nextReady "" fun _ => 0)
  rw [hid] at hhand
  generalize (s.step (.nextReady "" fun _ => 0)).1 = answer at hhand he
  generalize (s.step (.nextReady "" fun _ => 0)).2 = m at he
  cases he with
  | refused hrefusal => cases hrefusal <;> cases hhand
  | @handed _ _ _ i r₀ r₁ _ hm _ hrun _ =>
      rw [Answer.handedOut, hm.taskId, ha.accounted.index.keyed hm.found] at hhand
      cases hhand
      obtain rfl := Option.some.inj (hm.found.symm.trans ha.found)
      exact ⟨r₁, hm, hrun⟩

theorem pause_moved (h : Accounted s) (hr : s.index.get id = some r)
    (hrun : r.state = .running) :
    ∃ r', Moved s (s.step (.pause id fun _ => 0)).2 id r r' ∧ r'.state = .paused := by
  have hpause : (s.step (.pause id fun _ => 0)).1 = .done (.ok ()) :=
    congrArg Answer.done (pause_isOk hr hrun fun _ => 0)
  have he := step_effect h (.pause id fun _ => 0)
  rw [hpause] at he
  generalize (s.step (.pause id fun _ => 0)).2 = m at he
  cases he with
  | refused hrefusal => cases hrefusal
  | @paused _ _ _ r₀ r₁ hm _ hpaused =>
      obtain rfl := Option.some.inj (hm.found.symm.trans hr)
      exact ⟨r₁, hm, hpaused⟩

theorem Alone.park (ha : Alone s id r) (hne : r.state ≠ .running) :
    let s' := final TaskScheduler.step s (parkOps id r.state)
    ∃ r', Alone s' id r' ∧ r'.spec = r.spec ∧ r'.seq = r.seq ∧
      r'.state.canTransitionTo .queued = true ∧ s'.index.seq = s.index.seq ∧
      ∀ i, i ≠ id → s'.index.get i = s.index.get i := by
  intro s'
  by_cases hq : r.state = .queued
  · obtain ⟨r₁, hm, hrun⟩ := ha.handOut hq
    have ham := hm.alone ha (by simp [hrun, TaskState.isClosed])
    obtain ⟨r₂, hm', hpaused⟩ := pause_moved ham.accounted ham.found hrun
    have hops : s' = (((s.step (.nextReady "" fun _ => 0)).2).step
        (.pause id fun _ => 0)).2 := by
      simp only [s', parkOps, if_pos hq, final_cons, final_nil]
    rw [hops]
    refine ⟨r₂, hm'.alone ham (by simp [hpaused, TaskState.isClosed]),
      hm'.spec.trans hm.spec, hm'.seq.trans hm.seq, ?_, ?_, fun i hi => ?_⟩
    · rw [hpaused]
      rfl
    · rw [hm'.index, TaskIndex.seq_set, hm.index, TaskIndex.seq_set]
    · rw [hm'.get, if_neg hi, hm.get, if_neg hi]
  · have hops : s' = s := by
      simp only [s', parkOps, if_neg hq, final_nil]
    refine ⟨r, hops ▸ ha, rfl, rfl, ?_, by rw [hops], fun i _ => by rw [hops]⟩
    have hlive := ha.live
    cases hstate : r.state <;>
      simp_all [TaskState.isClosed, TaskState.canTransitionTo]

/-- A new task of the dimension and the priority of `spec`. -/
def rival (spec : TaskSpec) : TaskSpec :=
  { TaskSpec.new spec.dimensionId "" "" with priority := spec.priority }

/-- `u` is `s` with a new queued task of the dimension and the priority of `r`. -/
structure Entered (s u : TaskScheduler) (newId : TaskId) (r r₁ : TaskRecord) : Prop where
  accounted : Accounted u
  found : u.index.get newId = some r₁
  queued : r₁.state = .queued
  spec : r₁.spec = rival r.spec
  queue : u.readyQueue = [⟨r.spec.priority, s.index.seq + 1, newId⟩]
  frame : ∀ i, i ≠ newId → u.index.get i = s.index.get i
  quotas : u.quotas = s.quotas

theorem Alone.submit_rival (ha : Alone s id r) (hopen : r.state ≠ .queued) {newId : TaskId}
    (hnew : s.index.get newId = none) :
    ∃ r₁, Entered s (s.step (.submit newId (rival r.spec) fun _ => 0)).2 newId r r₁ := by
  have hempty : ∀ i t, s.index.get i = some t → t.state ≠ .queued := by
    intro i t ht hq
    have hmem := ha.accounted.mem_queue.mpr
      ⟨t, by rw [show t.entry.taskId = i from ha.accounted.index.keyed ht, ht], hq, rfl⟩
    rw [ha.readyQueue, if_neg hopen] at hmem
    cases hmem
  have hsubmit : (s.step (.submit newId (rival r.spec) fun _ => 0)).1 = .done (.ok ()) :=
    congrArg Answer.done (submit_isOk hnew rfl hempty ha.accounted
      (by rw [show (rival r.spec).dimensionId = r.spec.dimensionId from rfl, ha.quota]; decide)
      fun _ => 0)
  have he := step_effect ha.accounted (.submit newId (rival r.spec) fun _ => 0)
  rw [hsubmit] at he
  generalize (s.step (.submit newId (rival r.spec) fun _ => 0)).2 = u at he
  cases he with
  | refused hrefusal => cases hrefusal
  | registered _ _ hwait => cases hwait
  | @queued _ _ _ _ r₁ _ _ _ hm hq₁ =>
      refine ⟨r₁, hm.accounted (ha.accounted.register hnew _ _), ?_, hq₁, hm.spec, ?_,
        fun i hi => ?_, hm.quotas⟩
      · rw [hm.get, if_pos rfl]
      · have hentry : r₁.entry = ⟨r.spec.priority, s.index.seq + 1, newId⟩ := by
          rw [TaskRecord.entry, hm.spec, hm.seq, hm.taskId]
          rfl
        have hbefore : (s.register newId (rival r.spec) 0).readyQueue = [] := by
          change s.readyQueue = []
          rw [ha.readyQueue, if_neg hopen]
        have hperm := hm.queue
        rw [hbefore, if_pos hq₁, hentry] at hperm
        exact List.perm_singleton.mp hperm
      · rw [hm.get, if_neg hi]
        change (s.index.push _ _ _).get i = _
        rw [TaskIndex.get_push, if_neg hi]

structure Rivals (u : TaskScheduler) (newId id : TaskId) (r : TaskRecord) (seq : ℕ) :
    Prop where
  accounted : Accounted u
  idle : ∀ i t, u.index.get i = some t → t.state ≠ .running
  queue : u.readyQueue = [(⟨r.spec.priority, seq, newId⟩ : ReadyEntry),
    ⟨r.spec.priority, r.seq, id⟩].insertionSort ReadyEntry.before
  unlimited : ∀ i, i = newId ∨ i = id → ∃ t, u.index.get i = some t ∧
    u.quotaFor t.spec.dimensionId = .unlimited

theorem Alone.resume_rival (ha : Alone s id r) (hcan : r.state.canTransitionTo .queued = true)
    {u : TaskScheduler} {newId : TaskId} {r₁ : TaskRecord} (hne : id ≠ newId)
    (hu : Entered s u newId r r₁) :
    Rivals (u.resume id fun _ => 0).2 newId id r (s.index.seq + 1) := by
  have hrun : r.state ≠ .running := by
    rintro hr
    simp [hr, TaskState.canTransitionTo] at hcan
  have hfound : u.index.get id = some r := by
    rw [hu.frame id hne, ha.found]
  obtain ⟨hresume, hqueue⟩ := resume_queue hfound hcan fun _ => 0
  have he := resume_effect hu.accounted id fun _ => 0
  rw [hresume] at he
  generalize (u.resume id fun _ => 0).2 = m at he hqueue
  cases he with
  | refused hrefusal => cases hrefusal
  | @resumed _ _ _ r₀ r₂ hm _ hq₂ =>
      obtain rfl := Option.some.inj (hm.found.symm.trans hfound)
      have hid : m.index.get id = some r₂ := by
        rw [hm.get, if_pos rfl]
      have hother : ∀ i, i ≠ id → m.index.get i = u.index.get i := by
        intro i hi
        rw [hm.get, if_neg hi]
      have hquota : m.quotaFor r₀.spec.dimensionId = .unlimited := by
        rw [TaskScheduler.quotaFor, hm.quotas, hu.quotas]
        exact ha.quota
      refine ⟨hm.accounted hu.accounted, fun i t ht => ?_, ?_, fun i hi => ?_⟩
      · by_cases hi : i = id
        · rw [hi, hid] at ht
          cases ht
          simp [hq₂]
        rw [hother i hi] at ht
        by_cases hi' : i = newId
        · rw [hi', hu.found] at ht
          cases ht
          simp [hu.queued]
        · rw [hu.frame i hi'] at ht
          exact ha.not_running hrun i t ht
      · rw [hqueue, hu.queue]
        rfl
      · rcases hi with rfl | rfl
        · refine ⟨r₁, (hother i hne.symm).trans hu.found, ?_⟩
          rw [hu.spec]
          exact hquota
        · refine ⟨r₂, hid, ?_⟩
          rw [hm.spec]
          exact hquota

theorem Rivals.handedOut {u : TaskScheduler} {newId : TaskId} {seq : ℕ}
    (h : Rivals u newId id r seq) :
    (u.step (.nextReady "" fun _ => 0)).1.handedOut =
      some (if seq ≤ r.seq then newId else id) := by
  have hqueue := h.queue
  rw [List.insertionSort_cons, List.insertionSort_cons, List.insertionSort_nil,
    List.orderedInsert_nil, List.orderedInsert_cons] at hqueue
  have hbefore : ReadyEntry.before ⟨r.spec.priority, seq, newId⟩
      ⟨r.spec.priority, r.seq, id⟩ ↔ seq ≤ r.seq := by
    simp [ReadyEntry.before]
  have heligible : ∀ e : ReadyEntry, e.taskId = newId ∨ e.taskId = id →
      u.eligible e = true := by
    intro e he
    obtain ⟨t, ht, hquota⟩ := h.unlimited e.taskId he
    exact eligible_of_idle h.accounted h.idle ht hquota
  by_cases hle : seq ≤ r.seq
  · rw [if_pos (hbefore.mpr hle)] at hqueue
    rw [if_pos hle]
    exact nextReady_head h.accounted hqueue (heligible _ (.inl rfl)) "" fun _ => 0
  · rw [if_neg (fun hb => hle (hbefore.mp hb))] at hqueue
    rw [if_neg hle]
    exact nextReady_head h.accounted hqueue (heligible _ (.inr rfl)) "" fun _ => 0

/-- Of a new task and one that enters the queue after it, `next_ready` hands out
the new one if its sequence number is not greater. -/
theorem Alone.duel (ha : Alone s id r) (hcan : r.state.canTransitionTo .queued = true)
    (newId : TaskId) (hnew : s.index.get newId = none) :
    ((final TaskScheduler.step s [.submit newId (rival r.spec) fun _ => 0,
        .resume id fun _ => 0]).step (.nextReady "" fun _ => 0)).1.handedOut =
      some (if s.index.seq + 1 ≤ r.seq then newId else id) := by
  have hopen : r.state ≠ .queued := by
    rintro hr
    simp [hr, TaskState.canTransitionTo] at hcan
  have hne : id ≠ newId := by
    rintro rfl
    rw [ha.found] at hnew
    cases hnew
  obtain ⟨r₁, hentered⟩ := ha.submit_rival hopen hnew
  exact (ha.resume_rival hcan hne hentered).handedOut

/-- The calls that bring the task `id` and a new one into the ready queue. -/
def duelOps (s : TaskScheduler) (id : TaskId) (r : TaskRecord) (fresh : TaskId) : List Op :=
  .setQuota r.spec.dimensionId .unlimited ::
    ((s.index.insertionOrder.filter fun i => i ≠ id).map fun i => .cancel i fun _ => 0) ++
      parkOps id r.state ++
        [.submit fresh (rival r.spec) fun _ => 0, .resume id fun _ => 0]

theorem duelOps_handedOut (h : Accounted s) (hr : s.index.get id = some r)
    (hlive : r.state.isClosed = false) (hne : r.state ≠ .running) {fresh : TaskId}
    (hnew : s.index.get fresh = none) :
    ((final TaskScheduler.step s (duelOps s id r fresh)).step
        (.nextReady "" fun _ => 0)).1.handedOut =
      some (if s.index.seq + 1 ≤ r.seq then fresh else id) := by
  have hfresh : fresh ≠ id := by
    rintro rfl
    rw [hr] at hnew
    cases hnew
  have hout : fresh ∉ s.index.insertionOrder.filter fun i => i ≠ id := by
    intro hmem
    have := (h.index.mem_order fresh).mp (List.mem_of_mem_filter hmem)
    rw [hnew] at this
    cases this
  have hrest : ∀ i t, s.index.get i = some t → i ≠ id →
      i ∉ s.index.insertionOrder.filter (fun i => i ≠ id) → t.state.isClosed = true := by
    intro i t ht hi hnot
    refine absurd (List.mem_filter.mpr ⟨?_, by simpa using hi⟩) hnot
    rw [h.index.mem_order, ht]
    rfl
  obtain ⟨halone, hseq, hframe⟩ := alone_cancelAll
    (accounted_step (.setQuota r.spec.dimensionId .unlimited) h) hr
    ((s.quotaFor_setQuota _ _ _).trans (if_pos rfl)) hlive
    (s.index.insertionOrder.filter fun i => i ≠ id) (by simp) hrest
  obtain ⟨r', halone', hspec, hseqr, hcan, hseq', hframe'⟩ := halone.park hne
  have hduel := halone'.duel hcan fresh
    (by rw [hframe' fresh hfresh, hframe fresh hout]; exact hnew)
  rw [hseq', hseq, hspec, hseqr] at hduel
  rw [duelOps, List.cons_append, List.cons_append, final_cons, final_append, final_append]
  exact hduel

end Duel

/-! ## The exact condition -/

theorem Answer.handedOut_withoutSeq (a : Answer) : a.withoutSeq.handedOut = a.handedOut := by
  cases a with
  | handed task =>
      cases task with
      | none => rfl
      | some p => rfl
  | _ => rfl

section Exact

variable {json : RecordJson} {s r : TaskScheduler}

theorem forall_map_op (ops : List Op) : ∀ call ∈ ops.map Call.op, call.BringsClosed json := by
  intro call hcall
  obtain ⟨op, -, rfl⟩ := List.mem_map.mp hcall
  trivial

theorem RestoredFaithfully.handedOut (h : RestoredFaithfully json s r) (ops : List Op) (op : Op) :
    ((final TaskScheduler.step s ops).step op).1.handedOut =
      ((final TaskScheduler.step r ops).step op).1.handedOut := by
  have hans := h.answers ((ops ++ [op]).map Call.op) (forall_map_op _)
  rw [List.map_append, trace_append, trace_append, List.map_append, List.map_append,
    final_stepCall_op, final_stepCall_op] at hans
  have htail := (List.append_inj' hans rfl).2
  rw [List.map_singleton, trace_cons, trace_cons, trace_nil, trace_nil, List.map_singleton,
    List.map_singleton, List.singleton_inj, Prod.mk.injEq] at htail
  have hanswer := Reply.answer.inj htail.2
  rw [← Answer.handedOut_withoutSeq, hanswer, Answer.handedOut_withoutSeq]

theorem RestoredFaithfully.restorable (hf : RestoredFaithfully json s s.restored)
    (h : Accounted s) (hseq : s.index.Sequenced) : Restorable s := by
  have hidle : ∀ id r, s.index.get id = some r → r.state ≠ .running := by
    intro id r hr hrun
    -- a restored running task is not counted
    have hcount := hf.counted [] (forall_map_op []) r.spec.dimensionId
    rw [final_nil, h.index.runningFor_restored, TaskIndex.runningTasks,
      h.index.iterInOrder_restored] at hcount
    have hzero := List.countP_eq_zero.mp (Nat.le_zero.mp hcount) r
      ((TaskIndex.mem_iterInOrder h.index).mpr ⟨id, hr⟩)
    simp [hrun] at hzero
  refine ⟨fun id hid => ?_, h.runningFor_of_idle hidle, h.readyQueue_eq hseq, .inr ?_⟩
  · obtain ⟨r, hr, hrun⟩ := Option.map_eq_some_iff.mp hid
    exact hidle id r hr hrun
  · by_contra hnot
    rw [not_or] at hnot
    obtain ⟨hfree, hlive⟩ := hnot
    push Not at hlive hfree
    obtain ⟨id, r, hr, hopen, -⟩ := hlive
    obtain ⟨fresh, hfresh⟩ := hfree
    have hnew : s.index.get fresh = none := by
      simpa [TaskIndex.contains_eq_isSome] using hfresh
    have hold := duelOps_handedOut h hr hopen (hidle id r hr) hnew
    have hnew' := duelOps_handedOut (h.index.accounted_restored hidle)
      ((h.index.get_restored id).trans hr) hopen (hidle id r hr)
      ((h.index.get_restored fresh).trans hnew)
    have hops : duelOps s.restored id r fresh = duelOps s id r fresh := by
      rw [duelOps, duelOps, h.index.insertionOrder_restored]
    have hle := hseq.le hr
    have hpos := hseq.pos hr
    rw [if_neg (by omega)] at hold
    rw [hops, h.index.loaded.counter, if_pos (by omega), ← hf.handedOut, hold] at hnew'
    cases hnew'
    rw [hr] at hnew
    cases hnew

end Exact

/-- A scheduler restored from the snapshot of a reachable scheduler `s` behaves as `s` if `s`
is restorable, whatever has been restored into `s` before, and only if it is where nothing
has been. -/
theorem restore_faithful_iff (json : RecordJson) (dim : DimensionId)
    (policy : PreemptionPolicy) (leaseMs : UInt64) (calls : List Call) (text : String)
    (hsnapshot : (final (stepCall json) (TaskScheduler.new dim policy leaseMs) calls).snapshot
      json = .ok text)
    (hserde : json.RoundTrips
      (final (stepCall json) (TaskScheduler.new dim policy leaseMs) calls).index.iterInOrder) :
    let s := final (stepCall json) (TaskScheduler.new dim policy leaseMs) calls
    (s.freshLike.restore json text).1 = .ok () ∧
      (Restorable s → RestoredFaithfully json s (s.freshLike.restore json text).2) ∧
      ((∃ ops : List Op, calls = ops.map Call.op) →
        RestoredFaithfully json s (s.freshLike.restore json text).2 → Restorable s) := by
  intro s
  rw [restore_snapshot (hserde text hsnapshot)]
  refine ⟨rfl, fun hs => hs.faithful (wellFormed_final json TaskIndex.wellFormed_new calls), ?_⟩
  rintro ⟨ops, rfl⟩ hf
  have hrun : s = final TaskScheduler.step (TaskScheduler.new dim policy leaseMs) ops :=
    final_stepCall_op json _ ops
  obtain ⟨h, hseq⟩ := sequenced_final dim policy leaseMs ops
  rw [← hrun] at h hseq
  exact hf.restorable h hseq

theorem restorable_restored {s : TaskScheduler} (h : s.index.WellFormed)
    (hidle : ∀ r ∈ s.index.iterInOrder, r.state ≠ .running) : Restorable s.restored := by
  constructor
  · intro id hid
    obtain ⟨r, hr, hrun⟩ := Option.map_eq_some_iff.mp hid
    rw [h.get_restored] at hr
    exact hidle r ((TaskIndex.mem_iterInOrder h).mpr ⟨id, hr⟩) hrun
  · exact h.runningFor_restored
  · rw [h.loaded.queue, TaskIndex.queuedEntries, h.iterInOrder_restored]
  · exact .inl h.loaded.counter

def closedRun : List Op :=
  [.submit 1 (.new 7 "http.request" "first") fun _ => 10,
   .submit 2 (.new 7 "http.request" "second") fun _ => 20,
   .nextReady "worker-1" fun _ => 30,
   .complete 1 fun _ => 40,
   .cancel 2 fun _ => 50]

/-- Task 3 is submitted as well. -/
def mixedRun : List Op :=
  closedRun ++ [.submit 3 (.new 7 "http.request" "third") fun _ => 60]

def closedScheduler : TaskScheduler :=
  final TaskScheduler.step (TaskScheduler.new 1 .none 5000) closedRun

def mixedScheduler : TaskScheduler :=
  final TaskScheduler.step (TaskScheduler.new 1 .none 5000) mixedRun

theorem closedScheduler_restorable : Restorable closedScheduler := by
  obtain ⟨h, hseq⟩ := sequenced_final 1 .none 5000 closedRun
  have hclosed : ∀ r ∈ closedScheduler.index.iterInOrder, r.state.isClosed = true := by decide
  have hget (id : TaskId) (r : TaskRecord) (hr : closedScheduler.index.get id = some r) :
      r.state.isClosed = true :=
    hclosed r ((TaskIndex.mem_iterInOrder h.index).mpr ⟨id, hr⟩)
  have hidle (id : TaskId) (r : TaskRecord) (hr : closedScheduler.index.get id = some r) :
      r.state ≠ .running := by
    intro hrun
    have hstate := hget id r hr
    rw [hrun] at hstate
    cases hstate
  refine ⟨fun id hid => ?_, h.runningFor_of_idle hidle, h.readyQueue_eq hseq,
    .inr (.inr fun id r hr hopen => ?_)⟩
  · obtain ⟨r, hr, hrun⟩ := Option.map_eq_some_iff.mp hid
    exact hidle id r hr hrun
  · rw [hget id r hr] at hopen
    cases hopen

/-- Two closed tasks are restored, and so are these with a queued one after a restoration. -/
theorem restore_faithful_closed :
    RestoredFaithfully (jsonOf closedScheduler.index.iterInOrder) closedScheduler
        (closedScheduler.freshLike.restore (jsonOf closedScheduler.index.iterInOrder)
          (snapshotText closedScheduler.index.iterInOrder)).2 ∧
      RestoredFaithfully (jsonOf mixedScheduler.index.iterInOrder) mixedScheduler.restored
        (mixedScheduler.restored.freshLike.restore (jsonOf mixedScheduler.index.iterInOrder)
          (snapshotText mixedScheduler.index.iterInOrder)).2 := by
  constructor
  · have hrun : final (stepCall (jsonOf closedScheduler.index.iterInOrder))
        (TaskScheduler.new 1 .none 5000) (closedRun.map Call.op) = closedScheduler :=
      final_stepCall_op _ _ _
    have hiff := restore_faithful_iff (jsonOf closedScheduler.index.iterInOrder) 1 .none 5000
      (closedRun.map Call.op) (snapshotText closedScheduler.index.iterInOrder)
      (by rw [hrun]; rfl) (by rw [hrun]; exact roundTrips_jsonOf _)
    rw [hrun] at hiff
    exact hiff.2.1 closedScheduler_restorable
  · have hwf : mixedScheduler.index.WellFormed := (sequenced_final 1 .none 5000 mixedRun).1.index
    have hrun : final (stepCall (jsonOf mixedScheduler.index.iterInOrder))
        (TaskScheduler.new 1 .none 5000)
        [.restore (snapshotText mixedScheduler.index.iterInOrder)] = mixedScheduler.restored := by
      have hfresh : mixedScheduler.freshLike = TaskScheduler.new 1 .none 5000 := rfl
      have hrestore := restore_snapshot (fromStr_jsonOf mixedScheduler.index.iterInOrder)
      rw [hfresh] at hrestore
      rw [final_cons, stepCall, hrestore]
      rfl
    have hrecords := hwf.iterInOrder_restored
    have hiff := restore_faithful_iff (jsonOf mixedScheduler.index.iterInOrder) 1 .none 5000
      [.restore (snapshotText mixedScheduler.index.iterInOrder)]
      (snapshotText mixedScheduler.index.iterInOrder)
      (by rw [hrun, TaskScheduler.snapshot, hrecords]; rfl)
      (by rw [hrun, hrecords]; exact roundTrips_jsonOf _)
    rw [hrun] at hiff
    exact hiff.2.1 (restorable_restored hwf (by decide))

def runningScheduler : TaskScheduler :=
  final TaskScheduler.step (TaskScheduler.new 1 .none 5000) (sampleRun.take 4)

/-- The restored scheduler hands out task 2 at once. -/
theorem restore_forgets_running :
    ¬ RestoredFaithfully (jsonOf runningScheduler.index.iterInOrder) runningScheduler
      (runningScheduler.freshLike.restore (jsonOf runningScheduler.index.iterInOrder)
        (snapshotText runningScheduler.index.iterInOrder)).2 := by
  rw [restore_snapshot (fromStr_jsonOf _)]
  intro hf
  have hhand := hf.handedOut [] (.nextReady "worker-2" fun _ => 40)
  rw [final_nil, final_nil] at hhand
  have hold : (runningScheduler.step (.nextReady "worker-2" fun _ => 40)).1.handedOut = none := by
    decide
  have hnew : (runningScheduler.restored.step (.nextReady "worker-2" fun _ => 40)).1.handedOut =
      some 2 := by
    decide
  rw [hold, hnew] at hhand
  cases hhand

end Scheduler

end InfinityOS
