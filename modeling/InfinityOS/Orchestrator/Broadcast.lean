import InfinityOS.Orchestrator.Record
import InfinityOS.Transition.Reach

/-!
# Events at the subscribers

Any number of callers share an orchestrator. A call records its event in a locked
section and broadcasts it in a step of its own, so other calls can come between the two.
The channel is lossless: it is the log of the events sent, and a receiver reads it from
its own position on, one event at a time.
-/

namespace InfinityOS

namespace Orchestrator

open Transition

variable {ι κ : Type*}

/-- A receiver: its position in the log and the events it has read. -/
structure Receiver where
  next : ℕ
  received : List OrchestratorEvent

/-- The orchestrator, the event that each caller has recorded and not yet broadcast, and
the receivers. -/
structure Shared (ι κ : Type*) where
  orchestrator : LocalOrchestrator
  held : ι → Option OrchestratorEvent
  receivers : κ → Option Receiver

inductive SharedStep (ι κ : Type*) where
  | locked (caller : ι) (call : Call)
  | broadcast (caller : ι)
  | subscribe (subscriber : κ)
  | receive (subscriber : κ)

namespace Shared

def new (dimensionId : DimensionId) : Shared ι κ :=
  { orchestrator := .new dimensionId, held := fun _ => none, receivers := fun _ => none }

def setReceiver [DecidableEq κ] (s : Shared ι κ) (k : κ) (r : Receiver) : Shared ι κ :=
  { s with receivers := Function.update s.receivers k (some r) }

def step [DecidableEq ι] [DecidableEq κ] (s : Shared ι κ) : SharedStep ι κ → Option (Shared ι κ)
  | .locked i call =>
      match s.held i with
      | some _ => none
      | none =>
          match s.orchestrator.locked call with
          -- the call returns its error
          | .error _ => some s
          | .ok (event, orchestrator) =>
              some { s with orchestrator, held := Function.update s.held i (some event) }
  | .broadcast i =>
      match s.held i with
      | none => none
      | some event =>
          some { s with
            orchestrator := s.orchestrator.broadcast event
            held := Function.update s.held i none }
  | .subscribe k =>
      some (s.setReceiver k { next := s.orchestrator.sent.length, received := [] })
  | .receive k =>
      match s.receivers k with
      | none => none
      | some r =>
          match s.orchestrator.sent[r.next]? with
          | none => none
          | some event =>
              some (s.setReceiver k
                { next := r.next + 1, received := r.received ++ [event] })

end Shared

def eventsOf (id : TaskId) (events : List OrchestratorEvent) : List OrchestratorEvent :=
  events.filter fun e => e.taskId = id

def Shared.missed (s : Shared ι κ) (r : Receiver) (id : TaskId) : List OrchestratorEvent :=
  eventsOf id (s.orchestrator.sent.take (r.next - r.received.length))

/-- The receiver has read everything that was sent, and no event of the task is still to be
broadcast. -/
def Shared.CaughtUp (s : Shared ι κ) (r : Receiver) (id : TaskId) : Prop :=
  r.next = s.orchestrator.sent.length ∧ ∀ i e, s.held i = some e → e.taskId ≠ id

/-- Every receiver has read the events of every task in the order of the task's history,
none left out in between, and nothing after a terminal event. One that is caught up has read
the whole history from its subscription on. -/
def ReceivedInOrder (s : Shared ι κ) : Prop :=
  ∀ k r, s.receivers k = some r → ∀ id,
    eventsOf id r.received <:+: s.orchestrator.historyOf id ∧
    (∀ l e l', eventsOf id r.received = l ++ e :: l' → e.isTerminal = true → l' = []) ∧
    (s.CaughtUp r id → s.missed r id ++ eventsOf id r.received = s.orchestrator.historyOf id)

/-- The locked section of a call is entered while no caller holds back an event of its
task, and a submission is of a task that is not known. -/
def Serialised (s : Shared ι κ) : SharedStep ι κ → Prop
  | .locked _ call =>
      (∀ j e, s.held j = some e → e.taskId ≠ call.taskId) ∧
      ∀ id dim, call = .submit id dim → s.orchestrator.historyOf id = []
  | _ => True

/-! ## The log and the histories -/

/-- The log holds the histories, up to the event that one caller for each task still
holds back. -/
structure Announced (s : Shared ι κ) : Prop where
  wellFormed : WellFormed s.orchestrator
  single : ∀ i j e f, s.held i = some e → s.held j = some f → e.taskId = f.taskId → i = j
  complete : ∀ id, (∀ i e, s.held i = some e → e.taskId ≠ id) →
    eventsOf id s.orchestrator.sent = s.orchestrator.historyOf id
  withheld : ∀ i e, s.held i = some e →
    eventsOf e.taskId s.orchestrator.sent ++ [e] = s.orchestrator.historyOf e.taskId

/-- Every receiver has read the log from some position on up to its own. -/
def Reads (s : Shared ι κ) : Prop :=
  ∀ k r, s.receivers k = some r → ∃ skipped rest,
    s.orchestrator.sent = skipped ++ r.received ++ rest ∧
      (skipped ++ r.received).length = r.next

theorem eventsOf_append (id : TaskId) (l l' : List OrchestratorEvent) :
    eventsOf id (l ++ l') = eventsOf id l ++ eventsOf id l' :=
  List.filter_append l l'

theorem eventsOf_singleton (id : TaskId) (e : OrchestratorEvent) :
    eventsOf id [e] = if e.taskId = id then [e] else [] := by
  rw [eventsOf, List.filter_singleton]
  simp

variable {s s' : Shared ι κ}

theorem held_update [DecidableEq ι] {held : ι → Option OrchestratorEvent} {i j : ι}
    {event e : OrchestratorEvent} (h : Function.update held i (some event) j = some e) :
    (j = i ∧ e = event) ∨ (j ≠ i ∧ held j = some e) := by
  by_cases hji : j = i
  · subst hji
    rw [Function.update_self] at h
    exact .inl ⟨rfl, (Option.some.inj h).symm⟩
  · rw [Function.update_of_ne hji] at h
    exact .inr ⟨hji, h⟩

theorem Announced.locked [DecidableEq ι] (h : Announced s) {i : ι} {call : Call}
    {event : OrchestratorEvent} {o : LocalOrchestrator} (hidle : s.held i = none)
    (hlocked : s.orchestrator.locked call = .ok (event, o))
    (hserial : Serialised s (.locked i call)) :
    Announced { s with orchestrator := o, held := Function.update s.held i (some event) } := by
  have hr := locked_recorded hlocked
  have htask : event.taskId = call.taskId := hr.taskId_eq
  have hnone : ∀ j e, s.held j = some e → e.taskId ≠ event.taskId := by
    rw [htask]
    exact hserial.1
  constructor
  · exact hr.wellFormed h.wellFormed
  · intro j k e f hj hk heq
    rcases held_update hj with ⟨rfl, rfl⟩ | ⟨-, hj'⟩
    · rcases held_update hk with ⟨rfl, -⟩ | ⟨-, hk'⟩
      · rfl
      · exact absurd heq.symm (hnone k f hk')
    · rcases held_update hk with ⟨-, rfl⟩ | ⟨-, hk'⟩
      · exact absurd heq (hnone j e hj')
      · exact h.single j k e f hj' hk' heq
  · intro id hid
    have hne : id ≠ event.taskId := by
      intro heq
      exact hid i event (Function.update_self ..) heq.symm
    change eventsOf id o.sent = o.historyOf id
    rw [hr.sent, hr.historyOf_of_ne hne]
    apply h.complete id
    intro j e hj
    have hji : j ≠ i := by
      intro hji
      rw [hji, hidle] at hj
      cases hj
    exact hid j e ((Function.update_of_ne hji _ _).trans hj)
  · intro j e hj
    change eventsOf e.taskId o.sent ++ [e] = o.historyOf e.taskId
    rw [hr.sent]
    rcases held_update hj with ⟨-, rfl⟩ | ⟨-, hj⟩
    · rw [hr.historyOf_self hserial.2, h.complete _ hnone]
    · rw [hr.historyOf_of_ne (hnone j e hj)]
      exact h.withheld j e hj

theorem Announced.broadcast [DecidableEq ι] (h : Announced s) {i : ι} {event : OrchestratorEvent}
    (hheld : s.held i = some event) :
    Announced { s with
      orchestrator := s.orchestrator.broadcast event, held := Function.update s.held i none } := by
  have hupdate : ∀ j e, Function.update s.held i none j = some e →
      e.taskId ≠ event.taskId ∧ s.held j = some e := by
    intro j e hj
    by_cases hji : j = i
    · subst hji
      rw [Function.update_self] at hj
      cases hj
    · rw [Function.update_of_ne hji] at hj
      exact ⟨fun heq => hji (h.single j i e event hj hheld heq), hj⟩
  have hsent : ∀ id, eventsOf id (s.orchestrator.broadcast event).sent =
      eventsOf id s.orchestrator.sent ++ if event.taskId = id then [event] else [] := by
    intro id
    rw [LocalOrchestrator.broadcast, eventsOf_append, eventsOf_singleton]
  constructor
  · exact h.wellFormed
  · intro j k e f hj hk heq
    exact h.single j k e f (hupdate j e hj).2 (hupdate k f hk).2 heq
  · intro id hid
    change eventsOf id (s.orchestrator.broadcast event).sent = s.orchestrator.historyOf id
    rw [hsent]
    by_cases hid' : event.taskId = id
    · subst hid'
      rw [if_pos rfl]
      exact h.withheld i event hheld
    · rw [if_neg hid', List.append_nil]
      apply h.complete id
      intro j e hj
      by_cases hji : j = i
      · rw [hji, hheld] at hj
        cases hj
        exact hid'
      · exact hid j e ((Function.update_of_ne hji _ _).trans hj)
  · intro j e hj
    obtain ⟨hne, hj'⟩ := hupdate j e hj
    change eventsOf e.taskId (s.orchestrator.broadcast event).sent ++ [e] =
      s.orchestrator.historyOf e.taskId
    rw [hsent, if_neg (Ne.symm hne), List.append_nil]
    exact h.withheld j e hj'

theorem Announced.isPrefix (h : Announced s) (id : TaskId) :
    eventsOf id s.orchestrator.sent <+: s.orchestrator.historyOf id := by
  by_cases hheld : ∃ i e, s.held i = some e ∧ e.taskId = id
  · obtain ⟨i, e, hi, rfl⟩ := hheld
    exact ⟨[e], h.withheld i e hi⟩
  · rw [h.complete id fun i e hi hid => hheld ⟨i, e, hi, hid⟩]

/-! ## The receivers -/

theorem Reads.broadcast (h : Reads s) (event : OrchestratorEvent)
    (held : ι → Option OrchestratorEvent) :
    Reads { s with orchestrator := s.orchestrator.broadcast event, held } := by
  intro k r hr
  obtain ⟨skipped, rest, hsent, hnext⟩ := h k r hr
  refine ⟨skipped, rest ++ [event], ?_, hnext⟩
  change s.orchestrator.sent ++ [event] = _
  rw [hsent, List.append_assoc]

theorem Reads.setReceiver [DecidableEq κ] (h : Reads s) (k : κ) {r : Receiver}
    (hr : ∃ skipped rest, s.orchestrator.sent = skipped ++ r.received ++ rest ∧
      (skipped ++ r.received).length = r.next) : Reads (s.setReceiver k r) := by
  intro j r' hr'
  change Function.update s.receivers k (some r) j = some r' at hr'
  by_cases hj : j = k
  · subst hj
    rw [Function.update_self] at hr'
    cases hr'
    exact hr
  · rw [Function.update_of_ne hj] at hr'
    exact h j r' hr'

theorem Reads.next (h : Reads s) {k : κ} {r : Receiver} (hr : s.receivers k = some r)
    {event : OrchestratorEvent} (hevent : s.orchestrator.sent[r.next]? = some event) :
    ∃ skipped rest, s.orchestrator.sent = skipped ++ (r.received ++ [event]) ++ rest ∧
      (skipped ++ (r.received ++ [event])).length = r.next + 1 := by
  obtain ⟨skipped, rest, hsent, hnext⟩ := h k r hr
  rw [hsent, ← hnext, List.getElem?_append_right le_rfl, Nat.sub_self] at hevent
  cases rest with
  | nil => cases hevent
  | cons e rest =>
      cases hevent
      refine ⟨skipped, rest, ?_, ?_⟩
      · rw [hsent]
        simp
      · rw [← List.append_assoc, List.length_append, hnext]
        rfl

/-- A receiver that has read everything has read the events since its subscription. -/
theorem Announced.read_all (h : Announced s) {r : Receiver}
    (hreads : ∃ skipped rest, s.orchestrator.sent = skipped ++ r.received ++ rest ∧
      (skipped ++ r.received).length = r.next) {id : TaskId} (hcaught : s.CaughtUp r id) :
    s.missed r id ++ eventsOf id r.received = s.orchestrator.historyOf id := by
  obtain ⟨skipped, rest, hsent, hnext⟩ := hreads
  have hrest : rest = [] := by
    have hlength := congrArg List.length hsent
    rw [← hcaught.1, List.length_append, hnext] at hlength
    exact List.eq_nil_of_length_eq_zero (by omega)
  have hstart : r.next - r.received.length = skipped.length := by
    rw [← hnext, List.length_append]
    omega
  rw [← h.complete id hcaught.2, Shared.missed, hstart, hsent, hrest, List.append_nil,
    List.take_left, eventsOf_append]

theorem Announced.receivedInOrder (h : Announced s) (hreads : Reads s) : ReceivedInOrder s := by
  intro k r hr id
  have hpart : eventsOf id r.received <:+: s.orchestrator.historyOf id := by
    obtain ⟨skipped, rest, hsent, -⟩ := hreads k r hr
    have hlog : eventsOf id r.received <:+: eventsOf id s.orchestrator.sent :=
      List.IsInfix.filter _ ⟨skipped, rest, hsent.symm⟩
    exact hlog.trans (h.isPrefix id).isInfix
  refine ⟨hpart, fun l e l' heq he => ?_, h.read_all (hreads k r hr)⟩
  obtain ⟨a, b, hhistory⟩ := hpart
  have hsplit : s.orchestrator.historyOf id = (a ++ l) ++ e :: (l' ++ b) := by
    rw [← hhistory, heq]
    simp
  rcases h.wellFormed.historyOf_form id with hnil | ⟨terminal, hform⟩
  · rw [hnil] at hsplit
    simp at hsplit
  · exact (List.append_eq_nil_iff.mp (hform.nil_of_isTerminal hsplit he)).1

theorem announced_step [DecidableEq ι] [DecidableEq κ] {a : SharedStep ι κ}
    (h : Announced s ∧ Reads s) (hserial : Serialised s a) (hstep : s.step a = some s') :
    Announced s' ∧ Reads s' := by
  obtain ⟨hannounced, hreads⟩ := h
  cases a with
  | locked i call =>
      simp only [Shared.step] at hstep
      split at hstep
      · cases hstep
      · next hidle =>
          split at hstep
          · cases hstep
            exact ⟨hannounced, hreads⟩
          · next event o hlocked =>
              cases hstep
              refine ⟨hannounced.locked hidle hlocked hserial, fun k r hr => ?_⟩
              obtain ⟨skipped, rest, hsent, hnext⟩ := hreads k r hr
              exact ⟨skipped, rest, (locked_recorded hlocked).sent.trans hsent, hnext⟩
  | broadcast i =>
      simp only [Shared.step] at hstep
      split at hstep
      · cases hstep
      · next event hheld =>
          cases hstep
          exact ⟨hannounced.broadcast hheld, hreads.broadcast event _⟩
  | subscribe k =>
      cases hstep
      exact ⟨⟨hannounced.wellFormed, hannounced.single, hannounced.complete,
        hannounced.withheld⟩,
        hreads.setReceiver k ⟨s.orchestrator.sent, [], by simp, by simp⟩⟩
  | receive k =>
      simp only [Shared.step] at hstep
      split at hstep
      · cases hstep
      · next r hr =>
          split at hstep
          · cases hstep
          · next event hevent =>
              cases hstep
              exact ⟨⟨hannounced.wellFormed, hannounced.single, hannounced.complete,
                hannounced.withheld⟩, hreads.setReceiver k (hreads.next hr hevent)⟩

theorem announced_new (dim : DimensionId) :
    Announced (.new dim : Shared ι κ) ∧ Reads (.new dim : Shared ι κ) := by
  refine ⟨⟨wellFormed_new dim, ?_, ?_, ?_⟩, ?_⟩
  · intro i j e f hi
    cases hi
  · intro id _
    simp [eventsOf, Shared.new, LocalOrchestrator.new, LocalOrchestrator.historyOf]
  · intro i e hi
    cases hi
  · intro k r hr
    cases hr

/-- In every interleaving of callers and receivers in which the calls on a task are
serialised up to their broadcasts and no task is submitted twice, every receiver reads
the events of a task in the order of its history, all from its subscription on, and nothing
after its terminal event. -/
theorem subscribers_in_order [DecidableEq ι] [DecidableEq κ] (dim : DimensionId)
    (h : Reach (fun s a t => Shared.step s a = some t) Serialised (.new dim : Shared ι κ) s) :
    ReceivedInOrder s := by
  obtain ⟨hannounced, hreads⟩ := h.invariant (fun s => Announced s ∧ Reads s)
    (announced_new dim) fun _ _ _ h hserial hstep => announced_step h hserial hstep
  exact hannounced.receivedInOrder hreads

/-- Two callers and a subscriber. Calls on different tasks overlap. -/
def serialRun : List (SharedStep Bool Unit) :=
  [.subscribe (), .locked false (.submit 1 7), .locked true (.submit 2 7),
   .broadcast true, .broadcast false, .locked true (.progress 1 50 "half"),
   .locked false (.cancel 2), .broadcast false, .receive (), .broadcast true,
   .locked false (.complete 1), .broadcast false,
   .receive (), .receive (), .receive (), .receive ()]

/-- The subscriber has read both histories. -/
theorem subscribers_in_order_serial :
    ∃ r, (follow Shared.step (.new 7 : Shared Bool Unit) serialRun).receivers () = some r ∧
      eventsOf 1 r.received = [.submitted 1, .progress 1 50 "half", .completed 1] ∧
      eventsOf 2 r.received = [.submitted 2, .cancelled 2] := by
  have horder : ReceivedInOrder (follow Shared.step (.new 7 : Shared Bool Unit) serialRun) := by
    apply subscribers_in_order 7
    apply reach_follow_of_admitted .refl
    have apart {s : Shared Bool Unit} {id : TaskId}
        (h : ∀ j, (s.held j).all fun e => decide (e.taskId ≠ id)) :
        ∀ j e, s.held j = some e → e.taskId ≠ id := by
      intro j e hj
      have hall := h j
      rw [hj, Option.all_some] at hall
      exact of_decide_eq_true hall
    refine ⟨trivial, ⟨apart (by decide +kernel), ?_⟩, ⟨apart (by decide +kernel), ?_⟩, trivial,
      trivial, ⟨apart (by decide +kernel), ?_⟩, ⟨apart (by decide +kernel), ?_⟩, trivial, trivial,
      trivial, ⟨apart (by decide +kernel), ?_⟩, trivial, trivial, trivial, trivial, trivial,
      trivial⟩
    · intro id dim hcall
      cases hcall
      decide +kernel
    · intro id dim hcall
      cases hcall
      decide +kernel
    · intro id dim hcall
      cases hcall
    · intro id dim hcall
      cases hcall
    · intro id dim hcall
      cases hcall
  have hposition : ((follow Shared.step (.new 7 : Shared Bool Unit) serialRun).receivers ()).map
      (fun r => (r.next, r.received.length)) = some (5, 5) := by
    decide +kernel
  obtain ⟨r, hr, hread⟩ := Option.map_eq_some_iff.mp hposition
  obtain ⟨hnext, hlength⟩ := Prod.mk.inj hread
  have hall (id : TaskId) : eventsOf id r.received =
      (follow Shared.step (.new 7 : Shared Bool Unit) serialRun).orchestrator.historyOf id := by
    have hcaught : (follow Shared.step (.new 7 : Shared Bool Unit) serialRun).CaughtUp r id := by
      refine ⟨hnext.trans (by decide +kernel), fun i e hi => ?_⟩
      have hidle : ∀ i, (follow Shared.step (.new 7 : Shared Bool Unit) serialRun).held i =
          none := by
        decide +kernel
      rw [hidle i] at hi
      cases hi
    have hread := (horder () r hr id).2.2 hcaught
    rw [Shared.missed, hnext, hlength] at hread
    exact hread
  exact ⟨r, hr, (hall 1).trans (by decide +kernel), (hall 2).trans (by decide +kernel)⟩

/-- A caller has recorded a progress event when another one completes the task and
broadcasts first. -/
def overtakenRun : List (SharedStep Bool Unit) :=
  [.subscribe (), .locked false (.submit 1 7), .broadcast false,
   .locked false (.progress 1 50 "half"), .locked true (.complete 1),
   .broadcast true, .broadcast false,
   .receive (), .receive (), .receive ()]

/-- The subscriber reads a progress event after the end of the task. -/
theorem progress_after_completion :
    ∃ s : Shared Bool Unit,
      Reach (fun s a t => Shared.step s a = some t) (fun _ _ => True) (.new 7) s ∧
        ¬ ReceivedInOrder s := by
  refine ⟨follow Shared.step (.new 7) overtakenRun, reach_follow .refl _, fun h => ?_⟩
  have hreceived : ((follow Shared.step (.new 7 : Shared Bool Unit) overtakenRun).receivers
      ()).map Receiver.received =
        some [.submitted 1, .completed 1, .progress 1 50 "half"] := by
    decide +kernel
  obtain ⟨r, hr, heq⟩ := Option.map_eq_some_iff.mp hreceived
  have hafter := (h () r hr 1).2.1 [.submitted 1] (.completed 1) [.progress 1 50 "half"]
    (by rw [heq]; rfl) rfl
  cases hafter

end Orchestrator

end InfinityOS
