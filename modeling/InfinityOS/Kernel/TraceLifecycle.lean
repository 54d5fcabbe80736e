import InfinityOS.Kernel.Trace

/-!
# The span collector from its start on

`ify_trace_init` and `ify_trace_shutdown` around the calls on spans. A shutdown releases the
ring and leaves the two counters, which `ify_trace_pending` reads without asking whether
there is a ring: of the spans unread at a shutdown it goes on telling until the next init.
-/

namespace InfinityOS

namespace Kernel

open Transition

/-- `ify_trace_shutdown`. -/
def TraceState.traceShutdown (s : TraceState) : TraceState :=
  if !s.initialized then s
  else { s with ring := [], cap := 0, initialized := false, emitFn := false }

/-- A call of the trace interface; an init comes with the answer of `calloc`. -/
inductive TraceLifeCall where
  | init (capacity : BitVec 32) (allocated : Bool)
  | shutdown
  | span (call : TraceCall)

inductive TraceLifeAnswer where
  | initialised (rc : StatusCode)
  | done
  | span (answer : TraceAnswer)

def TraceState.lifeStep (s : TraceState) : TraceLifeCall → TraceLifeAnswer × TraceState
  | .init capacity allocated =>
      let r := s.traceInit capacity allocated
      (.initialised r.1, r.2)
  | .shutdown => (.done, s.traceShutdown)
  | .span call =>
      let r := s.step call
      (.span r.1, r.2)

/-- A read with room for all pending spans returns as many as are pending. -/
def PendingExact (s : TraceState) : Prop :=
  ∀ max, s.tracePending ≤ max →
    (s.traceRead true max).1.1 = s.tracePending ∧
      (s.traceRead true max).1.2.length = s.tracePending.toNat

/-- No span is unread when the collector is shut down. -/
def ShutsDownRead (s : TraceState) : TraceLifeCall → Prop
  | .shutdown => s.initialized = true → s.writeIdx = s.readIdx
  | _ => True

/-! ## The counters -/

/-- The distance of the counters is a number of spans: no more than the ring has slots, and
one of 32 bits when there is no ring. -/
structure Counted (s : TraceState) : Prop where
  le_cap : s.initialized = true → (s.writeIdx - s.readIdx).toNat ≤ s.cap.toNat
  lt_word : (s.writeIdx - s.readIdx).toNat < 2 ^ 32

namespace Counted

variable {s : TraceState}

theorem start : Counted .start := by
  constructor
  · intro h
    cases h
  · decide

/-- Only the counters, the capacity and the flag matter. -/
theorem congr (h : Counted s) {s' : TraceState} (hwrite : s'.writeIdx = s.writeIdx)
    (hread : s'.readIdx = s.readIdx) (hcap : s'.cap = s.cap)
    (hinit : s'.initialized = s.initialized) : Counted s' := by
  obtain ⟨hle, hlt⟩ := h
  constructor
  · rwa [hinit, hwrite, hread, hcap]
  · rwa [hwrite, hread]

theorem of_le (hle : (s.writeIdx - s.readIdx).toNat ≤ s.cap.toNat) : Counted s :=
  ⟨fun _ => hle, hle.trans_lt s.cap.isLt⟩

theorem pending_eq (h : Counted s) :
    s.tracePending.toNat = (s.writeIdx - s.readIdx).toNat := by
  rw [TraceState.tracePending, BitVec.toNat_setWidth, Nat.mod_eq_of_lt h.lt_word]

end Counted

theorem length_readLoop (n : ℕ) (s : TraceState) : (s.readLoop n).1.length = n := by
  induction n generalizing s with
  | zero => rfl
  | succ n ih => rw [TraceState.readLoop, List.length_cons, ih]

/-! ## One call -/

section Call

variable {s : TraceState}

/-- The state with the pending count right: a ring, or nothing between the counters. -/
def RingOrEmpty (s : TraceState) : Prop :=
  s.initialized = true ∨ s.writeIdx = s.readIdx

theorem pendingExact_iff (h : Counted s) : PendingExact s ↔ RingOrEmpty s := by
  unfold PendingExact RingOrEmpty
  cases hinit : s.initialized with
  | false =>
      have hread : ∀ max, s.traceRead true max = ((0, []), s) := by
        intro max
        unfold TraceState.traceRead
        rw [hinit]
        split <;> rfl
      simp only [hread, Bool.false_eq_true, false_or]
      constructor
      · intro hexact
        have hzero := (hexact s.tracePending (BitVec.le_refl _)).1
        have hdist := h.pending_eq
        rw [← hzero] at hdist
        have hsub : s.writeIdx - s.readIdx = 0 := BitVec.eq_of_toNat_eq hdist.symm
        exact sub_eq_zero.mp hsub
      · intro heq max _
        have hzero : s.tracePending = 0 := by
          rw [TraceState.tracePending, heq, sub_self]
          rfl
        rw [hzero]
        exact ⟨rfl, rfl⟩
  | true =>
      refine iff_of_true (fun max hmax => ?_) (.inl rfl)
      by_cases hzero : max = 0
      · have hpending : s.tracePending = 0 := by
          rw [hzero] at hmax
          exact BitVec.eq_of_toNat_eq (Nat.le_zero.mp hmax)
        have hread : s.traceRead true max = ((0, []), s) := by
          unfold TraceState.traceRead
          rw [hzero]
          rfl
        rw [hread, hpending]
        exact ⟨rfl, rfl⟩
      · have hcount : (if s.tracePending < max then s.tracePending else max) =
            s.tracePending := by
          split
          · rfl
          · next hnot => exact BitVec.le_antisymm (BitVec.not_lt.mp hnot) hmax
        have hguard : ¬ ((!true || decide (max = 0)) = true) := by
          rw [decide_eq_false hzero]
          exact Bool.false_ne_true
        unfold TraceState.traceRead
        rw [if_neg hguard, hinit]
        dsimp only
        rw [hcount]
        exact ⟨rfl, length_readLoop _ _⟩

theorem counted_writeSpan (h : Counted s) (hinit : s.initialized = true) (span : Span) :
    Counted (s.writeSpan span) := by
  have hle := h.le_cap hinit
  have hcap := s.cap.isLt
  have hwide : (s.cap.setWidth 64).toNat = s.cap.toNat := by
    rw [BitVec.toNat_setWidth]
    exact Nat.mod_eq_of_lt (by omega)
  apply Counted.of_le
  unfold TraceState.writeSpan
  dsimp only
  split
  · have hsub : s.writeIdx + 1 - (s.writeIdx + 1 - s.cap.setWidth 64) = s.cap.setWidth 64 :=
      sub_sub_cancel _ _
    dsimp only
    rw [hsub, hwide]
  · next hnot =>
      rw [gt_iff_lt, BitVec.not_lt, BitVec.le_def, hwide] at hnot
      exact hnot

/-- A call on spans keeps the flag, and the counters where there is no ring. -/
structure SpanFrame (s s' : TraceState) : Prop where
  counted : Counted s'
  initialized : s'.initialized = s.initialized
  idle : s.initialized = false → s'.writeIdx = s.writeIdx ∧ s'.readIdx = s.readIdx

theorem SpanFrame.refl (h : Counted s) : SpanFrame s s :=
  ⟨h, rfl, fun _ => ⟨rfl, rfl⟩⟩

theorem spanFrame_traceBegin (h : Counted s) (parentSpanId dimensionId : Word)
    (taskId : KernelTaskId) (op : Option (List UInt8)) (now : Word) :
    SpanFrame s (s.traceBegin parentSpanId dimensionId taskId op now).2 := by
  unfold TraceState.traceBegin
  dsimp only
  split
  · exact ⟨h.congr rfl rfl rfl rfl, rfl, fun _ => ⟨rfl, rfl⟩⟩
  · exact ⟨h.congr rfl rfl rfl rfl, rfl, fun _ => ⟨rfl, rfl⟩⟩

theorem spanFrame_traceEnd (h : Counted s) (spanId allocBytes freeBytes now : Word) :
    SpanFrame s (s.traceEnd spanId allocBytes freeBytes now).2 := by
  unfold TraceState.traceEnd
  split
  · exact .refl h
  · cases hinit : s.initialized with
    | false => exact .refl h
    | true =>
        rw [if_neg (show ¬ (!true) = true from Bool.false_ne_true)]
        dsimp only
        split
        · exact .refl h
        · have hwrite := counted_writeSpan h hinit
            ((s.inflight.getD (inflightSlot spanId) .zero).partialSpan.ended allocBytes
              freeBytes now)
          obtain ⟨ring, writeIdx, readIdx, hframe⟩ := writeSpan_frame s
            ((s.inflight.getD (inflightSlot spanId) .zero).partialSpan.ended allocBytes
              freeBytes now)
          refine ⟨hwrite.congr rfl rfl rfl rfl, ?_, ?_⟩
          · rw [hframe]
          · intro hfalse
            rw [hinit] at hfalse
            cases hfalse

theorem spanFrame_traceRead (h : Counted s) (hasOut : Bool) (max : BitVec 32) :
    SpanFrame s (s.traceRead hasOut max).2 := by
  unfold TraceState.traceRead
  split
  · exact .refl h
  · cases hinit : s.initialized with
    | false => exact .refl h
    | true =>
        rw [if_neg (show ¬ (!true) = true from Bool.false_ne_true)]
        dsimp only
        rw [readLoop_snd]
        refine ⟨?_, rfl, fun hfalse => ?_⟩
        · apply Counted.of_le
          have hle := h.le_cap hinit
          have hpending := h.pending_eq
          have hcount : (if s.tracePending < max then s.tracePending else max).toNat ≤
              s.tracePending.toNat := by
            split
            · exact le_refl _
            · next hnot => exact BitVec.not_lt.mp hnot
          generalize (if s.tracePending < max then s.tracePending else max) = count at hcount
          have hdist : (s.writeIdx - (s.readIdx + .ofNat 64 count.toNat)).toNat =
              (s.writeIdx - s.readIdx).toNat - count.toNat := by
            rw [← sub_sub]
            generalize s.writeIdx - s.readIdx = between at hpending ⊢
            rw [BitVec.toNat_sub_of_le]
            · rw [BitVec.toNat_ofNat, Nat.mod_eq_of_lt (by omega)]
            · rw [BitVec.le_def, BitVec.toNat_ofNat, Nat.mod_eq_of_lt (by omega)]
              omega
          dsimp only
          rw [hdist]
          exact (Nat.sub_le _ _).trans hle
        · rw [hinit] at hfalse
          cases hfalse

theorem spanFrame_step (h : Counted s) (call : TraceCall) : SpanFrame s (s.step call).2 := by
  cases call with
  | setEmit fn => exact ⟨h.congr rfl rfl rfl rfl, rfl, fun _ => ⟨rfl, rfl⟩⟩
  | begin parentSpanId dimensionId taskId op now => exact spanFrame_traceBegin h _ _ _ _ _
  | finish spanId allocBytes freeBytes now => exact spanFrame_traceEnd h _ _ _ _
  | read hasOut max => exact spanFrame_traceRead h _ _
  | pending => exact .refl h

theorem counted_step (h : Counted s) (call : TraceLifeCall) :
    Counted (s.lifeStep call).2 := by
  cases call with
  | init capacity allocated =>
      unfold TraceState.lifeStep TraceState.traceInit
      dsimp only
      split_ifs
      · exact h
      · exact h
      · exact h
      · apply Counted.of_le
        dsimp only
        rw [sub_self]
        exact Nat.zero_le _
  | shutdown =>
      unfold TraceState.lifeStep TraceState.traceShutdown
      dsimp only
      split
      · exact h
      · refine ⟨fun hfalse => ?_, h.lt_word⟩
        cases hfalse
  | span call => exact (spanFrame_step h call).counted

theorem ringOrEmpty_step (h : Counted s ∧ RingOrEmpty s) (call : TraceLifeCall) :
    Counted (s.lifeStep call).2 ∧ RingOrEmpty (s.lifeStep call).2 ↔ ShutsDownRead s call := by
  obtain ⟨hcounted, hring⟩ := h
  rw [and_iff_right (counted_step hcounted call)]
  cases call with
  | init capacity allocated =>
      refine iff_of_true ?_ trivial
      unfold TraceState.lifeStep TraceState.traceInit
      dsimp only
      split_ifs
      · exact hring
      · exact hring
      · exact hring
      · exact .inl rfl
  | shutdown =>
      unfold TraceState.lifeStep TraceState.traceShutdown ShutsDownRead
      cases hinit : s.initialized with
      | false =>
          refine iff_of_true hring fun hfalse => ?_
          cases hfalse
      | true =>
          constructor
          · rintro (hfalse | heq) _
            · cases hfalse
            · exact heq
          · intro hread
            exact .inr (hread rfl)
  | span call =>
      refine iff_of_true ?_ trivial
      obtain ⟨-, hinit', hidle⟩ := spanFrame_step hcounted call
      cases hinit : s.initialized with
      | true => exact .inl (hinit'.trans hinit)
      | false =>
          obtain ⟨hwrite, hreadIdx⟩ := hidle hinit
          rcases hring with htrue | heq
          · rw [hinit] at htrue
            cases htrue
          · right
            exact hwrite.trans (heq.trans hreadIdx.symm)

end Call

/-- In every state of a run the pending count is what a read returns exactly if every
shutdown of the run happens with nothing unread. -/
theorem pendingExact_reached_iff (calls : List TraceLifeCall) :
    (∀ made, made <+: calls → PendingExact (final TraceState.lifeStep .start made)) ↔
      Along ShutsDownRead TraceState.lifeStep .start calls := by
  have hcounted : ∀ made, Counted (final TraceState.lifeStep .start made) := fun made =>
    invariant_final_of_forall Counted (fun _ call h => counted_step h call) made .start
  rw [← forall_reached_iff_along (fun s => Counted s ∧ RingOrEmpty s)
    (fun s call h => ringOrEmpty_step h call) calls ⟨.start, .inr rfl⟩]
  refine forall₂_congr fun made _ => ?_
  rw [pendingExact_iff (hcounted made), and_iff_right (hcounted made)]

/-- A span has ended and is not read when the collector is shut down. -/
def unreadAtShutdown : List TraceLifeCall :=
  [.init 2 true, .span (.begin 0 7 ⟨0, 0⟩ none 5), .span (.finish 1 0 0 6), .shutdown]

theorem pending_after_shutdown :
    ¬ ∀ made, made <+: unreadAtShutdown →
      PendingExact (final TraceState.lifeStep .start made) := by
  intro h
  have hexact := (h unreadAtShutdown List.prefix_rfl 1 (by decide)).1
  revert hexact
  decide

end Kernel

end InfinityOS
