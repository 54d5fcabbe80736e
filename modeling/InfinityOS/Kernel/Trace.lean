import InfinityOS.Core.RingBuffer
import InfinityOS.Kernel.Scheduler
import InfinityOS.Transition.Run
import InfinityOS.Words.Fields

/-!
# The span collector

An open span lies in the slot `span_id % 256` of the in-flight table; when it ends it is
written to a ring of a power of two of slots, between a read and a write counter that
are never reduced. A span that begins in the slot of an open one takes its place, and the
end of the other one then finds nothing.

A C string is its bytes before the terminating zero; of the emit callback only whether it
is set matters, and the end of a span answers with what it is called with.
-/

namespace InfinityOS

namespace Kernel

open Transition RingBuffer Words

/-- `IFY_TRACE_OP_MAX`. -/
def traceOpMax : ℕ := 64

/-- `IFY_TRACE_INFLIGHT_MAX`. -/
def traceInflightMax : Word := 256

/-- `ify_span_t`. -/
structure Span where
  spanId : Word
  parentSpanId : Word
  dimensionId : Word
  taskId : KernelTaskId
  op : List UInt8
  startNs : Word
  endNs : Word
  allocBytes : Word
  freeBytes : Word
  deriving DecidableEq

def Span.zero : Span :=
  ⟨0, 0, 0, ⟨0, 0⟩, [], 0, 0, 0, 0⟩

structure InflightEntry where
  spanId : Word
  partialSpan : Span
  inUse : Bool

def InflightEntry.zero : InflightEntry :=
  ⟨0, .zero, false⟩

structure TraceState where
  ring : List Span
  cap : BitVec 32
  writeIdx : Word
  readIdx : Word
  spanSeq : Word
  emitFn : Bool
  inflight : List InflightEntry
  initialized : Bool

def inflightSlot (spanId : Word) : ℕ :=
  ((spanId % traceInflightMax).setWidth 32).toNat

/-- The span as `ify_trace_begin` fills it in. -/
def Span.begun (spanId parentSpanId dimensionId : Word) (taskId : KernelTaskId)
    (op : Option (List UInt8)) (now : Word) : Span :=
  { Span.zero with
    spanId, parentSpanId, dimensionId, taskId
    op := (op.getD []).take (traceOpMax - 1)
    startNs := now }

def Span.ended (span : Span) (allocBytes freeBytes now : Word) : Span :=
  { span with endNs := now, allocBytes, freeBytes }

namespace TraceState

/-- `ify_trace_init`, where `allocated` is whether `calloc` gives the ring. -/
def traceInit (s : TraceState) (capacity : BitVec 32) (allocated : Bool) :
    StatusCode × TraceState :=
  if capacity < 2 ∨ capacity &&& (capacity - 1) ≠ 0 then (errInvalidArg, s)
  else if s.initialized then (errAlreadyExists, s)
  else if !allocated then (errOutOfMemory, s)
  else
    (ifyOk, { s with
      ring := List.replicate capacity.toNat .zero
      cap := capacity
      writeIdx := 0
      readIdx := 0
      initialized := true
      inflight := List.replicate traceInflightMax.toNat .zero })

/-- `ify_trace_set_emit`. -/
def traceSetEmit (s : TraceState) (fn : Bool) : TraceState :=
  { s with emitFn := fn }

/-- `ify_trace_begin` at the clock reading `now`. -/
def traceBegin (s : TraceState) (parentSpanId dimensionId : Word) (taskId : KernelTaskId)
    (op : Option (List UInt8)) (now : Word) : Word × TraceState :=
  let sid := s.spanSeq + 1
  let s := { s with spanSeq := sid }
  if !s.initialized then (sid, s)
  else
    (sid, { s with
      inflight := s.inflight.set (inflightSlot sid)
        { spanId := sid
          partialSpan := .begun sid parentSpanId dimensionId taskId op now
          inUse := true } })

def ringSlot (s : TraceState) (idx : Word) : ℕ :=
  ((idx &&& (s.cap - 1).setWidth 64).setWidth 32).toNat

/-- The part of `ify_trace_end` that writes to the ring. -/
def writeSpan (s : TraceState) (span : Span) : TraceState :=
  let s' := { s with
    ring := s.ring.set (s.ringSlot s.writeIdx) span
    writeIdx := s.writeIdx + 1 }
  if s'.writeIdx - s'.readIdx > s'.cap.setWidth 64 then
    { s' with readIdx := s'.writeIdx - s'.cap.setWidth 64 }
  else s'

/-- `ify_trace_end` at the clock reading `now`. -/
def traceEnd (s : TraceState) (spanId allocBytes freeBytes now : Word) :
    Option Span × TraceState :=
  if spanId = 0 then (none, s)
  else if !s.initialized then (none, s)
  else
    let slot := inflightSlot spanId
    let e := s.inflight.getD slot .zero
    -- the slot may hold a later span, or one that has ended
    if !e.inUse || e.spanId ≠ spanId then (none, s)
    else
      let span := e.partialSpan.ended allocBytes freeBytes now
      let s := s.writeSpan span
      (if s.emitFn then some span else none,
        { s with inflight := s.inflight.set slot { e with partialSpan := span, inUse := false } })

/-- The loop of `ify_trace_read`. -/
def readLoop : ℕ → TraceState → List Span × TraceState
  | 0, s => ([], s)
  | n + 1, s =>
      let span := s.ring.getD (s.ringSlot s.readIdx) .zero
      let rest := readLoop n { s with readIdx := s.readIdx + 1 }
      (span :: rest.1, rest.2)

/-- `ify_trace_pending`. -/
def tracePending (s : TraceState) : BitVec 32 :=
  (s.writeIdx - s.readIdx).setWidth 32

/-- `ify_trace_read`: the count, and the spans that are copied out. -/
def traceRead (s : TraceState) (hasOut : Bool) (max : BitVec 32) :
    (BitVec 32 × List Span) × TraceState :=
  if !hasOut || max = 0 then ((0, []), s)
  else if !s.initialized then ((0, []), s)
  else
    let available := s.tracePending
    let count := if available < max then available else max
    let read := s.readLoop count.toNat
    ((count, read.1), read.2)

end TraceState

/-- A call with its arguments and the clock reading. -/
inductive TraceCall where
  | setEmit (fn : Bool)
  | begin (parentSpanId dimensionId : Word) (taskId : KernelTaskId)
      (op : Option (List UInt8)) (now : Word)
  | finish (spanId allocBytes freeBytes now : Word)
  | read (hasOut : Bool) (max : BitVec 32)
  | pending

inductive TraceAnswer where
  | done
  | began (spanId : Word)
  | finished (emitted : Option Span)
  | spans (count : BitVec 32) (out : List Span)
  | pending (n : BitVec 32)
  deriving DecidableEq

def TraceState.step (s : TraceState) : TraceCall → TraceAnswer × TraceState
  | .setEmit fn => (.done, s.traceSetEmit fn)
  | .begin parentSpanId dimensionId taskId op now =>
      let r := s.traceBegin parentSpanId dimensionId taskId op now
      (.began r.1, r.2)
  | .finish spanId allocBytes freeBytes now =>
      let r := s.traceEnd spanId allocBytes freeBytes now
      (.finished r.1, r.2)
  | .read hasOut max =>
      let r := s.traceRead hasOut max
      (.spans r.1.1 r.1.2, r.2)
  | .pending => (.pending s.tracePending, s)

/-! ## The reference -/

/-- The open spans and the ended ones that are not read yet, oldest first and no more than
the capacity. -/
structure SpanQueue where
  capacity : ℕ
  spanSeq : Word
  emitFn : Bool
  opened : List Span
  unread : List Span

namespace SpanQueue

def new (capacity : ℕ) (spanSeq : Word) (emitFn : Bool) : SpanQueue :=
  { capacity, spanSeq, emitFn, opened := [], unread := [] }

/-- The id 0 stands for no span: none is opened under it. -/
def step (q : SpanQueue) : TraceCall → TraceAnswer × SpanQueue
  | .setEmit fn => (.done, { q with emitFn := fn })
  | .begin parentSpanId dimensionId taskId op now =>
      let sid := q.spanSeq + 1
      let span := Span.begun sid parentSpanId dimensionId taskId op now
      (.began sid, { q with
        spanSeq := sid
        opened := if sid = 0 then q.opened else span :: q.opened })
  | .finish spanId allocBytes freeBytes now =>
      match q.opened.find? fun span => span.spanId = spanId with
      | none => (.finished none, q)
      | some span =>
          let span := span.ended allocBytes freeBytes now
          (.finished (if q.emitFn then some span else none), { q with
            opened := q.opened.filter fun span => span.spanId ≠ spanId
            unread := pushBounded q.capacity q.unread span })
  | .read hasOut max =>
      let n := if hasOut then max.toNat else 0
      let out := q.unread.take n
      (.spans (.ofNat 32 out.length) out, { q with unread := q.unread.drop n })
  | .pending => (.pending (.ofNat 32 q.unread.length), q)

end SpanQueue

/-- No span begins in the slot of an open one. -/
def BeginsInFreeSlot (q : SpanQueue) : TraceCall → Prop
  | .begin .. => ∀ span ∈ q.opened, inflightSlot span.spanId ≠ inflightSlot (q.spanSeq + 1)
  | _ => True

/-- Between the two counters of the ring lies the queue. -/
structure Queued (s : TraceState) (q : List Span) : Prop where
  cap_pow : ∃ k < 32, s.cap.toNat = 2 ^ k
  length_ring : s.ring.length = s.cap.toNat
  le_cap : (s.writeIdx - s.readIdx).toNat ≤ s.cap.toNat
  eq_window : q = window s.ring s.readIdx.toNat (s.writeIdx - s.readIdx).toNat

namespace Queued

variable {s : TraceState} {q : List Span}

/-- The other fields do not matter. -/
theorem congr {s' : TraceState} (h : Queued s q) (hring : s'.ring = s.ring)
    (hcap : s'.cap = s.cap) (hwrite : s'.writeIdx = s.writeIdx)
    (hread : s'.readIdx = s.readIdx) : Queued s' q := by
  obtain ⟨hpow, hlength, hle, hwindow⟩ := h
  constructor
  · rwa [hcap]
  · rwa [hring, hcap]
  · rwa [hwrite, hread, hcap]
  · rwa [hring, hwrite, hread]

theorem cap_pos (h : Queued s q) : 0 < s.cap.toNat := by
  obtain ⟨k, -, hk⟩ := h.cap_pow
  rw [hk]
  exact Nat.two_pow_pos k

theorem length_eq (h : Queued s q) : q.length = (s.writeIdx - s.readIdx).toNat := by
  rw [h.eq_window, length_window _ (h.le_cap.trans h.length_ring.ge)]

theorem length_le (h : Queued s q) : q.length ≤ s.cap.toNat :=
  h.length_eq.trans_le h.le_cap

theorem toNat_add_mod (h : Queued s q) (x y : Word) :
    (x + y).toNat % s.ring.length = (x.toNat + y.toNat) % s.ring.length := by
  obtain ⟨k, hk, hcap⟩ := h.cap_pow
  rw [h.length_ring, hcap]
  exact toNat_add_mod_two_pow (by omega) x y

theorem ringSlot_eq (h : Queued s q) (idx : Word) :
    s.ringSlot idx = idx.toNat % s.ring.length := by
  obtain ⟨k, hk, hcap⟩ := h.cap_pow
  have hle : 2 ^ k ≤ 2 ^ 31 := Nat.pow_le_pow_right (by decide) (by omega)
  have hmask : ((s.cap - 1).setWidth 64).toNat = 2 ^ k - 1 := by
    rw [BitVec.toNat_setWidth, toNat_sub_one h.cap_pos.ne', hcap]
    exact Nat.mod_eq_of_lt (by omega)
  have hlt := Nat.mod_lt idx.toNat (Nat.two_pow_pos k)
  rw [TraceState.ringSlot, BitVec.toNat_setWidth, toNat_and_low hmask, h.length_ring, hcap]
  exact Nat.mod_eq_of_lt (by omega)

theorem toNat_setWidth_cap (s : TraceState) : (s.cap.setWidth 64).toNat = s.cap.toNat := by
  rw [BitVec.toNat_setWidth]
  exact Nat.mod_eq_of_lt (by omega)

theorem ringSlot_writeIdx (h : Queued s q) :
    s.ringSlot s.writeIdx = (s.readIdx.toNat + q.length) % s.ring.length := by
  have hsum : s.writeIdx = s.readIdx + (s.writeIdx - s.readIdx) := by
    rw [add_comm, BitVec.sub_add_cancel]
  rw [h.ringSlot_eq, hsum, h.toNat_add_mod, h.length_eq]

theorem length_succ (h : Queued s q) :
    (s.writeIdx + 1 - s.readIdx).toNat = q.length + 1 := by
  have hdiff : s.writeIdx + 1 - s.readIdx = s.writeIdx - s.readIdx + 1 := by ring
  have hone : (1 : Word).toNat = 1 := rfl
  have hle := h.length_le
  have hlt := s.cap.isLt
  rw [hdiff, BitVec.toNat_add, hone, ← h.length_eq]
  exact Nat.mod_eq_of_lt (by omega)

/-- A full ring is written: the read counter goes past the oldest span. -/
theorem overwrite (h : Queued s q) (hfull : q.length = s.cap.toNat) (span : Span) :
    Queued { s with
        ring := s.ring.set (s.ringSlot s.writeIdx) span
        writeIdx := s.writeIdx + 1
        readIdx := s.writeIdx + 1 - s.cap.setWidth 64 }
      (q.drop 1 ++ [span]) := by
  have hone : (1 : Word).toNat = 1 := rfl
  have hcap : s.writeIdx - s.readIdx = s.cap.setWidth 64 := by
    apply BitVec.eq_of_toNat_eq
    rw [← h.length_eq, hfull, toNat_setWidth_cap]
  have hread : s.writeIdx + 1 - s.cap.setWidth 64 = s.readIdx + 1 := by
    rw [← hcap]
    ring
  have hdiff : (s.writeIdx + 1 - (s.writeIdx + 1 - s.cap.setWidth 64)).toNat =
      s.ring.length := by
    rw [sub_sub_cancel, toNat_setWidth_cap, h.length_ring]
  have hslot : s.ringSlot s.writeIdx = s.readIdx.toNat % s.ring.length := by
    rw [h.ringSlot_writeIdx, hfull, ← h.length_ring, Nat.add_mod_right]
  have hpos : 0 < s.ring.length := h.cap_pos.trans_eq h.length_ring.symm
  refine ⟨h.cap_pow, ?_, ?_, ?_⟩
  · rw [List.length_set, h.length_ring]
  · exact (hdiff.trans h.length_ring).le
  · have hqueue : q = window s.ring s.readIdx.toNat s.ring.length := by
      rw [h.length_ring, ← hfull, h.length_eq]
      exact h.eq_window
    dsimp only
    rw [hdiff, hread, hslot, hqueue, ← window_overwrite _ hpos]
    apply window_congr
    rw [List.length_set, h.toNat_add_mod, hone]

theorem push (h : Queued s q) (hfree : q.length < s.cap.toNat) (span : Span) :
    Queued { s with
        ring := s.ring.set (s.ringSlot s.writeIdx) span
        writeIdx := s.writeIdx + 1 }
      (q ++ [span]) := by
  have hlt : q.length < s.ring.length := hfree.trans_eq h.length_ring.symm
  have hqueue : q = window s.ring s.readIdx.toNat q.length := by
    rw [h.length_eq]
    exact h.eq_window
  refine ⟨h.cap_pow, ?_, ?_, ?_⟩
  · rw [List.length_set, h.length_ring]
  · exact h.length_succ.trans_le hfree
  · dsimp only
    rw [h.length_succ, h.ringSlot_writeIdx, window_push _ hlt, ← hqueue]

theorem writeSpan (h : Queued s q) (span : Span) :
    Queued (s.writeSpan span) (pushBounded s.cap.toNat q span) := by
  have hle := h.length_le
  rw [TraceState.writeSpan]
  dsimp only
  split
  · next hfull =>
      rw [gt_iff_lt, BitVec.lt_def, toNat_setWidth_cap, h.length_succ] at hfull
      have heq : q.length = s.cap.toNat := by omega
      rw [pushBounded_of_length_eq h.cap_pos heq]
      exact h.overwrite heq span
  · next hfree =>
      rw [gt_iff_lt, BitVec.lt_def, toNat_setWidth_cap, h.length_succ] at hfree
      have hlt : q.length < s.cap.toNat := by omega
      rw [pushBounded_of_lt hlt]
      exact h.push hlt span

theorem pop {span : Span} (h : Queued s (span :: q)) :
    s.ring.getD (s.ringSlot s.readIdx) .zero = span ∧
      Queued { s with readIdx := s.readIdx + 1 } q := by
  have hone : (1 : Word).toNat = 1 := rfl
  have hlength : (s.writeIdx - s.readIdx).toNat = q.length + 1 := h.length_eq.symm
  have hle : q.length + 1 ≤ s.ring.length := h.length_le.trans_eq h.length_ring.symm
  have hdiff : (s.writeIdx - (s.readIdx + 1)).toNat = q.length := by
    have hsub : s.writeIdx - (s.readIdx + 1) = s.writeIdx - s.readIdx - 1 := by ring
    rw [hsub, toNat_sub_one (by omega), hlength, Nat.add_sub_cancel]
  have hqueue : span :: q = window s.ring s.readIdx.toNat (q.length + 1) := by
    rw [← hlength]
    exact h.eq_window
  have hfirst : s.ring[s.readIdx.toNat % s.ring.length]? = some span := by
    have hget := getElem?_window s.readIdx.toNat hle (Nat.succ_pos q.length)
    rw [← hqueue] at hget
    exact hget.symm
  constructor
  · rw [h.ringSlot_eq, List.getD_eq_getElem?_getD, hfirst, Option.getD_some]
  · refine ⟨h.cap_pow, h.length_ring, ?_, ?_⟩
    · dsimp only
      rw [hdiff]
      exact (Nat.le_succ _).trans h.length_le
    · dsimp only
      rw [hdiff]
      have htail := drop_window s.readIdx.toNat hle 1
      rw [← hqueue, Nat.add_sub_cancel] at htail
      have hmod : (s.readIdx + 1).toNat % s.ring.length =
          (s.readIdx.toNat + 1) % s.ring.length := by
        rw [h.toNat_add_mod, hone]
      rw [window_congr hmod]
      exact htail

end Queued

theorem readLoop_snd (n : ℕ) (s : TraceState) :
    (s.readLoop n).2 = { s with readIdx := s.readIdx + .ofNat 64 n } := by
  induction n generalizing s with
  | zero => simp [TraceState.readLoop]
  | succ n ih =>
      have hsum : s.readIdx + 1 + .ofNat 64 n = s.readIdx + .ofNat 64 (n + 1) := by
        rw [add_assoc, add_comm 1, BitVec.ofNat_add]
        rfl
      rw [TraceState.readLoop, ih, hsum]

theorem Queued.readLoop {n : ℕ} {s : TraceState} {q : List Span} (h : Queued s q)
    (hn : n ≤ q.length) :
    (s.readLoop n).1 = q.take n ∧ Queued (s.readLoop n).2 (q.drop n) := by
  induction n generalizing s q with
  | zero => exact ⟨rfl, h⟩
  | succ n ih =>
      cases q with
      | nil => exact absurd hn (Nat.not_succ_le_zero n)
      | cons span q =>
          obtain ⟨hspan, htail⟩ := h.pop
          obtain ⟨htake, hdrop⟩ := ih htail (Nat.le_of_succ_le_succ hn)
          rw [TraceState.readLoop, hspan, htake]
          exact ⟨rfl, hdrop⟩

theorem Queued.tracePending {s : TraceState} {q : List Span} (h : Queued s q) :
    s.tracePending = .ofNat 32 q.length := by
  rw [h.length_eq, TraceState.tracePending, BitVec.ofNat_toNat]

theorem Queued.traceRead {s : TraceState} {q : List Span} (h : Queued s q)
    (hinit : s.initialized = true) (hasOut : Bool) (max : BitVec 32) :
    let n := if hasOut then max.toNat else 0
    s.traceRead hasOut max =
      ((.ofNat 32 (q.take n).length, q.take n), (s.readLoop (min n q.length)).2) := by
  intro n
  rw [TraceState.traceRead]
  split
  · next hskip =>
      have hn : n = 0 := by
        rw [Bool.or_eq_true, Bool.not_eq_true', decide_eq_true_eq] at hskip
        rcases hskip with rfl | rfl
        · rfl
        · exact ite_self 0
      rw [hn, Nat.zero_min]
      rfl
  · next hread =>
      have hout : hasOut = true := by
        cases hasOut with
        | true => rfl
        | false => exact absurd rfl hread
      have hn : n = max.toNat := if_pos hout
      have hlt : q.length < 2 ^ 32 := h.length_le.trans_lt s.cap.isLt
      have havailable : s.tracePending.toNat = q.length := by
        rw [h.tracePending, BitVec.toNat_ofNat, Nat.mod_eq_of_lt hlt]
      have hcount : (if s.tracePending < max then s.tracePending else max).toNat =
          min n q.length := by
        rw [hn]
        split
        · next hless =>
            rw [BitVec.lt_def, havailable] at hless
            rw [havailable, min_eq_right hless.le]
        · next hless =>
            rw [BitVec.lt_def, havailable, not_lt] at hless
            rw [min_eq_left hless]
      obtain ⟨htake, -⟩ := h.readLoop (min_le_right n q.length)
      rw [← List.take_eq_take_min] at htake
      rw [hinit]
      simp only [Bool.not_true, Bool.false_eq_true, if_false, hcount, htake, List.length_take]
      rw [← hcount, BitVec.ofNat_toNat, BitVec.setWidth_eq]

def lookupSpan (inflight : List InflightEntry) (spanId : Word) : Option Span :=
  let e := inflight.getD (inflightSlot spanId) .zero
  if e.inUse = true ∧ e.spanId = spanId then some e.partialSpan else none

structure InFlight (inflight : List InflightEntry) (opened : List Span) : Prop where
  length_eq : inflight.length = traceInflightMax.toNat
  ne_zero : ∀ span ∈ opened, span.spanId ≠ 0
  find? : ∀ spanId ≠ 0,
    opened.find? (fun span => span.spanId = spanId) = lookupSpan inflight spanId

theorem inflightSlot_lt (spanId : Word) : inflightSlot spanId < traceInflightMax.toNat := by
  have hlt : (spanId % traceInflightMax).toNat < traceInflightMax.toNat := by
    rw [BitVec.toNat_umod]
    exact Nat.mod_lt _ (by decide)
  rw [inflightSlot, BitVec.toNat_setWidth]
  exact (Nat.mod_le _ _).trans_lt hlt

namespace InFlight

variable {inflight : List InflightEntry} {opened : List Span} {sid spanId : Word}
  {e : InflightEntry}

theorem getD_set_self (h : InFlight inflight opened) (sid : Word) (e : InflightEntry) :
    (inflight.set (inflightSlot sid) e).getD (inflightSlot sid) .zero = e := by
  have hlt := (inflightSlot_lt sid).trans_eq h.length_eq.symm
  rw [List.getD_eq_getElem?_getD, List.getElem?_set_self hlt, Option.getD_some]

theorem lookupSpan_set (h : InFlight inflight opened) (e : InflightEntry)
    (hne : e.spanId = sid) (hother : spanId ≠ sid)
    (hslot : inflightSlot spanId = inflightSlot sid) :
    lookupSpan (inflight.set (inflightSlot sid) e) spanId = none := by
  rw [lookupSpan, hslot, h.getD_set_self, if_neg]
  rintro ⟨-, heq⟩
  exact hother (heq.symm.trans hne)

theorem lookupSpan_set_of_ne (hslot : inflightSlot spanId ≠ inflightSlot sid) :
    lookupSpan (inflight.set (inflightSlot sid) e) spanId = lookupSpan inflight spanId := by
  rw [lookupSpan, List.getD_eq_getElem?_getD, List.getElem?_set_ne hslot.symm,
    ← List.getD_eq_getElem?_getD, lookupSpan]

theorem begin (h : InFlight inflight opened) {span : Span} (hspan : span.spanId = sid)
    (hfree : ∀ span ∈ opened, inflightSlot span.spanId ≠ inflightSlot sid) :
    InFlight (inflight.set (inflightSlot sid) ⟨sid, span, true⟩)
      (if sid = 0 then opened else span :: opened) := by
  refine ⟨?_, ?_, fun spanId hzero => ?_⟩
  · rw [List.length_set, h.length_eq]
  · intro p hp
    split at hp
    · exact h.ne_zero p hp
    · next hsid =>
        rcases List.mem_cons.mp hp with rfl | hp
        · rwa [hspan]
        · exact h.ne_zero p hp
  · by_cases hid : spanId = sid
    · subst hid
      have hhead : decide (span.spanId = spanId) = true := decide_eq_true hspan
      rw [if_neg hzero, List.find?_cons, hhead, lookupSpan, h.getD_set_self,
        if_pos ⟨rfl, rfl⟩]
    · have hopened : (if sid = 0 then opened else span :: opened).find?
          (fun span => span.spanId = spanId) =
            opened.find? (fun span => span.spanId = spanId) := by
        split
        · rfl
        · apply List.find?_cons_of_neg
          rw [decide_eq_true_eq, hspan]
          exact Ne.symm hid
      rw [hopened]
      by_cases hslot : inflightSlot spanId = inflightSlot sid
      · rw [h.lookupSpan_set ⟨sid, span, true⟩ rfl hid hslot, List.find?_eq_none]
        intro p hp heq
        rw [decide_eq_true_eq] at heq
        apply hfree p hp
        rw [heq, hslot]
      · rw [lookupSpan_set_of_ne hslot]
        exact h.find? spanId hzero

theorem finish (h : InFlight inflight opened)
    (he : inflight.getD (inflightSlot sid) .zero = e) (hsid : e.spanId = sid) (span : Span) :
    InFlight (inflight.set (inflightSlot sid) { e with partialSpan := span, inUse := false })
      (opened.filter fun span => span.spanId ≠ sid) := by
  refine ⟨?_, ?_, fun spanId hzero => ?_⟩
  · rw [List.length_set, h.length_eq]
  · intro p hp
    exact h.ne_zero p (List.mem_of_mem_filter hp)
  · by_cases hid : spanId = sid
    · subst hid
      rw [lookupSpan, h.getD_set_self, if_neg (fun hin => Bool.noConfusion hin.1),
        List.find?_eq_none]
      intro p hp heq
      rw [decide_eq_true_eq] at heq
      rw [List.mem_filter, decide_eq_true_eq] at hp
      exact hp.2 heq
    · have hopened : (opened.filter fun span => span.spanId ≠ sid).find?
          (fun span => span.spanId = spanId) =
            opened.find? (fun span => span.spanId = spanId) := by
        rw [List.find?_filter]
        congr 1
        funext p
        by_cases hp : p.spanId = spanId
        · simp [hp, hid]
        · simp [hp]
      rw [hopened, h.find? spanId hzero]
      by_cases hslot : inflightSlot spanId = inflightSlot sid
      · rw [h.lookupSpan_set { e with partialSpan := span, inUse := false } hsid hid hslot,
          lookupSpan, hslot, he, if_neg]
        rintro ⟨-, heq⟩
        exact hid (heq.symm.trans hsid)
      · rw [lookupSpan_set_of_ne hslot]

end InFlight

theorem writeSpan_frame (s : TraceState) (span : Span) :
    ∃ ring writeIdx readIdx, s.writeSpan span = { s with ring, writeIdx, readIdx } := by
  rw [TraceState.writeSpan]
  dsimp only
  split
  · exact ⟨_, _, _, rfl⟩
  · exact ⟨_, _, s.readIdx, rfl⟩

theorem traceEnd_of_none {s : TraceState} {spanId : Word}
    (h : lookupSpan s.inflight spanId = none) (allocBytes freeBytes now : Word) :
    s.traceEnd spanId allocBytes freeBytes now = (none, s) := by
  rw [lookupSpan] at h
  simp only [TraceState.traceEnd]
  split
  · rfl
  · split
    · rfl
    · split
      · rfl
      · next hentry =>
          simp only [Bool.or_eq_true, Bool.not_eq_true', decide_eq_true_eq, not_or,
            Bool.not_eq_false, ne_eq, not_not] at hentry
          rw [if_pos hentry] at h
          cases h

theorem entry_of_lookupSpan {inflight : List InflightEntry} {spanId : Word} {span : Span}
    (h : lookupSpan inflight spanId = some span) :
    ∃ e, inflight.getD (inflightSlot spanId) .zero = e ∧ e.inUse = true ∧
      e.spanId = spanId ∧ e.partialSpan = span := by
  rw [lookupSpan] at h
  split at h
  · next hentry =>
      cases h
      exact ⟨_, rfl, hentry.1, hentry.2, rfl⟩
  · cases h

/-! ## The refinement -/

/-- The trace has the open spans of the reference in its table and the unread ones in its
ring. -/
structure Collects (q : SpanQueue) (s : TraceState) : Prop where
  initialized : s.initialized = true
  capacity : q.capacity = s.cap.toNat
  spanSeq : q.spanSeq = s.spanSeq
  emitFn : q.emitFn = s.emitFn
  queued : Queued s q.unread
  inFlight : InFlight s.inflight q.opened

namespace Collects

variable {q : SpanQueue} {s : TraceState}

theorem begin (h : Collects q s) (parentSpanId dimensionId : Word) (taskId : KernelTaskId)
    (op : Option (List UInt8)) (now : Word)
    (hfree : BeginsInFreeSlot q (.begin parentSpanId dimensionId taskId op now)) :
    (q.step (.begin parentSpanId dimensionId taskId op now)).1 =
        (s.step (.begin parentSpanId dimensionId taskId op now)).1 ∧
      Collects (q.step (.begin parentSpanId dimensionId taskId op now)).2
        (s.step (.begin parentSpanId dimensionId taskId op now)).2 := by
  obtain ⟨hinit, hcap, hseq, hemit, hqueued, hin⟩ := h
  rw [BeginsInFreeSlot, hseq] at hfree
  simp only [SpanQueue.step, TraceState.step, TraceState.traceBegin, hinit, hseq,
    Bool.not_true, Bool.false_eq_true, if_false, true_and]
  exact ⟨rfl, hcap, rfl, hemit, hqueued.congr rfl rfl rfl rfl, hin.begin rfl hfree⟩

theorem finish (h : Collects q s) (spanId allocBytes freeBytes now : Word) :
    (q.step (.finish spanId allocBytes freeBytes now)).1 =
        (s.step (.finish spanId allocBytes freeBytes now)).1 ∧
      Collects (q.step (.finish spanId allocBytes freeBytes now)).2
        (s.step (.finish spanId allocBytes freeBytes now)).2 := by
  by_cases hzero : spanId = 0
  · have hnone : q.opened.find? (fun span => span.spanId = spanId) = none := by
      rw [List.find?_eq_none]
      intro span hspan heq
      rw [decide_eq_true_eq] at heq
      exact h.inFlight.ne_zero span hspan (heq.trans hzero)
    simp only [SpanQueue.step, TraceState.step, hnone, TraceState.traceEnd, if_pos hzero]
    exact ⟨trivial, h⟩
  · have hfind := h.inFlight.find? spanId hzero
    cases hlook : lookupSpan s.inflight spanId with
    | none =>
        rw [hlook] at hfind
        simp only [SpanQueue.step, TraceState.step, hfind, traceEnd_of_none hlook]
        exact ⟨trivial, h⟩
    | some span =>
        rw [hlook] at hfind
        obtain ⟨e, he, hinUse, hid, rfl⟩ := entry_of_lookupSpan hlook
        obtain ⟨hinit, hcap, hseq, hemit, hqueued, hin⟩ := h
        have hring := hqueued.writeSpan (e.partialSpan.ended allocBytes freeBytes now)
        obtain ⟨ring, writeIdx, readIdx, hframe⟩ :=
          writeSpan_frame s (e.partialSpan.ended allocBytes freeBytes now)
        have hguard : ¬((!e.inUse || decide (e.spanId ≠ spanId)) = true) := by
          simp [hinUse, hid]
        simp only [SpanQueue.step, TraceState.step, hfind, TraceState.traceEnd, if_neg hzero,
          hinit, he, if_neg hguard, Bool.not_true, Bool.false_eq_true, if_false]
        rw [hframe] at hring ⊢
        rw [hcap, hemit]
        refine ⟨rfl, hinit, rfl, hseq, rfl, hring.congr rfl rfl rfl rfl, ?_⟩
        exact hin.finish he hid _

theorem read (h : Collects q s) (hasOut : Bool) (max : BitVec 32) :
    (q.step (.read hasOut max)).1 = (s.step (.read hasOut max)).1 ∧
      Collects (q.step (.read hasOut max)).2 (s.step (.read hasOut max)).2 := by
  obtain ⟨hinit, hcap, hseq, hemit, hqueued, hin⟩ := h
  simp only [SpanQueue.step, TraceState.step, hqueued.traceRead hinit hasOut max, true_and]
  generalize (if hasOut then max.toNat else 0) = n
  obtain ⟨-, hdrop⟩ := hqueued.readLoop (min_le_right n q.unread.length)
  rw [readLoop_snd] at hdrop ⊢
  rw [List.drop_eq_drop_min]
  exact ⟨hinit, hcap, hseq, hemit, hdrop.congr rfl rfl rfl rfl, hin⟩

theorem step (h : Collects q s) (call : TraceCall) (hcall : BeginsInFreeSlot q call) :
    (q.step call).1 = (s.step call).1 ∧ Collects (q.step call).2 (s.step call).2 := by
  cases call with
  | setEmit fn =>
      obtain ⟨hinit, hcap, hseq, -, hqueued, hin⟩ := h
      exact ⟨rfl, hinit, hcap, hseq, rfl, hqueued.congr rfl rfl rfl rfl, hin⟩
  | begin parentSpanId dimensionId taskId op now =>
      exact h.begin parentSpanId dimensionId taskId op now hcall
  | finish spanId allocBytes freeBytes now => exact h.finish spanId allocBytes freeBytes now
  | read hasOut max => exact h.read hasOut max
  | pending => exact ⟨congrArg TraceAnswer.pending h.queued.tracePending.symm, h⟩

end Collects

/-- The static data before any call. -/
def TraceState.start : TraceState :=
  { ring := [], cap := 0, writeIdx := 0, readIdx := 0, spanSeq := 0, emitFn := false
    inflight := List.replicate traceInflightMax.toNat .zero, initialized := false }

end Kernel

end InfinityOS
