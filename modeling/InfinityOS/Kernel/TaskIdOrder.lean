import InfinityOS.Kernel.TaskId

/-!
# The order of the task ids of a dimension

Successive ids of a dimension have successive sequence numbers, of which the first word of
an id holds only twelve bits. When these go round from 4095 to 0 within one window of
`2 ^ 16` ns, the next id is smaller than the one before.
-/

namespace InfinityOS

namespace Kernel

/-- The order of the pairs `(hi, lo)`. -/
def KernelTaskId.Before (a b : KernelTaskId) : Prop :=
  a.hi < b.hi ∨ a.hi = b.hi ∧ a.lo < b.lo

namespace Dimensions

open Transition

instance : Trans KernelTaskId.Before KernelTaskId.Before KernelTaskId.Before where
  trans := by
    intro a b c hab hbc
    unfold KernelTaskId.Before at *
    simp only [BitVec.lt_def] at *
    rcases hab with hab | ⟨heq, hab⟩
    · rcases hbc with hbc | ⟨heq, hbc⟩
      · exact .inl (hab.trans hbc)
      · exact .inl (heq ▸ hab)
    · rcases hbc with hbc | ⟨heq', hbc⟩
      · exact .inl (heq ▸ hbc)
      · exact .inr ⟨heq.trans heq', hab.trans hbc⟩

/-- The clock reading of a call that asks for an id of the dimension. -/
def clockFor (d : Word) : Call → Option Word
  | .generate e ts => if e = d then some ts else none
  | _ => none

def idFor (d : Word) : Call × Answer → Option KernelTaskId
  | (.generate e _, .generated (.ok id)) => if e = d then some id else none
  | _ => none

def clocksOf (d : Word) (cs : List Call) : List Word :=
  cs.filterMap (clockFor d)

def idsOf (k : Dimensions) (d : Word) (cs : List Call) : List KernelTaskId :=
  (trace step k cs).filterMap (idFor d)

/-- Clock readings with the sequence numbers that follow `n`. -/
def numbered : Word → List Word → List (Word × Word)
  | _, [] => []
  | n, ts :: clocks => (ts, n + 1) :: numbered (n + 1) clocks

/-- Of two successive ids of one window the second one has not the first of a new round of
`2 ^ 28` sequence numbers. -/
def SameRound (p q : Word × Word) : Prop :=
  p.1.toNat / 2 ^ 16 = q.1.toNat / 2 ^ 16 → q.2.toNat % 2 ^ 28 ≠ 0

/-- The call neither creates nor destroys the dimension. -/
def KeepsLife (d : Word) (k : Dimensions) (c : Call) : Prop :=
  k.changed c ≠ some d

/-! ## Two ids -/

theorem before_packTaskId_iff {ts ts' : Word} (hclock : ts.toNat ≤ ts'.toNat) (seq : Word) :
    (packTaskId ts seq).Before (packTaskId ts' (seq + 1)) ↔
      SameRound (ts, seq) (ts', seq + 1) := by
  have hhi := toNat_packTaskId_hi ts seq
  have hhi' := toNat_packTaskId_hi ts' (seq + 1)
  have hlo := toNat_packTaskId_lo ts seq
  have hlo' := toNat_packTaskId_lo ts' (seq + 1)
  have hnext : (seq + 1).toNat = (seq.toNat + 1) % 2 ^ 64 := BitVec.toNat_add _ _
  have hlt := seq.isLt
  unfold KernelTaskId.Before SameRound
  rw [BitVec.lt_def, BitVec.lt_def, ← BitVec.toNat_inj, hhi, hhi', hlo, hlo']
  dsimp only
  rw [hnext]
  clear hhi hhi' hlo hlo' hnext
  generalize ts.toNat = t at *
  generalize ts'.toNat = t' at *
  generalize seq.toNat = n at *
  omega

/-! ## The ids of a run -/

theorem step_running (k : Dimensions) (c : Call) : (k.step c).2.running = k.running := by
  cases c with
  | create =>
      simp only [step, dimensionCreate]
      split
      · rfl
      · split <;> rfl
  | destroy d =>
      simp only [step, dimensionDestroy]
      split
      · rfl
      · split
        · rfl
        · split <;> rfl
  | generate d ts =>
      simp only [step, taskIdGenerate]
      split
      · rfl
      · split <;> rfl

theorem idsOf_eq_map {k : Dimensions} {d n : Word} (hd : d ≠ 0) (hrunning : k.running = true)
    (hn : k.counter d = some n) {cs : List Call} (hlife : Along (KeepsLife d) step k cs) :
    k.idsOf d cs = (numbered n (clocksOf d cs)).map fun p => packTaskId p.1 p.2 := by
  induction cs generalizing k n with
  | nil => rfl
  | cons c cs ih =>
      obtain ⟨hkeeps, hrest⟩ := hlife
      have hrunning' : (k.step c).2.running = true := (step_running k c).trans hrunning
      have hnot : ¬ k.running = false := by
        rw [hrunning]
        exact Bool.noConfusion
      cases c with
      | create =>
          have hcounter := counter_step_of_other (fun _ => 0) hd hkeeps
            fun p hp => absurd hp (Option.some_ne_none p).symm
          exact ih hrunning' (hcounter.trans hn) hrest
      | destroy e =>
          have hcounter := counter_step_of_other (fun _ => 0) hd hkeeps
            fun p hp => absurd hp (Option.some_ne_none p).symm
          exact ih hrunning' (hcounter.trans hn) hrest
      | generate e ts =>
          by_cases hed : e = d
          · subst hed
            have hfst := k.taskIdGenerate_fst e ts
            rw [if_neg hnot, hn] at hfst
            have hnext := counter_generate_self hfst
            rw [hn] at hnext
            have hids := ih hrunning' hnext hrest
            have hclock : clockFor e (.generate e ts) = some ts := if_pos rfl
            have hid : idFor e (.generate e ts, (k.step (.generate e ts)).1) =
                some (packTaskId ts (n + 1)) := by
              rw [step, hfst]
              exact if_pos rfl
            rw [clocksOf, List.filterMap_cons_some hclock, numbered, List.map_cons, idsOf,
              trace_cons, List.filterMap_cons_some hid]
            exact congrArg _ hids
          · have hcounter : (k.taskIdGenerate e ts).2.counter d = k.counter d :=
              counter_generate_other (Ne.symm hed)
            have hids := ih hrunning' (hcounter.trans hn) hrest
            have hclock : clockFor d (.generate e ts) = none := if_neg hed
            have hid : idFor d (.generate e ts, (k.step (.generate e ts)).1) = none := by
              rw [step]
              cases (k.taskIdGenerate e ts).1 with
              | error _ => rfl
              | ok id => exact if_neg hed
            rw [clocksOf, List.filterMap_cons_none hclock, idsOf, trace_cons,
              List.filterMap_cons_none hid]
            exact hids

theorem isChain_before_iff (n : Word) {clocks : List Word}
    (hclock : clocks.IsChain fun ts ts' => ts.toNat ≤ ts'.toNat) :
    ((numbered n clocks).map fun p => packTaskId p.1 p.2).IsChain KernelTaskId.Before ↔
      (numbered n clocks).IsChain SameRound := by
  induction clocks generalizing n with
  | nil => exact iff_of_true .nil .nil
  | cons ts clocks ih =>
      cases clocks with
      | nil => exact iff_of_true (.singleton _) (.singleton _)
      | cons ts' clocks =>
          rw [List.isChain_cons_cons] at hclock
          have htail := ih (n + 1) hclock.2
          unfold numbered at htail ⊢
          unfold numbered
          rw [List.map_cons] at htail
          rw [List.map_cons, List.map_cons, List.isChain_cons_cons, List.isChain_cons_cons, htail,
            before_packTaskId_iff hclock.1]

/-- The ids of a live dimension increase exactly if no two successive ones of one window are
in different rounds. -/
theorem idsOf_increasing_iff (k : Dimensions) (d n : Word) (cs : List Call) (hd : d ≠ 0)
    (hrunning : k.running = true) (hn : k.counter d = some n)
    (hlife : Along (KeepsLife d) step k cs)
    (hclock : (clocksOf d cs).IsChain fun ts ts' => ts.toNat ≤ ts'.toNat) :
    (k.idsOf d cs).Pairwise KernelTaskId.Before ↔
      (numbered n (clocksOf d cs)).IsChain SameRound := by
  rw [idsOf_eq_map hd hrunning hn hlife, ← List.isChain_iff_pairwise]
  exact isChain_before_iff n hclock

/-- The kernel with one dimension, which has made no id. -/
def oneDimension : Dimensions :=
  (initial.step .create).2

/-- Two ids of one window and one of the next. -/
theorem idsOf_increasing_sample :
    (oneDimension.idsOf 1 [.generate 1 5, .create, .generate 1 5, .generate 1 70000]).Pairwise
      KernelTaskId.Before := by
  refine (idsOf_increasing_iff oneDimension 1 0 _ (by decide) rfl (by decide) ?_
    (by decide)).mpr ?_
  · refine ⟨?_, ?_, ?_, ?_, trivial⟩
    all_goals
      unfold KeepsLife
      decide
  · unfold SameRound
    decide

def idEveryMicrosecond (count : ℕ) : List Call :=
  (List.range count).map fun i => .generate 1 (.ofNat 64 (1000 * (i + 6)))

theorem numbered_map_range' (f : ℕ → Word) (count first : ℕ) :
    numbered (.ofNat 64 first) ((List.range' first count).map f) =
      (List.range' first count).map fun i => (f i, .ofNat 64 (i + 1)) := by
  induction count generalizing first with
  | zero => rfl
  | succ count ih =>
      rw [List.range'_succ, List.map_cons, List.map_cons, numbered, ← ih, BitVec.ofNat_add]
      rfl

/-- After `2 ^ 28` of them the next id is smaller, though the clock has gone on. -/
theorem idEveryMicrosecond_not_increasing :
    (clocksOf 1 (idEveryMicrosecond (2 ^ 28))).IsChain (fun ts ts' => ts.toNat ≤ ts'.toNat) ∧
      ¬ (oneDimension.idsOf 1 (idEveryMicrosecond (2 ^ 28))).Pairwise KernelTaskId.Before := by
  have hclocks : ∀ count, clocksOf 1 (idEveryMicrosecond count) =
      (List.range count).map fun i => .ofNat 64 (1000 * (i + 6)) := by
    intro count
    rw [clocksOf, idEveryMicrosecond, List.filterMap_map]
    exact congrFun List.filterMap_eq_map' _
  have hlife : ∀ count, Along (KeepsLife 1) step oneDimension (idEveryMicrosecond count) := by
    intro count
    refine along_of_forall (fun c hc k hchanged => ?_) _
    obtain ⟨i, -, rfl⟩ := List.mem_map.mp hc
    cases hchanged
  have hsorted : (clocksOf 1 (idEveryMicrosecond (2 ^ 28))).IsChain
      fun ts ts' => ts.toNat ≤ ts'.toNat := by
    rw [hclocks, List.isChain_map]
    generalize hcount : 2 ^ 28 = count
    rw [List.isChain_range]
    intro i hi
    rw [BitVec.toNat_ofNat, BitVec.toNat_ofNat, Nat.mod_eq_of_lt (by omega),
      Nat.mod_eq_of_lt (by omega)]
    omega
  refine ⟨hsorted, fun hincreasing => ?_⟩
  rw [idsOf_eq_map (n := 0) (by decide) rfl (by decide) (hlife _),
    ← List.isChain_iff_pairwise, isChain_before_iff 0 hsorted, hclocks] at hincreasing
  have hnumbered := numbered_map_range' (fun i => .ofNat 64 (1000 * (i + 6))) (2 ^ 28) 0
  rw [← List.range_eq_range'] at hnumbered
  rw [show (0 : Word) = .ofNat 64 0 from rfl, hnumbered, List.isChain_map] at hincreasing
  generalize hcount : 2 ^ 28 = count at hincreasing
  rw [List.isChain_range] at hincreasing
  have hround := hincreasing (2 ^ 28 - 2) (by omega)
  unfold SameRound at hround
  revert hround
  decide

end Dimensions

end Kernel

end InfinityOS
