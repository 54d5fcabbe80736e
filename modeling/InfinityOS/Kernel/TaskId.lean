import InfinityOS.Kernel.Dimension
import InfinityOS.Words.Fields

/-!
# Uniqueness of task ids

An id keeps the upper 48 bits of the clock reading and the lower 62 bits of the
sequence number of its dimension, and nothing of the dimension. Two ids are equal
exactly when these bits are. Within one life of a dimension the sequence numbers go
up by one with every id, so for these the rate of the ids keeps them apart.
-/

namespace InfinityOS

namespace Kernel

namespace Dimensions

open Words

/-! ## The packed fields -/

theorem toNat_packTaskId_hi (ts seq : Word) :
    (packTaskId ts seq).hi.toNat =
      (ts.toNat - ts.toNat % 2 ^ 16) + 0x7000 + seq.toNat / 2 ^ 16 % 2 ^ 12 := by
  have hts := ts.isLt
  have hhigh : (ts &&& 0xFFFFFFFFFFFF0000).toNat = ts.toNat - ts.toNat % 2 ^ 16 :=
    toNat_and_high (m := 0xFFFF) rfl ts
  have hlow : (seq >>> 16 &&& 0x0FFF).toNat = seq.toNat / 2 ^ 16 % 2 ^ 12 := by
    rw [toNat_and_low (n := 12) rfl, BitVec.toNat_ushiftRight, Nat.shiftRight_eq_div_pow]
  have hversion : (0x7000 : Word).toNat = 0x7000 := rfl
  have hmod := Nat.mod_lt (seq.toNat / 2 ^ 16) (Nat.two_pow_pos 12)
  have hfirst : (ts &&& 0xFFFFFFFFFFFF0000) &&& (0x7000 : Word) = 0 := by
    rw [BitVec.and_assoc]
    exact BitVec.and_zero
  have hsum : (ts &&& 0xFFFFFFFFFFFF0000 ||| 0x7000 : Word).toNat =
      ts.toNat - ts.toNat % 2 ^ 16 + 0x7000 := by
    rw [toNat_or_of_disjoint hfirst, hhigh, hversion]
    rw [hhigh, hversion]
    omega
  have hzero : (ts &&& 0xFFFFFFFFFFFF0000 ||| 0x7000 : Word) &&& 0x0FFF = 0 := by
    rw [BitVec.and_or_distrib_right, BitVec.and_assoc]
    exact (congrArg (· ||| (0 : Word)) BitVec.and_zero).trans BitVec.or_zero
  change ((ts &&& 0xFFFFFFFFFFFF0000 ||| 0x7000) ||| (seq >>> 16 &&& 0x0FFF) : Word).toNat = _
  generalize (ts &&& 0xFFFFFFFFFFFF0000 ||| 0x7000 : Word) = high at hsum hzero
  have hsecond : high &&& (seq >>> 16 &&& 0x0FFF) = 0 := by
    rw [BitVec.and_comm (seq >>> 16), ← BitVec.and_assoc, hzero]
    exact BitVec.zero_and
  rw [toNat_or_of_disjoint hsecond, hsum, hlow]
  rw [hsum, hlow]
  omega

theorem toNat_packTaskId_lo (ts seq : Word) :
    (packTaskId ts seq).lo.toNat = 2 ^ 63 + seq.toNat % 2 ^ 62 := by
  have hlow : (seq &&& 0x3FFFFFFFFFFFFFFF).toNat = seq.toNat % 2 ^ 62 := toNat_and_low rfl seq
  have hmod := Nat.mod_lt seq.toNat (Nat.two_pow_pos 62)
  have hvariant : (0x8000000000000000 : Word).toNat = 2 ^ 63 := rfl
  have hdisjoint : (0x8000000000000000 : Word) &&& (seq &&& 0x3FFFFFFFFFFFFFFF) = 0 := by
    rw [BitVec.and_comm seq, ← BitVec.and_assoc]
    exact BitVec.zero_and
  change (0x8000000000000000 ||| (seq &&& 0x3FFFFFFFFFFFFFFF) : Word).toNat = _
  rw [toNat_or_of_disjoint hdisjoint, hlow, hvariant]
  rw [hlow, hvariant]
  omega

theorem packTaskId_eq_iff (ts seq ts' seq' : Word) :
    packTaskId ts seq = packTaskId ts' seq' ↔
      ts.toNat / 2 ^ 16 = ts'.toNat / 2 ^ 16 ∧ seq.toNat % 2 ^ 62 = seq'.toNat % 2 ^ 62 := by
  have hhi := toNat_packTaskId_hi ts seq
  have hhi' := toNat_packTaskId_hi ts' seq'
  have hlo := toNat_packTaskId_lo ts seq
  have hlo' := toNat_packTaskId_lo ts' seq'
  have hmod := Nat.mod_lt (seq.toNat / 2 ^ 16) (Nat.two_pow_pos 12)
  have hmod' := Nat.mod_lt (seq'.toNat / 2 ^ 16) (Nat.two_pow_pos 12)
  constructor
  · intro h
    rw [h] at hhi hlo
    constructor
    · omega
    · omega
  · intro h
    have heq : (packTaskId ts seq).hi = (packTaskId ts' seq').hi := by
      apply BitVec.eq_of_toNat_eq
      rw [hhi, hhi']
      omega
    have heq' : (packTaskId ts seq).lo = (packTaskId ts' seq').lo := by
      apply BitVec.eq_of_toNat_eq
      rw [hlo, hlo']
      omega
    calc packTaskId ts seq = ⟨(packTaskId ts seq).hi, (packTaskId ts seq).lo⟩ := rfl
      _ = packTaskId ts' seq' := by rw [heq, heq']

/-! ## The ids of a run -/

/-- An id that is made: its dimension, how often this dimension was created or destroyed
before, the clock reading and the counter that the call finds. -/
structure Issue where
  dimension : Word
  life : ℕ
  ts : Word
  counter : Word
  deriving DecidableEq

namespace Issue

def id (p : Issue) : KernelTaskId :=
  packTaskId p.ts (p.counter + 1)

/-- The 48 bits of the clock that the id keeps. -/
def window (p : Issue) : ℕ :=
  p.ts.toNat / 2 ^ 16

/-- The two ids are of one dimension between its creation and its destruction. -/
def SameLife (p q : Issue) : Prop :=
  p.dimension = q.dimension ∧ p.life = q.life

instance (p q : Issue) : Decidable (p.SameLife q) :=
  inferInstanceAs (Decidable (_ ∧ _))

end Issue

/-- The id that a call makes. -/
def issue (k : Dimensions) (life : Word → ℕ) : Call → Option Issue
  | .generate d ts => if k.running = false then none else (k.counter d).map (⟨d, life d, ts, ·⟩)
  | _ => none

def changed (k : Dimensions) : Call → Option Word
  | .create => k.dimensionCreate.1.toOption
  | .destroy d => (k.dimensionDestroy d).1.toOption.map fun _ => d
  | .generate _ _ => none

def lifeAfter (k : Dimensions) (life : Word → ℕ) (c : Call) (d : Word) : ℕ :=
  if k.changed c = some d then life d + 1 else life d

/-- The ids made in a run, in order. -/
def issues : Dimensions → (Word → ℕ) → List Call → List Issue
  | _, _, [] => []
  | k, life, c :: cs =>
      (k.issue life c).toList ++ issues (k.step c).2 (k.lifeAfter life c) cs

/-- The ids returned in a run. -/
def ids (k : Dimensions) (cs : List Call) : List KernelTaskId :=
  (Transition.trace step k cs).filterMap fun p =>
    match p.2 with
    | .generated (.ok id) => some id
    | _ => none

theorem ids_eq_map_issues (k : Dimensions) (life : Word → ℕ) (cs : List Call) :
    k.ids cs = (k.issues life cs).map Issue.id := by
  induction cs generalizing k life with
  | nil => rfl
  | cons c cs ih =>
      rw [issues, List.map_append, ← ih]
      cases c with
      | create => rfl
      | destroy d => rfl
      | generate d ts =>
          have hfst := k.taskIdGenerate_fst d ts
          rw [ids, Transition.trace_cons]
          simp only [issue, step]
          by_cases hrunning : k.running = false
          · rw [if_pos hrunning] at hfst ⊢
            rw [hfst]
            rfl
          · rw [if_neg hrunning] at hfst ⊢
            cases hcounter : k.counter d with
            | none =>
                rw [hcounter] at hfst
                rw [hfst]
                rfl
            | some seq =>
                rw [hcounter] at hfst
                rw [hfst]
                rfl

/-! ## One life of a dimension -/

theorem life_le (k : Dimensions) (life : Word → ℕ) (cs : List Call) :
    ∀ p ∈ k.issues life cs, life p.dimension ≤ p.life := by
  induction cs generalizing k life with
  | nil =>
      intro p hp
      cases hp
  | cons c cs ih =>
      intro p hp
      cases List.mem_append.mp hp with
      | inl hp =>
          rw [Option.mem_toList] at hp
          cases c with
          | create => cases hp
          | destroy d => cases hp
          | generate d ts =>
              simp only [issue] at hp
              split at hp
              · cases hp
              · obtain ⟨seq, -, rfl⟩ := Option.map_eq_some_iff.mp hp
                exact le_rfl
      | inr hp =>
          refine le_trans ?_ (ih _ _ p hp)
          unfold lifeAfter
          split
          · exact Nat.le_succ _
          · exact le_rfl

section Life

variable {k : Dimensions} {life : Word → ℕ} {d : Word} {c : Call}

theorem issue_eq_some {p : Issue} (h : k.issue life c = some p) :
    ∃ ts n, c = .generate p.dimension ts ∧ k.running ≠ false ∧ k.counter p.dimension = some n ∧
      p = ⟨p.dimension, life p.dimension, ts, n⟩ := by
  cases c with
  | create => cases h
  | destroy d => cases h
  | generate d ts =>
      simp only [issue] at h
      split at h
      · cases h
      · next hrunning =>
          obtain ⟨n, hn, rfl⟩ := Option.map_eq_some_iff.mp h
          exact ⟨ts, n, rfl, hrunning, hn, rfl⟩

variable (life) in
theorem counter_step_of_other (hd : d ≠ 0) (hchanged : k.changed c ≠ some d)
    (hissue : ∀ p, k.issue life c = some p → p.dimension ≠ d) :
    (k.step c).2.counter d = k.counter d := by
  cases c with
  | create =>
      apply counter_create hd
      intro hok
      apply hchanged
      rw [changed, hok]
      rfl
  | destroy e =>
      apply counter_destroy hd
      intro hok hsame
      apply hchanged
      rw [changed, hok, hsame]
      rfl
  | generate e ts =>
      by_cases hsame : d = e
      · have hfst := k.taskIdGenerate_fst e ts
        by_cases hrunning : k.running = false
        · simp only [step, taskIdGenerate, if_pos hrunning]
        · cases hcounter : k.counter e with
          | none =>
              have hfind : k.dimFind e = none := by
                cases hi : k.dimFind e with
                | none => rfl
                | some i =>
                    rw [counter, getD_eq_of_findIdx? hi ⟨0, 0⟩] at hcounter
                    cases hcounter
              simp only [step, taskIdGenerate, if_neg hrunning, hfind]
          | some n =>
              have hsome : k.issue life (.generate e ts) = some ⟨e, life e, ts, n⟩ := by
                rw [issue, if_neg hrunning, hcounter]
                rfl
              exact absurd hsame.symm (hissue _ hsome)
      · exact counter_generate_other hsame

theorem issues_of_none (h : k.issue life c = none) (cs : List Call) :
    k.issues life (c :: cs) = (k.step c).2.issues (k.lifeAfter life c) cs := by
  rw [issues, h]
  rfl

theorem issues_of_some {p : Issue} (h : k.issue life c = some p) (cs : List Call) :
    k.issues life (c :: cs) = p :: (k.step c).2.issues (k.lifeAfter life c) cs := by
  rw [issues, h]
  rfl

theorem counter_step_of_issue {p : Issue} (h : k.issue life c = some p) :
    k.counter p.dimension = some p.counter ∧
      (k.step c).2.counter p.dimension = some (p.counter + 1) := by
  obtain ⟨ts, n, hc, hrunning, hn, hp⟩ := issue_eq_some h
  have hpn : p.counter = n := by
    rw [hp]
  have hok : (k.taskIdGenerate p.dimension ts).1 = .ok (packTaskId ts (n + 1)) := by
    rw [taskIdGenerate_fst, if_neg hrunning, hn]
  rw [hpn]
  refine ⟨hn, ?_⟩
  rw [hc]
  change (k.taskIdGenerate p.dimension ts).2.counter p.dimension = _
  rw [counter_generate_self hok, hn]
  rfl

theorem changed_ne_of_mem {cs : List Call} {q : Issue}
    (hmem : q ∈ (k.step c).2.issues (k.lifeAfter life c) cs) (hlife : q.life = life q.dimension) :
    k.changed c ≠ some q.dimension := by
  intro hchanged
  have hle := life_le _ _ cs q hmem
  rw [hlife, lifeAfter, if_pos hchanged] at hle
  exact Nat.not_succ_le_self _ hle

theorem counter_of_split (hd : d ≠ 0) {n : Word} (hn : k.counter d = some n) {cs : List Call}
    {between later : List Issue} {q : Issue}
    (hsplit : k.issues life cs = between ++ q :: later) (hq : q.dimension = d)
    (hlife : q.life = life d) :
    q.counter = n + BitVec.ofNat 64 (between.countP fun p => p.dimension = d) := by
  subst hq
  induction cs generalizing k life n between with
  | nil => cases List.append_eq_nil_iff.mp hsplit.symm |>.2
  | cons c cs ih =>
      cases hissue : k.issue life c with
      | none =>
          rw [issues_of_none hissue] at hsplit
          have hmem : q ∈ (k.step c).2.issues (k.lifeAfter life c) cs := by
            rw [hsplit]
            exact List.mem_append_right _ List.mem_cons_self
          have hchanged := changed_ne_of_mem hmem hlife
          have hsame : k.lifeAfter life c q.dimension = life q.dimension := if_neg hchanged
          have hcounter := counter_step_of_other life hd hchanged fun p hp =>
            absurd (hp.symm.trans hissue) (Option.some_ne_none p)
          exact ih hsplit (hcounter.trans hn) (hlife.trans hsame.symm)
      | some p =>
          rw [issues_of_some hissue] at hsplit
          obtain ⟨hfound, hnext⟩ := counter_step_of_issue hissue
          cases between with
          | nil =>
              obtain ⟨rfl, -⟩ := List.cons.inj hsplit
              rw [List.countP_nil, ← Option.some.inj (hfound.symm.trans hn)]
              exact (BitVec.add_zero _).symm
          | cons p' between =>
              obtain ⟨hhead, htail⟩ := List.cons.inj hsplit
              have hmem : q ∈ (k.step c).2.issues (k.lifeAfter life c) cs := by
                rw [htail]
                exact List.mem_append_right _ List.mem_cons_self
              have hchanged := changed_ne_of_mem hmem hlife
              have hsame : k.lifeAfter life c q.dimension = life q.dimension := if_neg hchanged
              by_cases hdim : p.dimension = q.dimension
              · rw [hdim] at hfound hnext
                rw [ih htail hnext (hlife.trans hsame.symm), ← hhead, List.countP_cons,
                  if_pos (decide_eq_true hdim), BitVec.ofNat_add,
                  Option.some.inj (hfound.symm.trans hn), BitVec.add_assoc, BitVec.add_comm 1]
                rfl
              · have hcounter := counter_step_of_other life hd hchanged fun p' hp' => by
                  rw [hissue] at hp'
                  rw [← Option.some.inj hp']
                  exact hdim
                rw [ih htail (hcounter.trans hn) (hlife.trans hsame.symm), ← hhead,
                  List.countP_cons, if_neg fun h => hdim (of_decide_eq_true h)]
                rfl

end Life

/-! ## Ids of one window -/

theorem countP_range_le {α : Type*} {l : List α} {P : α → Prop} [DecidablePred P] {f : α → ℕ}
    {m : ℕ} (h : ∀ t, l.countP (fun x => P x ∧ f x = t) ≤ m) (a n : ℕ) :
    l.countP (fun x => P x ∧ a ≤ f x ∧ f x < a + n) ≤ n * m := by
  induction n with
  | zero =>
      rw [List.countP_eq_zero.mpr]
      · exact Nat.zero_le _
      · intro x _ hx
        have hlt := (of_decide_eq_true hx).2
        omega
  | succ n ih =>
      have hsplit : l.countP (fun x => P x ∧ a ≤ f x ∧ f x < a + (n + 1)) ≤
          l.countP (fun x => P x ∧ a ≤ f x ∧ f x < a + n) +
            l.countP (fun x => P x ∧ f x = a + n) := by
        clear h ih
        induction l with
        | nil => exact Nat.zero_le _
        | cons x l ih =>
            simp only [List.countP_cons, decide_eq_true_eq]
            split_ifs
            all_goals grind
      calc _ ≤ _ := hsplit
        _ ≤ n * m + m := Nat.add_le_add ih (h (a + n))
        _ = (n + 1) * m := (Nat.succ_mul n m).symm

theorem Issue.id_eq_iff (p q : Issue) :
    p.id = q.id ↔
      p.window = q.window ∧ p.counter.toNat % 2 ^ 62 = q.counter.toNat % 2 ^ 62 := by
  have hsucc : ∀ n : Word, (n + 1).toNat % 2 ^ 62 = (n.toNat + 1) % 2 ^ 62 := by
    intro n
    rw [BitVec.toNat_add]
    change (n.toNat + 1) % 2 ^ 64 % 2 ^ 62 = _
    omega
  rw [Issue.id, Issue.id, packTaskId_eq_iff, hsucc, hsucc, Issue.window, Issue.window]
  omega

/-- Successive readings of the clock do not decrease. -/
def ClockMonotone (issues : List Issue) : Prop :=
  issues.Pairwise fun p q => p.ts.toNat ≤ q.ts.toNat

/-- Fewer than `2 ^ 28` ids for one dimension at one reading of the clock. -/
def RateBounded (issues : List Issue) : Prop :=
  ∀ d t, issues.countP (fun p => p.dimension = d ∧ p.ts.toNat = t) < 2 ^ 28

theorem RateBounded.window_le {l : List Issue} (h : RateBounded l) (d : Word) (w : ℕ) :
    l.countP (fun p => p.dimension = d ∧ p.window = w) ≤ 2 ^ 44 := by
  have hrange := countP_range_le (l := l) (P := fun p => p.dimension = d)
    (f := fun p => p.ts.toNat) (fun t => (h d t).le) (w * 2 ^ 16) (2 ^ 16)
  refine le_trans (le_of_eq ?_) hrange
  apply List.countP_congr
  intro p _
  rw [decide_eq_true_eq, decide_eq_true_eq, Issue.window]
  apply and_congr_right
  intro _
  omega

theorem countP_between_le {p q : Issue} {between later : List Issue}
    (hclock : ClockMonotone (p :: (between ++ q :: later)))
    (hrate : RateBounded (p :: (between ++ q :: later))) (hwindow : p.window = q.window)
    (d : Word) : between.countP (fun r => r.dimension = d) ≤ 2 ^ 44 := by
  obtain ⟨hfirst, htail⟩ := List.pairwise_cons.mp hclock
  have hlast := (List.pairwise_append.mp htail).2.2
  have hle : between.countP (fun r => r.dimension = d) ≤
      (p :: (between ++ q :: later)).countP
        (fun r => r.dimension = d ∧ r.window = p.window) := by
    rw [List.countP_cons, List.countP_append]
    refine le_trans ?_ (Nat.le_add_right _ _)
    refine le_trans ?_ (Nat.le_add_right _ _)
    apply List.countP_mono_left
    intro r hr hdim
    have hpr := hfirst r (List.mem_append_left _ hr)
    have hrq := hlast r hr q List.mem_cons_self
    apply decide_eq_true
    refine ⟨of_decide_eq_true hdim, ?_⟩
    unfold Issue.window at hwindow ⊢
    exact le_antisymm (hwindow ▸ Nat.div_le_div_right hrq) (Nat.div_le_div_right hpr)
  exact hle.trans (hrate.window_le d p.window)

theorem counter_ne_of_le {n : Word} {count : ℕ} (hcount : count ≤ 2 ^ 44) :
    n.toNat % 2 ^ 62 ≠ (n + 1 + BitVec.ofNat 64 count).toNat % 2 ^ 62 := by
  rw [BitVec.toNat_add, BitVec.toNat_add, BitVec.toNat_ofNat]
  change n.toNat % 2 ^ 62 ≠ ((n.toNat + 1) % 2 ^ 64 + count % 2 ^ 64) % 2 ^ 64 % 2 ^ 62
  omega

theorem counter_ne_of_sameLife {k : Dimensions} {life : Word → ℕ} {cs : List Call}
    (hlive : ∀ d ts, Call.generate d ts ∈ cs → d ≠ 0)
    (hclock : ClockMonotone (k.issues life cs)) (hrate : RateBounded (k.issues life cs)) :
    (k.issues life cs).Pairwise fun p q => p.SameLife q → p.window = q.window →
      p.counter.toNat % 2 ^ 62 ≠ q.counter.toNat % 2 ^ 62 := by
  induction cs generalizing k life with
  | nil => exact List.Pairwise.nil
  | cons c cs ih =>
      have hlive' : ∀ d ts, Call.generate d ts ∈ cs → d ≠ 0 :=
        fun d ts hmem => hlive d ts (List.mem_cons_of_mem _ hmem)
      cases hissue : k.issue life c with
      | none =>
          rw [issues_of_none hissue] at hclock hrate ⊢
          exact ih hlive' hclock hrate
      | some p =>
          rw [issues_of_some hissue] at hclock hrate ⊢
          apply List.pairwise_cons.mpr
          constructor
          · intro q hq hsame hwindow
            obtain ⟨ts, n, hc, -, -, hpeq⟩ := issue_eq_some hissue
            have hd : p.dimension ≠ 0 := by
              apply hlive _ ts
              rw [← hc]
              exact List.mem_cons_self
            have hlife : q.life = k.lifeAfter life c p.dimension := by
              have hpl : p.life = life p.dimension := by
                rw [hpeq]
              rw [← hsame.2, hpl, lifeAfter, hc]
              rfl
            obtain ⟨between, later, hsplit⟩ := List.append_of_mem hq
            have hcounter := counter_of_split hd (counter_step_of_issue hissue).2 hsplit
              hsame.1.symm hlife
            rw [hsplit] at hclock hrate
            rw [hcounter]
            exact counter_ne_of_le (countP_between_le hclock hrate hwindow p.dimension)
          · apply ih hlive' (List.pairwise_cons.mp hclock).2
            intro d t
            apply lt_of_le_of_lt _ (hrate d t)
            rw [List.countP_cons]
            exact Nat.le_add_right _ _

/-- The condition on the numbers that the calls find: of two ids of one window that do not
belong to one life of one dimension, the counters differ in their lower 62 bits. -/
def CountersApart (issues : List Issue) : Prop :=
  issues.Pairwise fun p q => p.window = q.window → ¬ p.SameLife q →
    p.counter.toNat % 2 ^ 62 ≠ q.counter.toNat % 2 ^ 62

instance (issues : List Issue) : Decidable (CountersApart issues) :=
  inferInstanceAs (Decidable (List.Pairwise _ _))

/-- The ids of a run are all different exactly when the counters are apart. -/
theorem ids_nodup_iff (k : Dimensions) (cs : List Call)
    (hlive : ∀ d ts, Call.generate d ts ∈ cs → d ≠ 0)
    (hclock : ClockMonotone (k.issues (fun _ => 0) cs))
    (hrate : RateBounded (k.issues (fun _ => 0) cs)) :
    (k.ids cs).Nodup ↔ CountersApart (k.issues (fun _ => 0) cs) := by
  have hsame := counter_ne_of_sameLife hlive hclock hrate
  rw [ids_eq_map_issues k (fun _ => 0), List.Nodup, List.pairwise_map]
  constructor
  · intro h
    apply h.imp
    intro p q hne hwindow _ hcounter
    exact hne ((p.id_eq_iff q).mpr ⟨hwindow, hcounter⟩)
  · intro h
    apply (h.and hsame).imp
    intro p q hpq heq
    obtain ⟨hwindow, hcounter⟩ := (p.id_eq_iff q).mp heq
    by_cases hlife : p.SameLife q
    · exact hpq.2 hlife hwindow hcounter
    · exact hpq.1 hwindow hlife hcounter

theorem ids_nodup_iff_sample :
    (initial.ids [.create, .create, .generate 1 0, .generate 1 0, .generate 2 70000]).Nodup := by
  have hissues : initial.issues (fun _ => 0)
      [.create, .create, .generate 1 0, .generate 1 0, .generate 2 70000] =
        [⟨1, 1, 0, 0⟩, ⟨1, 1, 0, 1⟩, ⟨2, 1, 70000, 0⟩] := rfl
  refine (ids_nodup_iff _ _ ?_ ?_ ?_).mpr ?_
  · intro d ts hmem
    simp only [List.mem_cons, List.not_mem_nil, or_false, reduceCtorEq, false_or,
      Call.generate.injEq] at hmem
    rcases hmem with ⟨rfl, -⟩ | ⟨rfl, -⟩ | ⟨rfl, -⟩
    all_goals decide
  · rw [hissues]
    unfold ClockMonotone
    decide
  · rw [hissues]
    intro d t
    exact lt_of_le_of_lt List.countP_le_length (by decide)
  · rw [hissues]
    decide

/-- The first ids of two dimensions made at one time are equal. -/
theorem exists_equal_ids :
    ClockMonotone (initial.issues (fun _ => 0) [.create, .create, .generate 1 0, .generate 2 0]) ∧
    RateBounded (initial.issues (fun _ => 0) [.create, .create, .generate 1 0, .generate 2 0]) ∧
    ¬ (initial.ids [.create, .create, .generate 1 0, .generate 2 0]).Nodup := by
  have hissues : initial.issues (fun _ => 0) [.create, .create, .generate 1 0, .generate 2 0] =
      [⟨1, 1, 0, 0⟩, ⟨2, 1, 0, 0⟩] := rfl
  have hids : initial.ids [.create, .create, .generate 1 0, .generate 2 0] =
      [⟨0x7000, 0x8000000000000001⟩, ⟨0x7000, 0x8000000000000001⟩] := rfl
  rw [hissues, hids]
  refine ⟨?_, ?_, ?_⟩
  · unfold ClockMonotone
    decide
  · intro d t
    exact lt_of_le_of_lt List.countP_le_length (by decide)
  · decide

end Dimensions

end Kernel

end InfinityOS
