import Mathlib

/-!
# Runs of a deterministic component

A component is a step function `step : σ → α → ω × σ`: a call `a` made in the
state `s` gives an answer and the next state. `final step s as` is the state
after the calls `as`, and `trace step s as` pairs each call with its answer.
`Along P step s as` says that every call of the run is made in a state that
admits it, so a condition on the caller is one hypothesis on the whole run.
-/

namespace Transition

variable {σ τ α ω β : Type*}

/-- The state reached from `s` by the calls `as`, made in order. -/
def final (step : σ → α → ω × σ) : σ → List α → σ
  | s, [] => s
  | s, a :: as => final step (step s a).2 as

/-- The state in which the call at `i` is made. -/
def before (step : σ → α → ω × σ) (s : σ) (as : List α) (i : ℕ) : σ :=
  final step s (as.take i)

/-- The calls of a run, each with the answer it got. -/
def trace (step : σ → α → ω × σ) : σ → List α → List (α × ω)
  | _, [] => []
  | s, a :: as => (a, (step s a).1) :: trace step (step s a).2 as

/-- Every call of the run is made in a state in which `P` admits it. -/
def Along (P : σ → α → Prop) (step : σ → α → ω × σ) : σ → List α → Prop
  | _, [] => True
  | s, a :: as => P s a ∧ Along P step (step s a).2 as

/-- `Along` for a test of the calls, as a test. -/
def testAlong (test : σ → α → Bool) (step : σ → α → ω × σ) : σ → List α → Bool
  | _, [] => true
  | s, a :: as => test s a && testAlong test step (step s a).2 as

/-- The number of calls of a run for which `p`, of the state before, the call,
its answer and the state after, is true. -/
def tally (p : σ → α → ω → σ → Bool) (step : σ → α → ω × σ) : σ → List α → ℕ
  | _, [] => 0
  | s, a :: as =>
      (p s a (step s a).1 (step s a).2).toNat + tally p step (step s a).2 as

@[simp] theorem final_nil (step : σ → α → ω × σ) (s : σ) :
    final step s [] = s := rfl

@[simp] theorem final_cons (step : σ → α → ω × σ) (s : σ) (a : α) (as : List α) :
    final step s (a :: as) = final step (step s a).2 as := rfl

@[simp] theorem trace_nil (step : σ → α → ω × σ) (s : σ) :
    trace step s [] = [] := rfl

@[simp] theorem trace_cons (step : σ → α → ω × σ) (s : σ) (a : α) (as : List α) :
    trace step s (a :: as) = (a, (step s a).1) :: trace step (step s a).2 as := rfl

/-- A run splits at every call boundary. -/
theorem final_append (step : σ → α → ω × σ) (s : σ) (as bs : List α) :
    final step s (as ++ bs) = final step (final step s as) bs := by
  induction as generalizing s with
  | nil => rfl
  | cons a as ih =>
      rw [List.cons_append, final_cons, final_cons, ih]

theorem final_concat (step : σ → α → ω × σ) (s : σ) (as : List α) (a : α) :
    final step s (as ++ [a]) = (step (final step s as) a).2 := by
  rw [final_append]
  rfl

theorem before_succ {step : σ → α → ω × σ} {s : σ} {as : List α} {i : ℕ} {a : α}
    (ha : as[i]? = some a) :
    before step s as (i + 1) = (step (before step s as i) a).2 := by
  unfold before
  rw [List.take_add_one, ha, Option.toList_some, final_concat]

theorem trace_append (step : σ → α → ω × σ) (s : σ) (as bs : List α) :
    trace step s (as ++ bs) =
      trace step s as ++ trace step (final step s as) bs := by
  induction as generalizing s with
  | nil => rfl
  | cons a as ih =>
      rw [List.cons_append, trace_cons, trace_cons, final_cons, ih,
        List.cons_append]

theorem tally_append (p : σ → α → ω → σ → Bool) (step : σ → α → ω × σ) (s : σ) (as bs : List α) :
    tally p step s (as ++ bs) = tally p step s as + tally p step (final step s as) bs := by
  induction as generalizing s with
  | nil => rw [List.nil_append, tally, final_nil, Nat.zero_add]
  | cons a as ih => rw [List.cons_append, tally, tally, final_cons, ih, Nat.add_assoc]

theorem along_of_testAlong {step : σ → α → ω × σ} {P : σ → α → Prop} {test : σ → α → Bool}
    (htest : ∀ s a, test s a = true → P s a) {s : σ} {as : List α}
    (has : testAlong test step s as = true) : Along P step s as := by
  induction as generalizing s with
  | nil => trivial
  | cons a as ih =>
      rw [testAlong, Bool.and_eq_true] at has
      exact ⟨htest s a has.1, ih has.2⟩

theorem along_of_forall {step : σ → α → ω × σ} {P : σ → α → Prop} {as : List α}
    (h : ∀ a ∈ as, ∀ s, P s a) (s : σ) : Along P step s as := by
  induction as generalizing s with
  | nil => trivial
  | cons a as ih =>
      exact ⟨h a List.mem_cons_self s, ih (fun b hb => h b (List.mem_cons_of_mem a hb)) _⟩

/-- A condition that does not look at the state. -/
theorem along_const {step : σ → α → ω × σ} {P : α → Prop} {s : σ} {as : List α} :
    Along (fun _ a => P a) step s as ↔ ∀ a ∈ as, P a := by
  induction as generalizing s with
  | nil => simp [Along]
  | cons a as ih => rw [Along, ih, List.forall_mem_cons]

theorem Along.mono {step : σ → α → ω × σ} {P Q : σ → α → Prop} {s : σ} {as : List α}
    (h : Along P step s as) (hPQ : ∀ s a, P s a → Q s a) : Along Q step s as := by
  induction as generalizing s with
  | nil => trivial
  | cons a as ih => exact ⟨hPQ s a h.1, ih h.2⟩

theorem along_and {step : σ → α → ω × σ} {P Q : σ → α → Prop} {s : σ} {as : List α} :
    Along (fun s a => P s a ∧ Q s a) step s as ↔ Along P step s as ∧ Along Q step s as := by
  induction as generalizing s with
  | nil => simp [Along]
  | cons a as ih =>
      unfold Along
      rw [ih, and_and_and_comm]

/-- Where the conditions agree in every state of an invariant that admitted calls keep,
they admit the same runs. -/
theorem along_congr {step : σ → α → ω × σ} {P Q : σ → α → Prop} (Inv : σ → Prop)
    (hiff : ∀ s a, Inv s → (P s a ↔ Q s a))
    (hkeep : ∀ s a, Inv s → P s a → Inv (step s a).2)
    {s : σ} (as : List α) (hs : Inv s) : Along P step s as ↔ Along Q step s as := by
  induction as generalizing s with
  | nil => exact Iff.rfl
  | cons a as ih =>
      constructor
      · rintro ⟨ha, has⟩
        exact ⟨(hiff s a hs).mp ha, (ih (hkeep s a hs ha)).mp has⟩
      · rintro ⟨ha, has⟩
        have hP := (hiff s a hs).mpr ha
        exact ⟨hP, (ih (hkeep s a hs hP)).mpr has⟩

/-- A condition that only looks at a view of the state, which takes steps of its own. -/
theorem along_map {step : σ → α → ω × σ} {step' : τ → α → β × τ} {P : τ → α → Prop}
    (view : σ → τ) (hview : ∀ s a, view (step s a).2 = (step' (view s) a).2)
    (s : σ) (as : List α) :
    Along (fun s a => P (view s) a) step s as ↔ Along P step' (view s) as := by
  induction as generalizing s with
  | nil => exact Iff.rfl
  | cons a as ih =>
      unfold Along
      rw [ih, hview]

/-- What holds at the start and is kept by every admitted call holds at the end
of every admitted run. -/
theorem invariant_final {step : σ → α → ω × σ} {P : σ → α → Prop}
    (Inv : σ → Prop)
    (hstep : ∀ s a, Inv s → P s a → Inv (step s a).2)
    {s : σ} {as : List α} (hs : Inv s) (has : Along P step s as) :
    Inv (final step s as) := by
  induction as generalizing s with
  | nil => exact hs
  | cons a as ih => exact ih (hstep s a hs has.1) has.2

/-- The same rule for an invariant that also looks at how often `p` has been true. -/
theorem invariant_tally {step : σ → α → ω × σ} {P : σ → α → Prop} {p : σ → α → ω → σ → Bool}
    (Inv : σ → ℕ → Prop)
    (hstep : ∀ s n a, Inv s n → P s a →
      Inv (step s a).2 (n + (p s a (step s a).1 (step s a).2).toNat))
    {s : σ} {n : ℕ} {as : List α} (hs : Inv s n) (has : Along P step s as) :
    Inv (final step s as) (n + tally p step s as) := by
  induction as generalizing s n with
  | nil => exact hs
  | cons a as ih =>
      rw [tally, ← Nat.add_assoc]
      exact ih (hstep s n a hs has.1) has.2

/-- The same rule for a component whose every call keeps the invariant. -/
theorem invariant_final_of_forall {step : σ → α → ω × σ} (Inv : σ → Prop)
    (hstep : ∀ s a, Inv s → Inv (step s a).2)
    {s : σ} (as : List α) (hs : Inv s) :
    Inv (final step s as) := by
  induction as generalizing s with
  | nil => exact hs
  | cons a as ih => exact ih (hstep s a hs)

/-- What every call made under an invariant answers, every call of a run answers. -/
theorem forall_trace {step : σ → α → ω × σ} (Inv : σ → Prop) {Q : α → ω → Prop}
    (hstep : ∀ s a, Inv s → Q a (step s a).1 ∧ Inv (step s a).2)
    {s : σ} (as : List α) (hs : Inv s) : ∀ call ∈ trace step s as, Q call.1 call.2 := by
  induction as generalizing s with
  | nil =>
      intro call hcall
      cases hcall
  | cons a as ih =>
      obtain ⟨hanswer, hnext⟩ := hstep s a hs
      rw [trace_cons, List.forall_mem_cons]
      exact ⟨hanswer, ih hnext⟩

/-- Every call of a run is admitted exactly if each is in the state that the calls before it
reach. -/
theorem along_iff_forall_initial {step : σ → α → ω × σ} {P : σ → α → Prop} {s : σ}
    {as : List α} :
    Along P step s as ↔ ∀ bs a, bs ++ [a] <+: as → P (final step s bs) a := by
  induction as generalizing s with
  | nil => simp [Along]
  | cons a as ih =>
      rw [Along, ih]
      constructor
      · rintro ⟨ha, has⟩ bs b hbs
        cases bs with
        | nil =>
            obtain ⟨rfl, -⟩ := List.cons_prefix_cons.mp hbs
            exact ha
        | cons c bs =>
            obtain ⟨rfl, htail⟩ := List.cons_prefix_cons.mp hbs
            exact has bs b htail
      · intro h
        refine ⟨h [] a ⟨as, rfl⟩, fun bs b hbs => ?_⟩
        exact h (a :: bs) b (List.cons_prefix_cons.mpr ⟨rfl, hbs⟩)

theorem Along.initial {step : σ → α → ω × σ} {P : σ → α → Prop} {s : σ} {as bs : List α}
    (h : Along P step s as) (hbs : bs <+: as) : Along P step s bs :=
  along_iff_forall_initial.mpr fun cs a hcs => along_iff_forall_initial.mp h cs a (hcs.trans hbs)

/-- If a call made under the invariant keeps it exactly when `P` admits the call, the
runs that have the invariant in every state are those whose every call is admitted. -/
theorem forall_reached_iff_along {step : σ → α → ω × σ} {P : σ → α → Prop}
    (Inv : σ → Prop) (hstep : ∀ s a, Inv s → (Inv (step s a).2 ↔ P s a))
    {s : σ} (as : List α) (hs : Inv s) :
    (∀ bs, bs <+: as → Inv (final step s bs)) ↔ Along P step s as := by
  induction as generalizing s with
  | nil =>
      refine ⟨fun _ => trivial, fun _ bs hbs => ?_⟩
      rw [List.prefix_nil.mp hbs]
      exact hs
  | cons a as ih =>
      constructor
      · intro h
        have hnext : Inv (step s a).2 := h [a] ⟨as, rfl⟩
        refine ⟨(hstep s a hs).mp hnext, (ih hnext).mp fun bs hbs => ?_⟩
        exact h (a :: bs) (List.cons_prefix_cons.mpr ⟨rfl, hbs⟩)
      · rintro ⟨ha, has⟩ bs hbs
        have hnext : Inv (step s a).2 := (hstep s a hs).mpr ha
        cases bs with
        | nil => exact hs
        | cons b bs =>
            obtain ⟨rfl, htail⟩ := List.cons_prefix_cons.mp hbs
            exact (ih hnext).mpr has bs htail

/-- Double-entry bookkeeping: if every call raises `level` by what `p` counts and
lowers it by what `q` and `r` count, the totals of a run balance. -/
theorem tally_balance {step : σ → α → ω × σ} {Inv : σ → Prop} (level : σ → ℕ)
    (p q r : σ → α → ω → σ → Bool)
    (hinv : ∀ s a, Inv s → Inv (step s a).2)
    (hstep : ∀ s a, Inv s →
      level s + (p s a (step s a).1 (step s a).2).toNat =
        level (step s a).2 + ((q s a (step s a).1 (step s a).2).toNat +
          (r s a (step s a).1 (step s a).2).toNat))
    {s : σ} (as : List α) (hs : Inv s) :
    level s + tally p step s as =
      level (final step s as) + (tally q step s as + tally r step s as) := by
  induction as generalizing s with
  | nil => rfl
  | cons a as ih =>
      have hhead := hstep s a hs
      have htail := ih (hinv s a hs)
      simp only [tally, final_cons]
      omega

/-- A run counts a kind of call at most once if the first such call establishes `done`,
which every admitted call keeps and which rules out another. -/
theorem tally_le_one {step : σ → α → ω × σ} {P : σ → α → Prop}
    {p : σ → α → ω → σ → Bool} (done : σ → Prop)
    (hdone : ∀ s a, p s a (step s a).1 (step s a).2 = true →
      ¬ done s ∧ done (step s a).2)
    (hkeep : ∀ s a, P s a → done s → done (step s a).2)
    {s : σ} {as : List α} (has : Along P step s as) :
    tally p step s as ≤ 1 ∧ (done s → tally p step s as = 0) := by
  induction as generalizing s with
  | nil => exact ⟨Nat.zero_le 1, fun _ => rfl⟩
  | cons a as ih =>
      obtain ⟨hle, hzero⟩ := ih has.2
      unfold tally
      cases hp : p s a (step s a).1 (step s a).2 with
      | true =>
          obtain ⟨hbefore, hafter⟩ := hdone s a hp
          rw [hzero hafter]
          exact ⟨Nat.le_refl 1, fun h => absurd h hbefore⟩
      | false =>
          rw [Bool.toNat_false, Nat.zero_add]
          exact ⟨hle, fun h => hzero (hkeep s a has.1 h)⟩

/-- Two components related by a simulation give the same observations on every
run of admitted calls and stay related. -/
theorem simulation {step₁ : σ → α → ω × σ} {step₂ : τ → α → ω × τ} {P : α → Prop}
    {R : σ → τ → Prop} {observe : ω → β}
    (hstep : ∀ s t a, R s t → P a → observe (step₁ s a).1 = observe (step₂ t a).1 ∧
      R (step₁ s a).2 (step₂ t a).2)
    {s : σ} {t : τ} {as : List α} (hR : R s t) (has : ∀ a ∈ as, P a) :
    (trace step₁ s as).map (fun p => (p.1, observe p.2)) =
        (trace step₂ t as).map (fun p => (p.1, observe p.2)) ∧
      R (final step₁ s as) (final step₂ t as) := by
  induction as generalizing s t with
  | nil => exact ⟨rfl, hR⟩
  | cons a as ih =>
      rw [List.forall_mem_cons] at has
      obtain ⟨hobs, hnext⟩ := hstep s t a hR has.1
      obtain ⟨htrace, hfinal⟩ := ih hnext has.2
      refine ⟨?_, hfinal⟩
      rw [trace_cons, trace_cons, List.map_cons, List.map_cons, hobs, htrace]

/-- The same rule for the runs whose every call is admitted. -/
theorem simulation_along {step₁ : σ → α → ω × σ} {step₂ : τ → α → ω × τ} {P : σ → α → Prop}
    {R : σ → τ → Prop}
    (hstep : ∀ s t a, R s t → P s a → (step₁ s a).1 = (step₂ t a).1 ∧
      R (step₁ s a).2 (step₂ t a).2)
    {s : σ} {t : τ} {as : List α} (hR : R s t) (has : Along P step₁ s as) :
    trace step₁ s as = trace step₂ t as ∧ R (final step₁ s as) (final step₂ t as) := by
  induction as generalizing s t with
  | nil => exact ⟨rfl, hR⟩
  | cons a as ih =>
      obtain ⟨hanswer, hnext⟩ := hstep s t a hR has.1
      obtain ⟨htrace, hfinal⟩ := ih hnext has.2
      refine ⟨?_, hfinal⟩
      rw [trace_cons, trace_cons, hanswer, htrace]

end Transition
