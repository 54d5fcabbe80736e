import InfinityOS.Transition.Reach

/-!
# Programs with one lock

The bodies of functions that share a state behind one lock, as trees: take the lock,
release it, read and write the shared state, wait for a callback, return. Threads run
such programs step by step in any order. `Disciplined` is a check of one program alone;
threads whose programs all pass it return without the lock and release it only when they
hold it, whatever the others do.
-/

namespace LockProgram

open Transition

/-- A program over the shared state `σ`, with callbacks that answer in `ω`, a result in
`ρ` and the sites of its accesses named in `τ`. -/
inductive Prog (σ ω ρ τ : Type*) where
  | ret (result : ρ)
  | lock (next : Prog σ ω ρ τ)
  | unlock (next : Prog σ ω ρ τ)
  /-- The state is written; what follows depends on the state before. -/
  | access (site : τ) (write : σ → σ) (next : σ → Prog σ ω ρ τ)
  | external (next : ω → Prog σ ω ρ τ)

/-- The program, started with the lock or without it, takes the lock only when it does not
hold it, releases it only when it does, and returns without it, if every access finds the
state as `ok` says. -/
def Disciplined {σ ω ρ τ : Type*} (ok : τ → σ → Prop) : Bool → Prog σ ω ρ τ → Prop
  | held, .ret _ => held = false
  | held, .lock next => held = false ∧ Disciplined ok true next
  | held, .unlock next => held = true ∧ Disciplined ok false next
  | held, .access site _ next => ∀ s, ok site s → Disciplined ok held (next s)
  | held, .external next => ∀ w, Disciplined ok held (next w)

variable {ι σ ω ρ τ : Type*}

/-- The result of a program and the state it leaves when no other thread is in a call;
`answers` are those of its callbacks, in order. -/
def Prog.alone : Prog σ ω ρ τ → (ℕ → ω) → σ → ρ × σ
  | .ret result, _, s => (result, s)
  | .lock next, answers, s => next.alone answers s
  | .unlock next, answers, s => next.alone answers s
  | .access _ write next, answers, s => (next s).alone answers (write s)
  | .external next, answers, s => (next (answers 0)).alone (fun n => answers (n + 1)) s

/-- The threads that are in a call, the one that holds the lock, and the shared state. -/
structure Machine (ι σ ω ρ τ : Type*) where
  thread : ι → Option (Prog σ ω ρ τ)
  holder : Option ι
  shared : σ

/-- A thread begins a call or makes its next step; the answer is for a callback. -/
inductive Label (ι σ ω ρ τ : Type*) where
  | call (i : ι) (program : Prog σ ω ρ τ)
  | run (i : ι) (answer : ω)

namespace Machine

def new (s : σ) : Machine ι σ ω ρ τ :=
  { thread := fun _ => none, holder := none, shared := s }

variable [DecidableEq ι]

def setThread (m : Machine ι σ ω ρ τ) (i : ι) (p : Option (Prog σ ω ρ τ)) :
    Machine ι σ ω ρ τ :=
  { m with thread := Function.update m.thread i p }

def step (m : Machine ι σ ω ρ τ) : Label ι σ ω ρ τ → Option (Machine ι σ ω ρ τ)
  | .call i program =>
      match m.thread i with
      | none => some (m.setThread i (some program))
      | some _ => none
  | .run i answer =>
      match m.thread i with
      | none => none
      | some (.ret _) => some (m.setThread i none)
      | some (.lock next) =>
          -- the lock may be held by another thread or by this one
          match m.holder with
          | some _ => none
          | none => some { m.setThread i (some next) with holder := some i }
      | some (.unlock next) => some { m.setThread i (some next) with holder := none }
      | some (.access _ write next) =>
          some { m.setThread i (some (next m.shared)) with shared := write m.shared }
      | some (.external next) => some (m.setThread i (some (next answer)))

end Machine

/-- A thread that is about to return does not hold the lock, and one that is about to
release it does. -/
def RespectsLock (m : Machine ι σ ω ρ τ) : Prop :=
  (∀ i result, m.thread i = some (.ret result) → m.holder ≠ some i) ∧
  ∀ i next, m.thread i = some (.unlock next) → m.holder = some i

/-- Every program that is called is disciplined, and every access finds what it relies
on. -/
def Admits (ok : τ → σ → Prop) (m : Machine ι σ ω ρ τ) : Label ι σ ω ρ τ → Prop
  | .call _ program => Disciplined ok false program
  | .run i _ => ∀ site write next, m.thread i = some (.access site write next) →
      ok site m.shared

/-- The rest of every thread's program fits what it holds. -/
structure Fits (ok : τ → σ → Prop) (m : Machine ι σ ω ρ τ) : Prop where
  idle : ∀ i, m.thread i = none → m.holder ≠ some i
  busy : ∀ i p, m.thread i = some p → ∀ held : Bool, (held = true ↔ m.holder = some i) →
    Disciplined ok held p

variable {ok : τ → σ → Prop} {m m' : Machine ι σ ω ρ τ}

theorem Fits.respectsLock (h : Fits ok m) : RespectsLock m := by
  constructor
  · intro i result hi hholder
    have hd := h.busy i _ hi true (by simp [hholder])
    cases hd
  · intro i next hi
    by_contra hholder
    have hd := h.busy i _ hi false (by simp [hholder])
    cases hd.1

theorem fits_new (s : σ) : Fits ok (.new s : Machine ι σ ω ρ τ) := by
  constructor
  · intro i _ hholder
    cases hholder
  · intro i p hi
    cases hi

variable [DecidableEq ι]

theorem Fits.update (h : Fits ok m) {i : ι} {q : Option (Prog σ ω ρ τ)}
    (hthread : m'.thread = Function.update m.thread i q)
    (hothers : ∀ j, j ≠ i → (m'.holder = some j ↔ m.holder = some j))
    (hidle : q = none → m'.holder ≠ some i)
    (hbusy : ∀ p, q = some p → ∀ held : Bool, (held = true ↔ m'.holder = some i) →
      Disciplined ok held p) : Fits ok m' := by
  constructor
  · intro j hj
    rw [hthread] at hj
    by_cases hji : j = i
    · subst hji
      rw [Function.update_self] at hj
      exact hidle hj
    · rw [Function.update_of_ne hji] at hj
      rw [ne_eq, hothers j hji]
      exact h.idle j hj
  · intro j p hj held hheld
    rw [hthread] at hj
    by_cases hji : j = i
    · subst hji
      rw [Function.update_self] at hj
      exact hbusy p hj held hheld
    · rw [Function.update_of_ne hji] at hj
      exact h.busy j p hj held (hheld.trans (hothers j hji))

theorem Fits.goOn (h : Fits ok m) {i : ι} {p : Prog σ ω ρ τ} (held : Bool)
    (hthread : m'.thread = Function.update m.thread i (some p))
    (hothers : ∀ j, j ≠ i → (m'.holder = some j ↔ m.holder = some j))
    (hheld : held = true ↔ m'.holder = some i) (hp : Disciplined ok held p) : Fits ok m' := by
  apply h.update hthread hothers
  · intro hidle
    cases hidle
  · intro q hq held' hheld'
    cases hq
    have heq : held' = held := Bool.eq_iff_iff.mpr (hheld'.trans hheld.symm)
    rw [heq]
    exact hp

theorem Fits.call {i : ι} {program : Prog σ ω ρ τ} (h : Fits ok m)
    (ha : Disciplined ok false program) (hstep : m.step (.call i program) = some m') :
    Fits ok m' := by
  simp only [Machine.step] at hstep
  split at hstep
  · next hidle =>
      cases hstep
      refine h.goOn false rfl (fun _ _ => Iff.rfl) ?_ ha
      simp [Machine.setThread, h.idle i hidle]
  · cases hstep

theorem Fits.run {i : ι} {answer : ω} (h : Fits ok m)
    (ha : ∀ site write next, m.thread i = some (.access site write next) → ok site m.shared)
    (hstep : m.step (.run i answer) = some m') : Fits ok m' := by
  simp only [Machine.step] at hstep
  split at hstep
  · cases hstep
  · next result hi =>
      cases hstep
      refine h.update rfl (fun _ _ => Iff.rfl) (fun _ => ?_) (fun p hp => nomatch hp)
      exact h.respectsLock.1 i result hi
  · next next hi =>
      split at hstep
      · cases hstep
      · next hfree =>
          cases hstep
          have hd := h.busy i _ hi false (by simp [hfree])
          refine h.goOn true rfl ?_ (by simp) hd.2
          intro j hj
          simp [hfree, Ne.symm hj]
  · next next hi =>
      cases hstep
      have hholder := h.respectsLock.2 i next hi
      have hd := h.busy i _ hi true (by simp [hholder])
      refine h.goOn false rfl ?_ (by simp) hd.2
      intro j hj
      simp [hholder, Ne.symm hj]
  · next site write next hi =>
      cases hstep
      have hd := h.busy i _ hi _ decide_eq_true_iff
      exact h.goOn _ rfl (fun _ _ => Iff.rfl) decide_eq_true_iff
        (hd m.shared (ha site write next hi))
  · next next hi =>
      cases hstep
      have hd := h.busy i _ hi _ decide_eq_true_iff
      exact h.goOn _ rfl (fun _ _ => Iff.rfl) decide_eq_true_iff (hd answer)

theorem Fits.step {a : Label ι σ ω ρ τ} (h : Fits ok m) (ha : Admits ok m a)
    (hstep : m.step a = some m') : Fits ok m' := by
  cases a with
  | call i program => exact h.call ha hstep
  | run i answer => exact h.run ha hstep

/-- In every interleaving of disciplined calls the lock is respected. -/
theorem respectsLock_of_reach {s : σ}
    (h : Reach (fun m a m' => Machine.step m a = some m') (Admits ok)
      (.new s : Machine ι σ ω ρ τ) m) : RespectsLock m :=
  (h.invariant (Fits ok) (fits_new s) fun _ _ _ hm ha hstep => hm.step ha hstep).respectsLock

end LockProgram
