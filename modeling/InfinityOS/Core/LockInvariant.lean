import InfinityOS.Core.LockProgram

/-!
# Invariants behind a lock

A lock protects a shared state and what is to hold of it, relative to a record of the writes
so far. The thread with the lock is the only one to write, so it knows the state; the others
know that the invariant holds when they get the lock. `Keeps` is a check of one program
alone; threads whose programs all pass it keep the invariant at every step, whatever the
order of their steps. A program that returns with the lock keeps it too.
-/

namespace LockProgram

open Transition

/-- The state that a lock protects: what a write adds to the record, and what holds of the
state at any time. -/
structure Resource (γ σ : Type*) where
  record : γ → σ → σ → γ
  inv : γ → σ → Prop
  record_self : ∀ g s, record g s s = g

variable {ι γ σ ω ρ τ : Type*}

/-- The program keeps the invariant; `known` is the record and the state, for a thread that
holds the lock. -/
def Keeps (R : Resource γ σ) : Option (γ × σ) → Prog σ ω ρ τ → Prop
  | _, .ret _ => True
  | none, .lock next => ∀ g s, R.inv g s → Keeps R (some (g, s)) next
  -- it waits for itself
  | some _, .lock _ => True
  | none, .unlock _ => False
  | some _, .unlock next => Keeps R none next
  | none, .access _ _ _ => False
  | some (g, s), .access _ write next =>
      R.inv (R.record g s (write s)) (write s) ∧
        Keeps R (some (R.record g s (write s), write s)) (next s)
  | known, .external next => ∀ w, Keeps R known (next w)

section Programs

variable {R : Resource γ σ} {g : γ} {s : σ} {site : τ} {write : σ → σ} {next : σ → Prog σ ω ρ τ}

theorem keeps_ret (result : ρ) (known : Option (γ × σ)) :
    Keeps R known (.ret result : Prog σ ω ρ τ) := by
  cases known with
  | none => trivial
  | some _ => trivial

theorem keeps_access_of_record_eq (hrecord : R.record g s (write s) = g)
    (h : R.inv g (write s)) (hnext : Keeps R (some (g, write s)) (next s)) :
    Keeps R (some (g, s)) (.access site write next) := by
  rw [Keeps, hrecord]
  exact ⟨h, hnext⟩

theorem keeps_look (hwrite : write s = s) (h : R.inv g s)
    (hnext : Keeps R (some (g, s)) (next s)) : Keeps R (some (g, s)) (.access site write next) := by
  rw [Keeps, hwrite, R.record_self]
  exact ⟨h, hnext⟩

/-- The program takes the lock and looks at the state; the invariant is all it knows. -/
theorem keeps_lock_look (hwrite : ∀ s, write s = s)
    (h : ∀ g s, R.inv g s → Keeps R (some (g, s)) (next s)) (known : Option (γ × σ)) :
    Keeps R known (.lock (.access site write next)) := by
  cases known with
  | none => exact fun g s hs => keeps_look (hwrite s) hs (h g s hs)
  | some _ => trivial

end Programs

/-- Every program that is called keeps the invariant, with the lock or without it. -/
def Label.Keeps (R : Resource γ σ) : Label ι σ ω ρ τ → Prop
  | .call _ program => ∀ known, LockProgram.Keeps R known program
  | .run _ _ => True

variable [DecidableEq ι] {R : Resource γ σ} {g g' : γ} {m m' : Machine ι σ ω ρ τ}

namespace Machine

/-- What a thread knows of the record and the state. -/
def known (m : Machine ι σ ω ρ τ) (g : γ) (i : ι) : Option (γ × σ) :=
  if m.holder = some i then some (g, m.shared) else none

theorem known_holder {i : ι} (h : m.holder = some i) : m.known g i = some (g, m.shared) :=
  if_pos h

theorem known_of_holder_ne {i : ι} (h : m.holder ≠ some i) : m.known g i = none :=
  if_neg h

def recordedStep (R : Resource γ σ) (x : γ × Machine ι σ ω ρ τ) (a : Label ι σ ω ρ τ) :
    Option (γ × Machine ι σ ω ρ τ) :=
  (x.2.step a).map fun m => (R.record x.1 x.2.shared m.shared, m)

end Machine

/-- The invariant holds, and the rest of every thread's program keeps it. -/
structure Kept (R : Resource γ σ) (g : γ) (m : Machine ι σ ω ρ τ) : Prop where
  shared : R.inv g m.shared
  threads : ∀ i p, m.thread i = some p → Keeps R (m.known g i) p

theorem kept_new {s : σ} (h : R.inv g s) : Kept R g (.new s : Machine ι σ ω ρ τ) := by
  constructor
  · exact h
  · intro i p hi
    cases hi

/-- One thread goes on with a program that keeps the invariant, given what it knows then; the
others know what they knew. -/
theorem Kept.update (h : Kept R g m) {i : ι} {q : Option (Prog σ ω ρ τ)}
    (hthread : m'.thread = Function.update m.thread i q) (hshared : R.inv g' m'.shared)
    (hothers : ∀ j, j ≠ i → m'.known g' j = m.known g j)
    (hself : ∀ p, q = some p → Keeps R (m'.known g' i) p) : Kept R g' m' := by
  refine ⟨hshared, fun j p hj => ?_⟩
  rw [hthread] at hj
  by_cases hji : j = i
  · subst hji
    rw [Function.update_self] at hj
    exact hself p hj
  · rw [Function.update_of_ne hji] at hj
    rw [hothers j hji]
    exact h.threads j p hj

theorem Kept.setThread (h : Kept R g m) (i : ι) {q : Option (Prog σ ω ρ τ)}
    (hself : ∀ p, q = some p → Keeps R (m.known g i) p) :
    Kept R (R.record g m.shared (m.setThread i q).shared) (m.setThread i q) := by
  rw [Machine.setThread, R.record_self]
  exact h.update rfl h.shared (fun _ _ => rfl) hself

theorem Kept.holder (h : Kept R g m) {i : ι} {p : Prog σ ω ρ τ} (hi : m.thread i = some p)
    (hp : ¬ Keeps R none p) : m.holder = some i := by
  by_contra hholder
  have hkeeps := h.threads i p hi
  rw [Machine.known_of_holder_ne hholder] at hkeeps
  exact hp hkeeps

theorem known_others {i j : ι} (h : m.holder = some i) (hji : j ≠ i) : m.known g j = none := by
  apply Machine.known_of_holder_ne
  rw [h, ne_eq, Option.some_inj]
  exact hji.symm

theorem Kept.call {i : ι} {program : Prog σ ω ρ τ} (h : Kept R g m)
    (ha : ∀ known, Keeps R known program) (hstep : m.step (.call i program) = some m') :
    Kept R (R.record g m.shared m'.shared) m' := by
  simp only [Machine.step] at hstep
  split at hstep
  · cases hstep
    refine h.setThread i fun p hp => ?_
    obtain rfl := Option.some.inj hp
    exact ha _
  · cases hstep

theorem Kept.run {i : ι} {answer : ω} (h : Kept R g m)
    (hstep : m.step (.run i answer) = some m') :
    Kept R (R.record g m.shared m'.shared) m' := by
  simp only [Machine.step] at hstep
  split at hstep
  · cases hstep
  · next result hi =>
      cases hstep
      refine h.setThread i fun p hp => ?_
      cases hp
  · next next hi =>
      split at hstep
      · cases hstep
      · next hfree =>
          cases hstep
          rw [Machine.setThread, R.record_self]
          have hnone (j : ι) : m.known g j = none :=
            Machine.known_of_holder_ne (by simp [hfree])
          have hkeeps := h.threads i _ hi
          rw [hnone] at hkeeps
          refine h.update rfl h.shared (fun j hji => ?_) fun p hp => ?_
          · rw [hnone]
            exact known_others rfl hji
          · obtain rfl := Option.some.inj hp
            rw [Machine.known_holder rfl]
            exact hkeeps g m.shared h.shared
  · next next hi =>
      cases hstep
      have hholder := h.holder hi fun hp => hp
      have hkeeps := h.threads i _ hi
      rw [Machine.known_holder hholder] at hkeeps
      rw [Machine.setThread, R.record_self]
      refine h.update rfl h.shared (fun j hji => ?_) fun p hp => ?_
      · rw [known_others hholder hji]
        exact Machine.known_of_holder_ne (by simp)
      · obtain rfl := Option.some.inj hp
        rw [Machine.known_of_holder_ne (by simp)]
        exact hkeeps
  · next site write next hi =>
      cases hstep
      have hholder := h.holder hi fun hp => hp
      have hkeeps := h.threads i _ hi
      rw [Machine.known_holder hholder] at hkeeps
      refine h.update rfl hkeeps.1 (fun j hji => ?_) fun p hp => ?_
      · rw [known_others hholder hji]
        exact known_others hholder hji
      · obtain rfl := Option.some.inj hp
        rw [Machine.known_holder]
        · exact hkeeps.2
        · exact hholder
  · next next hi =>
      cases hstep
      refine h.setThread i fun p hp => ?_
      obtain rfl := Option.some.inj hp
      have hkeeps := h.threads i _ hi
      unfold Keeps at hkeeps
      exact hkeeps answer

/-- In every interleaving of programs that keep the invariant it holds at every moment. -/
theorem inv_of_reach {s : σ} (hs : R.inv g s)
    (h : Reach (fun x a y => Machine.recordedStep R x a = some y) (fun _ a => a.Keeps R)
      (g, (.new s : Machine ι σ ω ρ τ)) (g', m)) : R.inv g' m.shared := by
  refine (h.invariant (fun x => Kept R x.1 x.2) (kept_new hs) ?_).shared
  rintro ⟨k, n⟩ a y hn ha hstep
  obtain ⟨n', hnext, rfl⟩ := Option.map_eq_some_iff.mp hstep
  cases a with
  | call i program => exact hn.call ha hnext
  | run i answer => exact hn.run hnext

end LockProgram
