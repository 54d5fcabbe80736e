import InfinityOS.Kernel.Arena

/-!
# Growth of the arena

A request that fits into none of the slabs from the current one on makes the
arena append a slab and try again. The capacity of the new slab comes from the
request alone, its padding from the address that `calloc` returns: the data begin
24 bytes behind a multiple of 16. `FreshFits` says when the new slab holds the
request wherever it is put; when it does not, the arena goes on appending.
-/

namespace InfinityOS

namespace Kernel

open Words Loop

/-- Memory that is never exhausted and whose blocks are aligned to 16 bytes. -/
structure Heap where
  calloc : ℕ → Word → Word
  calloc_aligned : ∀ n size, 16 ∣ (calloc n size).toNat

def Heap.answer (heap : Heap) (n : ℕ) (size : Word) : Option Word :=
  some (heap.calloc n size)

/-- An alignment that `ify_arena_alloc` takes as it is. -/
def ValidAlignment (alignment : Word) : Prop :=
  alignment ≠ 0 ∧ alignment ≤ maxAlign ∧ alignment &&& (alignment - 1) = 0

namespace Arena

/-! ## Rounds -/

section Rounds

variable {calloc : ℕ → Word → Option Word} {size alignment : Word} {a : Arena}

theorem allocRound_of_fits (h : a.current.Fits size alignment) :
    allocRound calloc size alignment a =
      .inl (.returned (some (a.current.aligned alignment)) (a.bump size alignment)) := by
  rw [allocRound, if_pos h]

theorem allocRound_of_next {s : Slab} {rest : List Slab}
    (h : ¬ a.current.Fits size alignment) (hafter : a.after = s :: rest) :
    allocRound calloc size alignment a = .inr (a.moveTo s rest) := by
  rw [allocRound, if_neg h, hafter]

variable (calloc) in
theorem allocRound_of_end (h : ¬ a.current.Fits size alignment) (hafter : a.after = []) :
    allocRound calloc size alignment a =
      match slabNew (calloc a.slabs.length) (newCap size alignment) with
      | .null => .inl (.returned none a)
      | .overrun => .inl .overrun
      | .slab s => .inr (a.moveTo s []) := by
  rw [allocRound, if_neg h]
  cases slabNew (calloc a.slabs.length) (newCap size alignment) with
  | null => simp only [hafter]
  | overrun => simp only [hafter]
  | slab s => simp only [hafter]

theorem slabs_moveTo {s : Slab} {rest : List Slab} (hafter : a.after = s :: rest) :
    (a.moveTo s rest).slabs = a.slabs := by
  rw [slabs, slabs, moveTo, hafter, List.append_assoc]
  rfl

theorem slabs_moveTo_end {s : Slab} (hafter : a.after = []) :
    (a.moveTo s []).slabs = a.slabs ++ [s] := by
  rw [slabs, slabs, moveTo, hafter]

theorem length_slabs_bump : (a.bump size alignment).slabs.length = a.slabs.length := by
  rw [slabs, slabs, bump, List.length_append, List.length_append, List.length_cons,
    List.length_cons]

variable (calloc) in
theorem ends_of_fits (a : Arena) (h : ∃ s ∈ a.current :: a.after, s.Fits size alignment) :
    ∃ ptr a', Ends (allocRound calloc size alignment) a (.returned ptr a') ∧
      a'.slabs.length = a.slabs.length := by
  induction hafter : a.after generalizing a with
  | nil =>
      rw [hafter] at h
      obtain ⟨s, hs, hfits⟩ := h
      rw [List.mem_singleton.mp hs] at hfits
      exact ⟨_, _, (ends_of_inl (allocRound_of_fits hfits)).mpr rfl, length_slabs_bump⟩
  | cons s rest ih =>
      by_cases hfits : a.current.Fits size alignment
      · exact ⟨_, _, (ends_of_inl (allocRound_of_fits hfits)).mpr rfl, length_slabs_bump⟩
      · have hrest : ∃ t ∈ (a.moveTo s rest).current :: (a.moveTo s rest).after,
            t.Fits size alignment := by
          obtain ⟨t, ht, htfits⟩ := h
          rw [hafter] at ht
          rcases List.mem_cons.mp ht with rfl | ht
          · exact absurd htfits hfits
          · exact ⟨t, ht, htfits⟩
        obtain ⟨ptr, a', hends, hlength⟩ := ih (a.moveTo s rest) hrest rfl
        rw [slabs_moveTo hafter] at hlength
        exact ⟨ptr, a', (ends_of_inr (allocRound_of_next hfits hafter)).mpr hends, hlength⟩

variable (calloc) in
theorem exists_end (a : Arena) (h : ∀ s ∈ a.current :: a.after, ¬ s.Fits size alignment) :
    ∃ b : Arena, b.after = [] ∧ ¬ b.current.Fits size alignment ∧ b.slabs = a.slabs ∧
      ∀ o, Ends (allocRound calloc size alignment) a o ↔
        Ends (allocRound calloc size alignment) b o := by
  induction hafter : a.after generalizing a with
  | nil => exact ⟨a, hafter, h _ List.mem_cons_self, rfl, fun o => Iff.rfl⟩
  | cons s rest ih =>
      have hfits : ¬ a.current.Fits size alignment := h _ List.mem_cons_self
      have hrest : ∀ t ∈ (a.moveTo s rest).current :: (a.moveTo s rest).after,
          ¬ t.Fits size alignment := by
        intro t ht
        apply h
        rw [hafter]
        exact List.mem_cons_of_mem _ ht
      obtain ⟨b, hend, hb, hslabs, hends⟩ := ih (a.moveTo s rest) hrest rfl
      refine ⟨b, hend, hb, hslabs.trans (slabs_moveTo hafter), fun o => ?_⟩
      rw [ends_of_inr (allocRound_of_next hfits hafter), hends]

theorem length_of_round {r : Outcome ⊕ Arena} (h : allocRound calloc size alignment a = r) :
    (∀ ptr a', r = .inl (.returned ptr a') → a'.slabs.length = a.slabs.length) ∧
      ∀ b, r = .inr b → a.slabs.length ≤ b.slabs.length := by
  subst h
  by_cases hfits : a.current.Fits size alignment
  · rw [allocRound_of_fits hfits]
    constructor
    · intro ptr a' heq
      cases heq
      exact length_slabs_bump
    · intro b heq
      cases heq
  cases hafter : a.after with
  | cons s rest =>
      rw [allocRound_of_next hfits hafter]
      constructor
      · intro ptr a' heq
        cases heq
      · intro b heq
        cases heq
        rw [slabs_moveTo hafter]
  | nil =>
      rw [allocRound_of_end _ hfits hafter]
      cases slabNew (calloc a.slabs.length) (newCap size alignment) with
      | null =>
          constructor
          · intro ptr a' heq
            cases heq
            rfl
          · intro b heq
            cases heq
      | overrun =>
          constructor
          · intro ptr a' heq
            cases heq
          · intro b heq
            cases heq
      | slab s =>
          constructor
          · intro ptr a' heq
            cases heq
          · intro b heq
            cases heq
            rw [slabs_moveTo_end hafter, List.length_append]
            exact Nat.le_add_right _ _

theorem length_le_of_ends {ptr : Option Word} {a' : Arena}
    (h : Ends (allocRound calloc size alignment) a (.returned ptr a')) :
    a.slabs.length ≤ a'.slabs.length := by
  refine h.invariant (fun b => a.slabs.length ≤ b.slabs.length)
    (fun o => ∀ p b, o = .returned p b → a.slabs.length ≤ b.slabs.length)
    le_rfl ?_ ?_ ptr a' rfl
  · intro b b' hb hround
    exact hb.trans ((length_of_round hround).2 b' rfl)
  · intro b o hb hround p b' ho
    subst ho
    rw [(length_of_round hround).1 p b' rfl]
    exact hb

end Rounds

end Arena

/-! ## The appended slab -/

/-- The capacity of the slab appended for a request. -/
def freshCap (size alignment : Word) : Word :=
  if Arena.newCap size alignment < defaultCap then defaultCap
  else Arena.newCap size alignment

/-- The slab that is appended to a chain of `n` slabs. -/
def Heap.fresh (heap : Heap) (n : ℕ) (size alignment : Word) : Slab :=
  { addr := heap.calloc n (headerSize + freshCap size alignment)
    cap := freshCap size alignment
    used := 0 }

/-- The appended slab has its header inside its block and holds the request. -/
def Heap.Serves (heap : Heap) (n : ℕ) (size alignment : Word) : Prop :=
  headerSize ≤ headerSize + freshCap size alignment ∧
    (heap.fresh n size alignment).Fits size alignment

theorem slabNew_answer (heap : Heap) (n : ℕ) (size alignment : Word) :
    slabNew (heap.answer n) (Arena.newCap size alignment) =
      if headerSize + freshCap size alignment < headerSize then .overrun
      else .slab (heap.fresh n size alignment) := rfl

theorem ends_iff_serves (heap : Heap) {size alignment : Word} {a : Arena}
    (h : ∀ s ∈ a.current :: a.after, ¬ s.Fits size alignment) :
    (∃ ptr a', Ends (Arena.allocRound heap.answer size alignment) a (.returned ptr a') ∧
      a'.slabs.length ≤ a.slabs.length + 1) ↔
      heap.Serves a.slabs.length size alignment := by
  obtain ⟨b, hend, hb, hslabs, hends⟩ :=
    Arena.exists_end heap.answer a h
  have hround := Arena.allocRound_of_end heap.answer hb hend
  rw [slabNew_answer, hslabs] at hround
  simp only [hends]
  by_cases hheader : headerSize + freshCap size alignment < headerSize
  · -- the header is written beyond its block
    rw [if_pos hheader] at hround
    constructor
    · rintro ⟨ptr, a', hrun, -⟩
      cases (ends_of_inl hround).mp hrun
    · intro hserves
      exact absurd hheader (BitVec.not_lt.mpr hserves.1)
  rw [if_neg hheader] at hround
  have hlength : (b.moveTo (heap.fresh a.slabs.length size alignment) []).slabs.length =
      a.slabs.length + 1 := by
    rw [Arena.slabs_moveTo_end hend, hslabs, List.length_append, List.length_singleton]
  simp only [ends_of_inr hround]
  generalize hg : b.moveTo (heap.fresh a.slabs.length size alignment) [] = grown at hround hlength
  have hcurrent : grown.current = heap.fresh a.slabs.length size alignment := by
    rw [← hg]
    rfl
  have hafter : grown.after = [] := by
    rw [← hg]
    rfl
  constructor
  · rintro ⟨ptr, a', hrun, hle⟩
    refine ⟨BitVec.not_lt.mp hheader, ?_⟩
    by_contra hfits
    rw [← hcurrent] at hfits
    -- a second slab is appended
    have hround' := Arena.allocRound_of_end heap.answer hfits hafter
    rw [slabNew_answer, if_neg hheader] at hround'
    have hgrown := Arena.length_le_of_ends ((ends_of_inr hround').mp hrun)
    rw [Arena.slabs_moveTo_end hafter, List.length_append, List.length_singleton] at hgrown
    omega
  · intro hserves
    have hfits : grown.current.Fits size alignment := by
      rw [hcurrent]
      exact hserves.2
    refine ⟨_, _, (ends_of_inl (Arena.allocRound_of_fits hfits)).mpr rfl, ?_⟩
    rw [Arena.length_slabs_bump, hlength]

/-! ## Room in the appended slab -/

/-- The appended slab holds `size` bytes at an `alignment`, whatever its address. -/
def FreshFits (size alignment : ℕ) : Prop :=
  if size ≤ 65536 then alignment ≤ 8 ∨ size + alignment ≤ 65544
  else size + alignment + 24 < 2 ^ 64 ∨ (16 ≤ alignment ∧ 2 ^ 64 ≤ size + 8)

theorem exists_twoPow_of_valid {alignment : Word} (h : ValidAlignment alignment) :
    ∃ k ≤ 12, alignment = BitVec.twoPow 64 k := by
  obtain ⟨k, hk, rfl⟩ := (exists_twoPow_iff alignment).mpr ⟨h.1, h.2.2⟩
  refine ⟨k, ?_, rfl⟩
  have hle := BitVec.le_def.mp h.2.1
  rw [BitVec.toNat_twoPow_of_lt hk] at hle
  exact (Nat.pow_le_pow_iff_right Nat.one_lt_two).mp (hle.trans_eq rfl)

theorem toNat_freshCap (size : Word) {alignment : Word} (halign : alignment.toNat ≤ 4096) :
    (freshCap size alignment).toNat =
      if size.toNat ≤ 65536 then 65536
      else if size.toNat + alignment.toNat < 2 ^ 64 then size.toNat + alignment.toNat
      else 65536 := by
  have hdefault : defaultCap.toNat = 65536 := rfl
  have hsize := size.isLt
  have hcap : (Arena.newCap size alignment).toNat =
      if size.toNat ≤ 65536 then 65536 else (size.toNat + alignment.toNat) % 2 ^ 64 := by
    simp only [Arena.newCap, gt_iff_lt, BitVec.lt_def, hdefault]
    split_ifs with hlarge hsmall hsmall
    · omega
    · exact BitVec.toNat_add _ _
    · exact hdefault
    · omega
  simp only [freshCap, apply_ite BitVec.toNat, BitVec.lt_def, hcap, hdefault]
  split_ifs
  all_goals omega

theorem serves_iff (heap : Heap) (n : ℕ) (size alignment : Word) :
    heap.Serves n size alignment ↔ 24 + (freshCap size alignment).toNat < 2 ^ 64 ∧
      ((padding (heap.calloc n (headerSize + freshCap size alignment) + headerSize)
        alignment).toNat + size.toNat) % 2 ^ 64 ≤ (freshCap size alignment).toNat := by
  have hheader : headerSize ≤ headerSize + freshCap size alignment ↔
      24 + (freshCap size alignment).toNat < 2 ^ 64 := by
    have hlt := (freshCap size alignment).isLt
    rw [BitVec.le_def, BitVec.toNat_add]
    change 24 ≤ (24 + _) % _ ↔ _
    omega
  have hptr : (heap.fresh n size alignment).ptrVal =
      heap.calloc n (headerSize + freshCap size alignment) + headerSize := by
    exact BitVec.add_zero _
  rw [Heap.Serves, hheader, Slab.Fits, Slab.needed, Slab.pad, Slab.aligned, hptr, BitVec.le_def]
  change _ ∧ (0#64 + (padding _ alignment + size)).toNat ≤ _ ↔ _
  rw [BitVec.zero_add, BitVec.toNat_add]
  rfl

theorem padding_header {addr : Word} (haddr : 16 ∣ addr.toNat) {k : ℕ} (hk : k < 64) :
    (2 ^ k ≤ 8 → (padding (addr + headerSize) (BitVec.twoPow 64 k)).toNat = 0) ∧
      (8 < 2 ^ k → 8 ≤ (padding (addr + headerSize) (BitVec.twoPow 64 k)).toNat ∧
        (padding (addr + headerSize) (BitVec.twoPow 64 k)).toNat + 8 ≤ 2 ^ k) := by
  have hlt := padding_lt hk (addr + headerSize)
  have hdvd := dvd_add_padding hk (addr + headerSize)
  have hbase : (addr + headerSize).toNat % 16 = 8 := by
    rw [BitVec.toNat_add]
    change (addr.toNat + 24) % 2 ^ 64 % 16 = 8
    omega
  generalize (addr + headerSize).toNat = base at hbase hdvd
  generalize (padding (addr + headerSize) (BitVec.twoPow 64 k)).toNat = pad at hlt hdvd
  constructor
  · intro hsmall
    have hle : k ≤ 3 := (Nat.pow_le_pow_iff_right Nat.one_lt_two).mp hsmall
    have height : 2 ^ k ∣ 8 := Nat.pow_dvd_pow 2 hle
    have hmul : 2 ^ k ∣ base := height.trans (by omega)
    exact Nat.eq_zero_of_dvd_of_lt ((Nat.dvd_add_right hmul).mp hdvd) hlt
  · intro hlarge
    have hle : 4 ≤ k := (Nat.pow_lt_pow_iff_right Nat.one_lt_two).mp hlarge
    have hsixteen : 16 ∣ 2 ^ k := Nat.pow_dvd_pow 2 hle
    have hsum : 16 ∣ base + pad := hsixteen.trans hdvd
    omega

theorem padding_header_reached {addr : Word} {k : ℕ} (hk : k ≤ 12) (hlarge : 8 < 2 ^ k) :
    (addr.toNat % 4096 = 4064 →
      (padding (addr + headerSize) (BitVec.twoPow 64 k)).toNat = 8) ∧
    (addr.toNat % 4096 = 4080 →
      (padding (addr + headerSize) (BitVec.twoPow 64 k)).toNat + 8 = 2 ^ k) := by
  have hlt := padding_lt (show k < 64 by omega) (addr + headerSize)
  have hdvd := dvd_add_padding (show k < 64 by omega) (addr + headerSize)
  have hpage : 2 ^ k ∣ 4096 := Nat.pow_dvd_pow 2 hk
  have hbase : (addr + headerSize).toNat % 4096 = (addr.toNat + 24) % 4096 := by
    rw [BitVec.toNat_add]
    change (addr.toNat + 24) % 2 ^ 64 % 4096 = _
    omega
  have hresidue : ∀ c, addr.toNat % 4096 = c →
      2 ^ k ∣ c + 24 + (padding (addr + headerSize) (BitVec.twoPow 64 k)).toNat := by
    intro c hc
    have hmod : (c + 24) % 4096 = (addr + headerSize).toNat % 4096 := by
      rw [hbase, ← hc, Nat.mod_add_mod]
    exact ((Nat.ModEq.of_dvd hpage hmod).add_right _).dvd_iff dvd_rfl |>.mpr hdvd
  generalize (padding (addr + headerSize) (BitVec.twoPow 64 k)).toNat = pad at hlt hresidue
  constructor
  · intro haddr
    have hnext : 2 ^ k ∣ 4064 + 24 + 8 := hpage
    have hmod : 4064 + 24 + pad ≡ 4064 + 24 + 8 [MOD 2 ^ k] :=
      (Nat.modEq_zero_iff_dvd.mpr (hresidue 4064 haddr)).trans
        (Nat.modEq_zero_iff_dvd.mpr hnext).symm
    exact hmod.add_left_cancel'.eq_of_lt_of_lt hlt hlarge
  · intro haddr
    have hsum : 2 ^ k ∣ 4096 + (pad + 8) := by
      have hdvd' := hresidue 4080 haddr
      rw [show 4080 + 24 + pad = 4096 + (pad + 8) by omega] at hdvd'
      exact hdvd'
    apply Nat.eq_of_dvd_of_lt_two_mul (Nat.succ_ne_zero _) ((Nat.dvd_add_right hpage).mp hsum)
    omega

/-- Memory in which the blocks lie at the offset `r` in a page, spaced by `2 ^ 20`. -/
def Heap.spaced (r : ℕ) (hr : 16 ∣ r) : Heap where
  calloc n _ := BitVec.ofNat 64 (r + n * 2 ^ 20)
  calloc_aligned n _ := by
    rw [BitVec.toNat_ofNat]
    omega

theorem spaced_calloc (r : ℕ) (hr : 16 ∣ r) (n : ℕ) (size : Word) :
    ((Heap.spaced r hr).calloc n size).toNat % 4096 = r % 4096 := by
  change (BitVec.ofNat 64 (r + n * 2 ^ 20)).toNat % 4096 = _
  rw [BitVec.toNat_ofNat]
  omega

theorem forall_serves_iff {size alignment : Word} (hvalid : ValidAlignment alignment) (n : ℕ) :
    (∀ heap : Heap, heap.Serves n size alignment) ↔
      FreshFits size.toNat alignment.toNat := by
  obtain ⟨k, hk, rfl⟩ := exists_twoPow_of_valid hvalid
  have hlt : k < 64 := by
    omega
  have hnat : (BitVec.twoPow 64 k).toNat = 2 ^ k := BitVec.toNat_twoPow_of_lt hlt
  have hmax : 2 ^ k ≤ 4096 := Nat.pow_le_pow_right (by omega) hk
  have hsize := size.isLt
  have hsixteen : 8 < 2 ^ k → 2 ^ 4 ≤ 2 ^ k := fun h =>
    Nat.pow_le_pow_right Nat.two_pos ((Nat.pow_lt_pow_iff_right Nat.one_lt_two).mp h)
  have hcap := toNat_freshCap size (hnat.trans_le hmax)
  rw [hnat] at hcap ⊢
  constructor
  · intro h
    -- the offsets in a page at which the padding is smallest and largest
    have hmin := (serves_iff _ n size _).mp (h (Heap.spaced 4064 (by omega)))
    have hmax := (serves_iff _ n size _).mp (h (Heap.spaced 4080 (by omega)))
    unfold FreshFits
    by_cases hsmall : 2 ^ k ≤ 8
    · rw [(padding_header (Heap.calloc_aligned _ _ _) hlt).1 hsmall, hcap] at hmin
      split_ifs at hmin ⊢
      all_goals omega
    · have hlarge := not_le.mp hsmall
      have hlow := (padding_header_reached hk hlarge).1 (spaced_calloc 4064 (by omega) n
        (headerSize + freshCap size (BitVec.twoPow 64 k)))
      have hhigh := (padding_header_reached hk hlarge).2 (spaced_calloc 4080 (by omega) n
        (headerSize + freshCap size (BitVec.twoPow 64 k)))
      rw [hlow, hcap] at hmin
      rw [hcap] at hmax
      have hwide := hsixteen hlarge
      split_ifs at hmin hmax ⊢
      all_goals omega
  · intro h heap
    have hpad := padding_header (heap.calloc_aligned n
      (headerSize + freshCap size (BitVec.twoPow 64 k))) hlt
    rw [serves_iff, hcap]
    unfold FreshFits at h
    by_cases hsmall : 2 ^ k ≤ 8
    · rw [hpad.1 hsmall]
      split_ifs at h ⊢
      all_goals omega
    · obtain ⟨hlow, hhigh⟩ := hpad.2 (not_le.mp hsmall)
      split_ifs at h ⊢
      all_goals omega

/-! ## Termination -/

/-- A call on the arena returns, with at most one slab more than before. -/
def ReturnsWithOneSlab (heap : Heap) (a : Arena) (size alignment : Word) : Prop :=
  ∃ fuel ptr a', a.alloc heap.answer fuel size alignment = some (.returned ptr a') ∧
    a'.slabs.length ≤ a.slabs.length + 1

theorem alloc_eq_run (calloc : ℕ → Word → Option Word) (fuel : ℕ) (a : Arena)
    {size alignment : Word} (hsize : size ≠ 0) (hvalid : ValidAlignment alignment) :
    a.alloc calloc fuel size alignment =
      run (Arena.allocRound calloc size alignment) fuel a := by
  have hcheck : ¬ (alignment > maxAlign ∨ alignment &&& (alignment - 1) ≠ 0) := by
    rintro (hlarge | hmask)
    · exact BitVec.not_lt.mpr hvalid.2.1 hlarge
    · exact hmask hvalid.2.2
  rw [Arena.alloc, if_neg hsize]
  dsimp only
  rw [if_neg hvalid.1, if_neg hcheck]

/-- Exactly when a call returns and appends at most one slab, wherever the memory
lies: a slab from the current one on has room, or the appended one does. -/
theorem alloc_returns_iff (a : Arena) (size alignment : Word) (hsize : size ≠ 0)
    (hvalid : ValidAlignment alignment) :
    (∀ heap : Heap, ReturnsWithOneSlab heap a size alignment) ↔
      (∃ s ∈ a.current :: a.after, s.Fits size alignment) ∨
        FreshFits size.toNat alignment.toNat := by
  have hends : ∀ heap : Heap, ReturnsWithOneSlab heap a size alignment ↔
      ∃ ptr a', Ends (Arena.allocRound heap.answer size alignment) a (.returned ptr a') ∧
        a'.slabs.length ≤ a.slabs.length + 1 := by
    intro heap
    unfold ReturnsWithOneSlab Ends
    simp only [alloc_eq_run _ _ _ hsize hvalid]
    constructor
    · rintro ⟨fuel, ptr, a', hrun, hle⟩
      exact ⟨ptr, a', ⟨fuel, hrun⟩, hle⟩
    · rintro ⟨ptr, a', ⟨fuel, hrun⟩, hle⟩
      exact ⟨fuel, ptr, a', hrun, hle⟩
  simp only [hends]
  by_cases hroom : ∃ s ∈ a.current :: a.after, s.Fits size alignment
  · constructor
    · intro _
      exact .inl hroom
    · intro _ heap
      obtain ⟨ptr, a', hrun, hlength⟩ := Arena.ends_of_fits heap.answer a hroom
      exact ⟨ptr, a', hrun, by omega⟩
  · have hnone : ∀ s ∈ a.current :: a.after, ¬ s.Fits size alignment := fun s hs hfits =>
      hroom ⟨s, hs, hfits⟩
    simp only [ends_iff_serves _ hnone, or_iff_right hroom]
    exact forall_serves_iff hvalid _

/-- An arena as it is made: one slab and nothing in it. -/
def Arena.fresh (s : Slab) : Arena :=
  { before := [], current := s, after := [], allocCount := 0 }

theorem alloc_returns_iff_small :
    ReturnsWithOneSlab (.spaced 4080 (by decide)) (.fresh ⟨16, 65536, 65530⟩) 100 8 := by
  have hvalid : ValidAlignment 8 := by
    unfold ValidAlignment
    decide
  have hfits : FreshFits (100 : Word).toNat (8 : Word).toNat := by
    unfold FreshFits
    decide
  exact (alloc_returns_iff (.fresh ⟨16, 65536, 65530⟩) 100 8 (by decide) hvalid).mpr
    (.inr hfits) _

theorem run_eq_none_of_not_serves (heap : Heap) {size alignment : Word} {a : Arena}
    (hheader : headerSize ≤ headerSize + freshCap size alignment)
    (hnone : ∀ s ∈ a.current :: a.after, ¬ s.Fits size alignment)
    (hfresh : ∀ n, ¬ heap.Serves n size alignment) (fuel : ℕ) :
    run (Arena.allocRound heap.answer size alignment) fuel a = none := by
  refine run_eq_none (fun b : Arena => ∀ s ∈ b.current :: b.after, ¬ s.Fits size alignment)
    hnone ?_ fuel
  intro b hb
  have hfits : ¬ b.current.Fits size alignment := hb _ List.mem_cons_self
  cases hafter : b.after with
  | cons s rest =>
      refine ⟨_, Arena.allocRound_of_next hfits hafter, fun t ht => ?_⟩
      apply hb
      rw [hafter]
      exact List.mem_cons_of_mem _ ht
  | nil =>
      have hround := Arena.allocRound_of_end heap.answer hfits hafter
      rw [slabNew_answer, if_neg (BitVec.not_lt.mpr hheader)] at hround
      refine ⟨_, hround, fun t ht => ?_⟩
      rw [List.mem_singleton.mp ht]
      intro hserves
      exact hfresh _ ⟨hheader, hserves⟩

/-- An allocation of 64 KiB at an alignment of 16 never returns, in whatever memory:
every slab offers 64 KiB, and its padding takes 8 bytes. -/
theorem alloc_never_returns :
    ValidAlignment 16 ∧ ∀ (heap : Heap) (fuel : ℕ),
      (Arena.fresh ⟨16, 65536, 0⟩).alloc heap.answer fuel 65536 16 = none := by
  have hvalid : ValidAlignment 16 := by
    unfold ValidAlignment
    decide
  refine ⟨hvalid, fun heap fuel => ?_⟩
  rw [alloc_eq_run _ _ _ (by decide) hvalid]
  apply run_eq_none_of_not_serves heap
  · decide
  · intro s hs
    rw [List.mem_singleton.mp hs]
    decide
  · intro n hserves
    have hroom := ((serves_iff heap n 65536 16).mp hserves).2
    have hpad := (padding_header (k := 4) (heap.calloc_aligned n
      (headerSize + freshCap 65536 16)) (by omega)).2 (by omega)
    change (_ + 65536) % 2 ^ 64 ≤ 65536 at hroom
    change 8 ≤ (padding _ 16).toNat ∧ (padding _ 16).toNat + 8 ≤ 16 at hpad
    omega

end Kernel

end InfinityOS
