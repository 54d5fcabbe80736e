import InfinityOS.Paths.Depth

/-!
# Lists in the order of release

A worklist emits an element some time after the last of its predecessors. In a
`ReleaseOrder` the elements stand in the order in which they become ready, and those that
become ready together in their own order `lt`. There is only one such list; what is
missing in it stands behind a cycle or behind an unknown element. It goes through the
layers of equal depth one after the other. Within the layers it follows `lt` exactly if
the elements of a layer become ready in the order `lt`.
-/

namespace Paths

open Relation

variable {α : Type*} {r : α → α → Prop} {lt : α → α → Prop} {order : List α}

/-- All predecessors of `b` are in `l`. -/
def Ready (r : α → α → Prop) (l : List α) (b : α) : Prop :=
  ∀ a, r a b → a ∈ l

theorem Ready.mono {l l' : List α} {b : α} (h : Ready r l b) (hl : l ⊆ l') : Ready r l' b :=
  fun a hab => hl (h a hab)

/-- Going through `order`, `a` becomes ready no later than `b`, and `a` is the smaller one
if they become ready together. -/
structure Precedes (r lt : α → α → Prop) (order : List α) (a b : α) : Prop where
  earlier : ∀ l, l <+: order → Ready r l b → Ready r l a
  tie : (∀ l, l <+: order → Ready r l a → Ready r l b) → lt a b

structure ReleaseOrder (r lt : α → α → Prop) (known : α → Prop) (order : List α) : Prop where
  nodup : order.Nodup
  sources : SourcesFirst r order
  complete : ∀ v, v ∈ order ↔ known v ∧ Ready r order v
  released : order.Pairwise (Precedes r lt order)

theorem ReleaseOrder.ready {known : α → Prop} (h : ReleaseOrder r lt known order) {b : α}
    (hb : b ∈ order) : Ready r order b :=
  ((h.complete b).mp hb).2

/-! ## One turn of a worklist -/

theorem precedes_of_nil {l : List α} (hready : ∀ v ∈ l, Ready r [] v) (hl : l.Pairwise lt) :
    l.Pairwise (Precedes r lt []) := by
  refine hl.imp_of_mem fun {a b} ha _ hab => ⟨fun p hp _ => ?_, fun _ => hab⟩
  rw [List.prefix_nil.mp hp]
  exact hready a ha

theorem precedes_turn {node : α} {queue batch : List α}
    (h : (order ++ node :: queue).Pairwise (Precedes r lt order))
    (hready : ∀ v ∈ order ++ node :: queue, Ready r order v)
    (hbatch : ∀ v ∈ batch, ¬ Ready r order v ∧ Ready r (order ++ [node]) v)
    (hsorted : batch.Pairwise lt) :
    ((order ++ [node]) ++ (queue ++ batch)).Pairwise (Precedes r lt (order ++ [node])) := by
  have hsub : order ⊆ order ++ [node] := List.subset_append_left order [node]
  have hold : ∀ v ∈ order ++ node :: queue, ∀ l, l <+: order ++ [node] →
      ¬ l <+: order → Ready r l v := by
    intro v hv l hl hlong
    rw [(List.prefix_concat_iff.mp hl).resolve_right hlong]
    exact (hready v hv).mono hsub
  -- a new element is ready only when `node` is emitted
  have hnew : ∀ v ∈ batch, ∀ l, l <+: order → ¬ Ready r l v := by
    intro v hv l hl hlv
    exact (hbatch v hv).1 (hlv.mono hl.subset)
  have hassoc : (order ++ [node]) ++ (queue ++ batch) = (order ++ node :: queue) ++ batch := by
    simp
  rw [hassoc, List.pairwise_append]
  refine ⟨?_, ?_, ?_⟩
  · refine h.imp_of_mem fun {a b} ha _ hab => ⟨fun l hl hlb => ?_, fun htie => hab.tie ?_⟩
    · by_cases hshort : l <+: order
      · exact hab.earlier l hshort hlb
      · exact hold a ha l hl hshort
    · intro l hl
      exact htie l (hl.trans (List.prefix_append order [node]))
  · refine hsorted.imp_of_mem fun {a b} ha hb hab => ⟨fun l hl hlb => ?_, fun _ => hab⟩
    rcases List.prefix_concat_iff.mp hl with rfl | hshort
    · exact (hbatch a ha).2
    · exact absurd hlb (hnew b hb l hshort)
  · intro a ha b hb
    refine ⟨fun l hl hlb => ?_, fun htie => ?_⟩
    · by_cases hshort : l <+: order
      · exact absurd hlb (hnew b hb l hshort)
      · exact hold a ha l hl hshort
    · have hlb := htie order (List.prefix_append order [node]) (hready a ha)
      exact absurd hlb (hbatch b hb).1

/-! ## There is one release order -/

section Unique

variable {known : α → Prop} {l t t' : List α} {a b : α}

theorem ReleaseOrder.ready_next (h : ReleaseOrder r lt known (l ++ a :: t)) :
    known a ∧ Ready r l a :=
  ⟨((h.complete a).mp (by simp)).1, h.sources l a t rfl⟩

theorem ReleaseOrder.mem_rest (h : ReleaseOrder r lt known (l ++ t)) (hknown : known a)
    (hready : Ready r l a) (ha : a ∉ l) : a ∈ t := by
  have hmem : a ∈ l ++ t :=
    (h.complete a).mpr ⟨hknown, hready.mono (List.subset_append_left l t)⟩
  exact (List.mem_append.mp hmem).resolve_left ha

theorem ReleaseOrder.notMem_of_next (h : ReleaseOrder r lt known (l ++ a :: t)) : a ∉ l := by
  intro ha
  exact (List.nodup_append.mp h.nodup).2.2 a ha a (by simp) rfl

theorem ReleaseOrder.lt_of_next_ne (h : ReleaseOrder r lt known (l ++ a :: t))
    (h' : ReleaseOrder r lt known (l ++ b :: t')) (hne : a ≠ b) : lt a b := by
  have hb := h'.ready_next
  have ha := h.ready_next
  have hbt : b ∈ t := by
    have hmem := h.mem_rest hb.1 hb.2 h'.notMem_of_next
    exact (List.mem_cons.mp hmem).resolve_left hne.symm
  have hat : a ∈ t' := by
    have hmem := h'.mem_rest ha.1 ha.2 h.notMem_of_next
    exact (List.mem_cons.mp hmem).resolve_left hne
  have hab : Precedes r lt (l ++ a :: t) a b :=
    (List.pairwise_cons.mp (List.pairwise_append.mp h.released).2.1).1 b hbt
  have hba : Precedes r lt (l ++ b :: t') b a :=
    (List.pairwise_cons.mp (List.pairwise_append.mp h'.released).2.1).1 a hat
  -- up to `l` the other list says which is ready first, from `l` on both are
  refine hab.tie fun p hp hpa => ?_
  rcases List.prefix_or_prefix_of_prefix hp (List.prefix_append l (a :: t)) with hpl | hlp
  · exact hba.earlier p (hpl.trans (List.prefix_append l (b :: t'))) hpa
  · exact hb.2.mono hlp.subset

theorem ReleaseOrder.unique [Std.Asymm lt] {order' : List α}
    (h : ReleaseOrder r lt known order) (h' : ReleaseOrder r lt known order') :
    order = order' := by
  have hrest : ∀ t l t', ReleaseOrder r lt known (l ++ t) → ReleaseOrder r lt known (l ++ t') →
      t = t' := by
    intro t
    induction t with
    | nil =>
        intro l t' h h'
        cases t' with
        | nil => rfl
        | cons b t' =>
            have hb := h'.ready_next
            cases h.mem_rest hb.1 hb.2 h'.notMem_of_next
    | cons a t ih =>
        intro l t' h h'
        cases t' with
        | nil =>
            have ha := h.ready_next
            cases h'.mem_rest ha.1 ha.2 h.notMem_of_next
        | cons b t' =>
            have heq : a = b := by
              by_contra hne
              exact Std.Asymm.asymm _ _ (h.lt_of_next_ne h' hne) (h'.lt_of_next_ne h (Ne.symm hne))
            subst heq
            rw [List.append_cons] at h h'
            rw [ih _ _ h h']
  exact hrest order [] order' h h'

end Unique

/-! ## What is not released -/

/-- A cycle or an unknown element leads to `v`. -/
def Blocked (r : α → α → Prop) (known : α → Prop) (v : α) : Prop :=
  ∃ b, (TransGen r b b ∨ ¬ known b) ∧ ReflTransGen r b v

section Blocked

variable {known : α → Prop} {v : α}

theorem ReleaseOrder.mem_of_reflTransGen (h : ReleaseOrder r lt known order) {b : α}
    (hb : ReflTransGen r b v) (hv : v ∈ order) : b ∈ order := by
  induction hb using ReflTransGen.head_induction_on with
  | refl => exact hv
  | head hac _ ih => exact ((h.complete _).mp ih).2 _ hac

theorem ReleaseOrder.mem_iff [DecidableEq α] (h : ReleaseOrder r lt known order)
    {l : List α} (hl : ∀ v, known v → v ∈ l) : v ∈ order ↔ ¬ Blocked r known v := by
  classical
  constructor
  · rintro hv ⟨b, hb, hbv⟩
    have hmem := h.mem_of_reflTransGen hbv hv
    rcases hb with hcycle | hunknown
    · exact h.sources.not_transGen h.nodup hmem hcycle
    · exact hunknown ((h.complete b).mp hmem).1
  · intro hfree
    by_contra hout
    -- every unreleased element before `v` has an unreleased predecessor
    let before : α → α → Prop := fun a b => r a b ∧ ReflTransGen r b v
    have hknown : ∀ b, ReflTransGen r b v → known b := by
      intro b hb
      by_contra hunknown
      exact hfree ⟨b, .inr hunknown, hb⟩
    refine not_acyclic_of_predecessors (r := before)
      (l := l.filter fun b => b ∉ order ∧ ReflTransGen r b v) (fun hnil => ?_) (fun b hb => ?_)
      fun a hcycle => ?_
    · have hleft : v ∈ l.filter fun b => b ∉ order ∧ ReflTransGen r b v := by
        simpa [hout] using ⟨hl v (hknown v .refl), ReflTransGen.refl⟩
      rw [hnil] at hleft
      cases hleft
    · rw [List.mem_filter, decide_eq_true_eq] at hb
      obtain ⟨-, hbout, hbv⟩ := hb
      have hready : ¬ Ready r order b := fun hready =>
        hbout ((h.complete b).mpr ⟨hknown b hbv, hready⟩)
      unfold Ready at hready
      push Not at hready
      obtain ⟨a, hab, ha⟩ := hready
      have hav : ReflTransGen r a v := .head hab hbv
      refine ⟨a, ?_, hab, hbv⟩
      rw [List.mem_filter, decide_eq_true_eq]
      exact ⟨hl a (hknown a hav), ha, hav⟩
    · obtain ⟨b, -, hba⟩ := TransGen.tail'_iff.mp hcycle
      have hsub : before ≤ r := fun _ _ hstep => hstep.1
      exact hfree ⟨a, .inl (TransGen.mono hsub a a hcycle), hba.2⟩

end Blocked

/-! ## Layers -/

/-- By depth, and by `lt` within a layer. -/
def LayerOrder (r lt : α → α → Prop) (a b : α) : Prop :=
  depth r a < depth r b ∨ depth r a = depth r b ∧ lt a b

/-- Of two elements of one layer, the greater one has on the layer above a predecessor
that is no smaller than any of the other's. -/
def LayersReleased (r lt : α → α → Prop) (order : List α) : Prop :=
  ∀ a ∈ order, ∀ b ∈ order, depth r a = depth r b → lt a b →
    ∀ p, r p a → depth r p + 1 = depth r a →
      ∃ q, r q b ∧ depth r q + 1 = depth r b ∧ ¬ lt q p

section Layers

variable [DecidableEq α] {known : α → Prop} {a b p : α}

theorem Precedes.exists_later_pred (h : Precedes r lt order a b) (hp : r p a)
    (hb : Ready r order b) : ∃ q, r q b ∧ order.idxOf p ≤ order.idxOf q := by
  by_contra hnone
  push Not at hnone
  have hready : Ready r (order.take (order.idxOf p)) b := by
    intro q hq
    have hlt := hnone q hq
    have hmem := List.getElem_mem (l := order.take (order.idxOf p)) (n := order.idxOf q)
      (by rw [List.length_take]; exact lt_min hlt (List.idxOf_lt_length_of_mem (hb q hq)))
    rwa [List.getElem_take, List.getElem_idxOf] at hmem
  have hmem := h.earlier _ (List.take_prefix _ _) hready p hp
  exact lt_irrefl _ (idxOf_lt_of_mem_take hmem)

namespace ReleaseOrder

theorem precedes (h : ReleaseOrder r lt known order) (ha : a ∈ order) (hb : b ∈ order)
    (hab : order.idxOf a < order.idxOf b) : Precedes r lt order a b :=
  (pairwise_iff_idxOf h.nodup).mp h.released a ha b hb hab

theorem depth_le (h : ReleaseOrder r lt known order) (ha : a ∈ order) (hb : b ∈ order)
    (hab : order.idxOf a < order.idxOf b) : depth r a ≤ depth r b := by
  induction hpos : order.idxOf b using Nat.strong_induction_on generalizing a b with
  | h k ih =>
      by_contra hlt
      rw [not_le] at hlt
      obtain ⟨p, hpa, hdepth⟩ := h.sources.exists_pred h.nodup ha (Nat.zero_lt_of_lt hlt)
      obtain ⟨q, hqb, hpq⟩ := (h.precedes ha hb hab).exists_later_pred hpa (h.ready hb)
      obtain ⟨hq, hqpos⟩ := h.sources.idxOf_lt h.nodup hb hqb
      have hp := (h.sources.idxOf_lt h.nodup ha hpa).1
      have hqdepth := h.sources.depth_lt h.nodup hb hqb
      rcases hpq.lt_or_eq with hlt' | heq
      · have hle := ih _ (hpos ▸ hqpos) hp hq hlt' rfl
        omega
      · have hsame : p = q := (List.idxOf_inj hp).mp heq
        rw [hsame] at hdepth
        omega

theorem idxOf_lt_of_depth_lt (h : ReleaseOrder r lt known order) (ha : a ∈ order)
    (hb : b ∈ order) (hdepth : depth r a < depth r b) : order.idxOf a < order.idxOf b := by
  rcases lt_trichotomy (order.idxOf a) (order.idxOf b) with hlt | heq | hgt
  · exact hlt
  · rw [(List.idxOf_inj ha).mp heq] at hdepth
    exact absurd hdepth (lt_irrefl _)
  · exact absurd (h.depth_le hb ha hgt) (not_le.mpr hdepth)

theorem layersReleased_of_sorted [Std.Asymm lt] [Std.Trichotomous lt]
    (h : ReleaseOrder r lt known order) (hsorted : order.Pairwise (LayerOrder r lt)) :
    LayersReleased r lt order := by
  have hpairs := (pairwise_iff_idxOf h.nodup).mp hsorted
  intro a ha b hb hdepth hab p hpa hp
  have hpos : order.idxOf a < order.idxOf b := by
    rcases lt_trichotomy (order.idxOf a) (order.idxOf b) with hlt | heq | hgt
    · exact hlt
    · rw [(List.idxOf_inj ha).mp heq] at hab
      exact absurd hab (Std.Asymm.asymm _ _ hab)
    · rcases hpairs b hb a ha hgt with hlt | ⟨-, hba⟩
      · omega
      · exact absurd hba (Std.Asymm.asymm _ _ hab)
  obtain ⟨q, hqb, hpq⟩ := (h.precedes ha hb hpos).exists_later_pred hpa (h.ready hb)
  have hpmem := (h.sources.idxOf_lt h.nodup ha hpa).1
  have hqmem := (h.sources.idxOf_lt h.nodup hb hqb).1
  have hqdepth := h.sources.depth_lt h.nodup hb hqb
  rcases hpq.lt_or_eq with hlt | heq
  · rcases hpairs p hpmem q hqmem hlt with hless | ⟨hsame, hpq⟩
    · omega
    · exact ⟨q, hqb, by omega, Std.Asymm.asymm _ _ hpq⟩
  · have hsame : p = q := (List.idxOf_inj hpmem).mp heq
    subst hsame
    exact ⟨p, hqb, by omega, fun hpp => Std.Asymm.asymm _ _ hpp hpp⟩

theorem lt_of_layersReleased [Std.Asymm lt] [Std.Trichotomous lt]
    (h : ReleaseOrder r lt known order) (hlayers : LayersReleased r lt order)
    (ha : a ∈ order) (hb : b ∈ order) (hab : order.idxOf a < order.idxOf b)
    (hdepth : depth r a = depth r b) : lt a b := by
  induction hpos : order.idxOf b using Nat.strong_induction_on generalizing a b with
  | h k ih =>
      by_contra hnot
      have hne : a ≠ b := by
        rintro rfl
        exact lt_irrefl _ hab
      have hba : lt b a := by
        by_contra hnot'
        exact hne (Std.Trichotomous.trichotomous _ _ hnot hnot')
      -- so `b` is ready whenever `a` is
      refine hnot ((h.precedes ha hb hab).tie fun l hl hla p hpb => ?_)
      obtain ⟨hp, hppos⟩ := h.sources.idxOf_lt h.nodup hb hpb
      have hpdepth := h.sources.depth_lt h.nodup hb hpb
      rcases Nat.lt_or_ge (depth r p + 1) (depth r b) with hdeep | hlast
      · obtain ⟨q, hqa, hq⟩ := h.sources.exists_pred h.nodup ha (by omega)
        have hqmem := (h.sources.idxOf_lt h.nodup ha hqa).1
        exact mem_of_prefix hl hp (hla q hqa)
          (h.idxOf_lt_of_depth_lt hp hqmem (by omega)).le
      · obtain ⟨q, hqa, hq, hpq⟩ := hlayers b hb a ha hdepth.symm hba p hpb (by omega)
        have hqmem := (h.sources.idxOf_lt h.nodup ha hqa).1
        refine mem_of_prefix hl hp (hla q hqa) (not_lt.mp fun hlt => hpq ?_)
        exact ih _ (hpos ▸ hppos) hqmem hp hlt (by omega) rfl

theorem sorted_iff [Std.Asymm lt] [Std.Trichotomous lt] (h : ReleaseOrder r lt known order) :
    order.Pairwise (LayerOrder r lt) ↔ LayersReleased r lt order := by
  refine ⟨h.layersReleased_of_sorted, fun hlayers => ?_⟩
  rw [pairwise_iff_idxOf h.nodup]
  intro a ha b hb hab
  rcases (h.depth_le ha hb hab).lt_or_eq with hlt | heq
  · exact .inl hlt
  · exact .inr ⟨heq, h.lt_of_layersReleased hlayers ha hb hab heq⟩

end ReleaseOrder

end Layers

end Paths
