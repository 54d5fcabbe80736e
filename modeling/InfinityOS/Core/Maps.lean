import Mathlib

/-!
# Entries of an ordered map

Rules for `Std.ExtTreeMap` over keys with a lawful order: a lookup after an
insertion or a removal as a case distinction on the key, the list of entries
after an insertion, and sums over the entries.
-/

namespace Maps

variable {α β : Type*} {cmp : α → α → Ordering} [Std.TransCmp cmp] [Std.LawfulEqCmp cmp]

open Std

theorem getElem?_insert_ite [DecidableEq α] (m : ExtTreeMap α β cmp) (k : α) (v : β) (a : α) :
    (m.insert k v)[a]? = if a = k then some v else m[a]? := by
  rw [ExtTreeMap.getElem?_insert]
  by_cases h : a = k
  · rw [if_pos h, if_pos (LawfulEqCmp.compare_eq_iff_eq.mpr h.symm)]
  · rw [if_neg h, if_neg (fun hc => h (LawfulEqCmp.compare_eq_iff_eq.mp hc).symm)]

theorem insert_eq_self [DecidableEq α] {m : ExtTreeMap α β cmp} {k : α} {v : β}
    (h : m[k]? = some v) : m.insert k v = m := by
  apply ExtTreeMap.ext_getElem?
  intro a
  rw [getElem?_insert_ite]
  split
  · next ha => rw [ha, h]
  · rfl

theorem getElem?_erase_ite [DecidableEq α] (m : ExtTreeMap α β cmp) (k a : α) :
    (m.erase k)[a]? = if a = k then none else m[a]? := by
  rw [ExtTreeMap.getElem?_erase]
  by_cases h : a = k
  · rw [if_pos h, if_pos (LawfulEqCmp.compare_eq_iff_eq.mpr h.symm)]
  · rw [if_neg h, if_neg (fun hc => h (LawfulEqCmp.compare_eq_iff_eq.mp hc).symm)]

theorem nodup_toList (m : ExtTreeMap α β cmp) : m.toList.Nodup := by
  refine ExtTreeMap.distinct_keys_toList.imp fun {p q} hne => ?_
  rintro rfl
  exact hne ReflCmp.compare_self

theorem mem_toList {m : ExtTreeMap α β cmp} {k : α} {v : β} :
    (k, v) ∈ m.toList ↔ m[k]? = some v :=
  ExtTreeMap.mem_toList_iff_getElem?_eq_some

omit [LawfulEqCmp cmp] in
/-- The values in the order of the entries. -/
theorem values_eq (m : ExtTreeMap α β cmp) : m.values = m.toList.map Prod.snd := by
  have hfold : m.values = m.foldr (fun _ v l => v :: l) [] :=
    m.inner.inductionOn fun _ => rfl
  rw [hfold, ExtTreeMap.foldr_eq_foldr_toList, List.map_eq_foldr]

theorem mem_values {m : ExtTreeMap α β cmp} {v : β} :
    v ∈ m.values ↔ ∃ k : α, m[k]? = some v := by
  rw [values_eq, List.mem_map]
  constructor
  · rintro ⟨⟨k, w⟩, hmem, rfl⟩
    exact ⟨k, mem_toList.mp hmem⟩
  · rintro ⟨k, hget⟩
    exact ⟨(k, v), mem_toList.mpr hget, rfl⟩

theorem toList_perm [DecidableEq α] (m : ExtTreeMap α β cmp) (k : α) :
    m.toList.Perm ((m[k]?.map fun v => (k, v)).toList ++ m.toList.filter fun p => p.1 ≠ k) := by
  have hkey : (m.toList.filter fun p => p.1 = k).Perm (m[k]?.map fun v => (k, v)).toList := by
    rw [List.perm_ext_iff_of_nodup ((nodup_toList m).filter _)]
    · rintro ⟨a, v⟩
      rw [List.mem_filter, mem_toList, decide_eq_true_eq]
      constructor
      · rintro ⟨hget, rfl⟩
        simp [hget]
      · intro hmem
        rw [Option.mem_toList, Option.map_eq_some_iff] at hmem
        obtain ⟨w, hget, heq⟩ := hmem
        cases heq
        exact ⟨hget, rfl⟩
    · cases m[k]? <;> simp
  have hsplit := List.filter_append_perm (fun p : α × β => decide (p.1 = k)) m.toList
  simp only [← decide_not] at hsplit
  exact hsplit.symm.trans (hkey.append_right _)

theorem toList_insert_perm [DecidableEq α] (m : ExtTreeMap α β cmp) (k : α) (v : β) :
    (m.insert k v).toList.Perm ((k, v) :: m.toList.filter fun p => p.1 ≠ k) := by
  rw [List.perm_ext_iff_of_nodup (nodup_toList _)]
  · rintro ⟨a, w⟩
    rw [mem_toList, getElem?_insert_ite, List.mem_cons, List.mem_filter, mem_toList,
      Prod.mk.injEq]
    split
    · next h => simp [h, eq_comm]
    · next h => simp [h]
  · rw [List.nodup_cons]
    exact ⟨by simp, (nodup_toList m).filter _⟩

/-- A sum over the entries after an insertion: the old entry of the key goes, the
new one comes. -/
theorem sum_toList_insert [DecidableEq α] (m : ExtTreeMap α β cmp) (k : α) (v : β)
    (f : α × β → ℕ) :
    ((m.insert k v).toList.map f).sum + (m[k]?.map fun w => f (k, w)).getD 0 =
      (m.toList.map f).sum + f (k, v) := by
  have hold := ((toList_perm m k).map f).sum_nat
  have hnew := ((toList_insert_perm m k v).map f).sum_nat
  rw [List.map_cons, List.sum_cons] at hnew
  rw [List.map_append, List.sum_append] at hold
  have hentry : ((m[k]?.map fun v => (k, v)).toList.map f).sum =
      (m[k]?.map fun w => f (k, w)).getD 0 := by
    cases m[k]? <;> simp
  omega

/-- An order in which the entries of a map are visited. -/
structure Enumeration (m : ExtTreeMap α β cmp) where
  entries : List (α × β)
  perm : entries.Perm m.toList

namespace Enumeration

variable {m : ExtTreeMap α β cmp}

theorem mem_entries (order : Enumeration m) {p : α × β} :
    p ∈ order.entries ↔ m[p.1]? = some p.2 :=
  order.perm.mem_iff.trans mem_toList

/-- The order in which the entry of `k` comes first, if there is one. -/
def startingAt [DecidableEq α] (m : ExtTreeMap α β cmp) (k : α) : Enumeration m where
  entries := (m[k]?.map fun v => (k, v)).toList ++ m.toList.filter fun p => p.1 ≠ k
  perm := (toList_perm m k).symm

theorem find?_startingAt [DecidableEq α] {test : α × β → Bool} {k : α} {v : β}
    (hget : m[k]? = some v) (htest : test (k, v)) :
    (startingAt m k).entries.find? test = some (k, v) := by
  change ((m[k]?.map fun v => (k, v)).toList ++ _).find? test = _
  rw [hget]
  exact List.find?_cons_of_pos htest

theorem find?_eq (order order' : Enumeration m) {test : α × β → Bool}
    (honly : ∀ k k' v v', m[k]? = some v → m[k']? = some v' → test (k, v) → test (k', v') →
      k = k') : order.entries.find? test = order'.entries.find? test := by
  cases hfind : order.entries.find? test with
  | none =>
      symm
      rw [List.find?_eq_none] at hfind ⊢
      exact fun p hp => hfind p (order.mem_entries.mpr (order'.mem_entries.mp hp))
  | some p =>
      have hp := order.mem_entries.mp (List.mem_of_find?_eq_some hfind)
      cases hfind' : order'.entries.find? test with
      | none =>
          have hmem := order'.mem_entries.mpr hp
          exact absurd (List.find?_some hfind) (List.find?_eq_none.mp hfind' p hmem)
      | some p' =>
          have hp' := order'.mem_entries.mp (List.mem_of_find?_eq_some hfind')
          have hkey := honly p.1 p'.1 p.2 p'.2 hp hp' (List.find?_some hfind)
            (List.find?_some hfind')
          rw [← hkey, hp] at hp'
          exact congrArg some (Prod.ext hkey (Option.some.inj hp'))

end Enumeration

theorem find?_toList [DecidableEq α] (m : ExtTreeMap α β cmp) (a : α) :
    (m.toList.find? fun p => p.1 = a).map Prod.snd = m[a]? := by
  cases hfind : m.toList.find? fun p => p.1 = a with
  | none =>
      cases hget : m[a]? with
      | none => rfl
      | some v =>
          have hmiss := List.find?_eq_none.mp hfind (a, v) (mem_toList.mpr hget)
          simp at hmiss
  | some p =>
      have hkey : p.1 = a := by simpa using List.find?_some hfind
      have hget : m[p.1]? = some p.2 := mem_toList.mp (List.mem_of_find?_eq_some hfind)
      rw [← hkey, hget]
      rfl

theorem getElem?_foldl_insert [DecidableEq α] {l : List (α × β)}
    (hl : l.Pairwise fun p q => p.1 ≠ q.1) (m : ExtTreeMap α β cmp) (a : α) :
    (l.foldl (fun m p => m.insert p.1 p.2) m)[a]? =
      ((l.find? fun p => p.1 = a).map Prod.snd).or m[a]? := by
  induction l generalizing m with
  | nil => rfl
  | cons p l ih =>
      obtain ⟨hp, hl⟩ := List.pairwise_cons.mp hl
      rw [List.foldl_cons, ih hl, getElem?_insert_ite]
      by_cases h : p.1 = a
      · have hnone : (l.find? fun q => q.1 = a) = none := by
          rw [List.find?_eq_none]
          intro q hq
          rw [decide_eq_true_eq, ← h]
          exact (hp q hq).symm
        rw [hnone, List.find?_cons_of_pos (by simpa using h), if_pos h.symm]
        rfl
      · rw [List.find?_cons_of_neg (by simpa using h), if_neg (Ne.symm h)]

theorem getElem?_insertAll [DecidableEq α] (m m' : ExtTreeMap α β cmp) (a : α) :
    (m'.toList.foldl (fun m p => m.insert p.1 p.2) m)[a]? = m'[a]?.or m[a]? := by
  have hdistinct : m'.toList.Pairwise fun p q => p.1 ≠ q.1 := by
    refine ExtTreeMap.distinct_keys_toList.imp fun {p q} hne heq => ?_
    rw [heq] at hne
    exact hne ReflCmp.compare_self
  rw [getElem?_foldl_insert hdistinct, find?_toList]

theorem getElem?_foldl_insertIfNew [DecidableEq α] (l : List (α × β)) (m : ExtTreeMap α β cmp)
    (a : α) :
    (l.foldl (fun m p => m.insertIfNew p.1 p.2) m)[a]? =
      m[a]?.or ((l.find? fun p => p.1 = a).map Prod.snd) := by
  induction l generalizing m with
  | nil => exact (Option.or_none).symm
  | cons p l ih =>
      rw [List.foldl_cons, ih, ExtTreeMap.getElem?_insertIfNew]
      by_cases h : p.1 = a
      · subst h
        rw [List.find?_cons_of_pos (by simp)]
        cases hget : m[p.1]? with
        | none =>
            have hnot : p.1 ∉ m := by
              rw [ExtTreeMap.mem_iff_isSome_getElem?, hget]
              exact Bool.false_ne_true
            rw [if_pos ⟨ReflCmp.compare_self, hnot⟩]
            rfl
        | some v =>
            have hmem : p.1 ∈ m := by
              rw [ExtTreeMap.mem_iff_isSome_getElem?, hget]
              rfl
            rw [if_neg fun hboth => hboth.2 hmem]
            rfl
      · rw [List.find?_cons_of_neg (by simpa using h),
          if_neg fun hboth => h (LawfulEqCmp.compare_eq_iff_eq.mp hboth.1)]

theorem getElem?_insertAllIfNew [DecidableEq α] (m m' : ExtTreeMap α β cmp) (a : α) :
    (m'.toList.foldl (fun m p => m.insertIfNew p.1 p.2) m)[a]? = m[a]?.or m'[a]? := by
  rw [getElem?_foldl_insertIfNew, find?_toList]

theorem getElem?_ofList_eq_some_iff [DecidableEq α] {l : List (α × β)}
    (hl : l.Pairwise fun p q => p.1 ≠ q.1) {a : α} {v : β} :
    (ExtTreeMap.ofList l cmp)[a]? = some v ↔ (a, v) ∈ l := by
  have hdistinct : l.Pairwise fun p q => ¬ cmp p.1 q.1 = .eq :=
    hl.imp fun hne heq => hne (LawfulEqCmp.compare_eq_iff_eq.mp heq)
  constructor
  · intro hget
    have hcontains : (l.map Prod.fst).contains a = true := by
      by_contra hmiss
      rw [Bool.not_eq_true] at hmiss
      rw [ExtTreeMap.getElem?_ofList_of_contains_eq_false hmiss] at hget
      cases hget
    rw [List.contains_iff_mem, List.mem_map] at hcontains
    obtain ⟨⟨b, w⟩, hmem, rfl⟩ := hcontains
    rw [ExtTreeMap.getElem?_ofList_of_mem ReflCmp.compare_self hdistinct hmem] at hget
    cases hget
    exact hmem
  · intro hmem
    exact ExtTreeMap.getElem?_ofList_of_mem ReflCmp.compare_self hdistinct hmem

/-! ## Removing what a test selects -/

section Retain

variable (m : ExtTreeMap α β cmp) (p : β → Bool)

theorem getElem?_retain_eq_some {a : α} {v : β} :
    (m.filter fun _ v => !p v)[a]? = some v ↔ m[a]? = some v ∧ p v = false := by
  rw [ExtTreeMap.getElem?_filter', Option.filter_eq_some_iff, Bool.not_eq_true']

omit [LawfulEqCmp cmp] in
theorem length_filter_add_size_retain :
    (m.toList.filter fun q => p q.2).length + (m.filter fun _ v => !p v).size = m.size := by
  rw [← ExtTreeMap.length_toList, ← ExtTreeMap.length_toList, ExtTreeMap.toList_filter]
  exact (List.length_eq_length_filter_add fun q : α × β => p q.2).symm

omit [LawfulEqCmp cmp] in
theorem filter_toList_retain :
    (m.filter fun _ v => !p v).toList.filter (fun q => p q.2) = [] := by
  rw [ExtTreeMap.toList_filter, List.filter_filter, List.filter_eq_nil_iff]
  intro q _
  cases p q.2 <;> simp

theorem retain_retain :
    ((m.filter fun _ v => !p v).filter fun _ v => !p v) = m.filter fun _ v => !p v := by
  apply ExtTreeMap.ext_getElem?
  intro a
  rw [ExtTreeMap.getElem?_filter', ExtTreeMap.getElem?_filter', Option.filter_filter]
  simp only [Bool.and_self]

end Retain

end Maps
