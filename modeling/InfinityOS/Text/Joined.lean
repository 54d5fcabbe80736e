import Mathlib

/-!
# Texts joined by words

When two texts with a word in the middle are equal, the words stand at the same place, or one
of the two stands within a part of the other text. The words may be different; it is enough
that none of them begins with a character that the other has behind its first one.
-/

namespace Text

section Lists

variable {α : Type*} {x a b c d v w : List α} {g h : α}

theorem exists_eq_append_of_word (hx : x ≠ []) (hh : h ∉ v)
    (heq : g :: v ++ b = x ++ (h :: w ++ d)) :
    ∃ r, x = g :: v ++ r ∧ b = r ++ (h :: w ++ d) := by
  rcases List.append_eq_append_iff.mp heq with ⟨r, hr, hb⟩ | ⟨r, hr, hb⟩
  · exact ⟨r, hr, hb⟩
  · cases r with
    | nil => exact ⟨[], by rw [List.append_nil, hr, List.append_nil], hb.symm⟩
    | cons k r =>
        -- the second word would begin within the first one
        obtain ⟨rfl, -⟩ := List.cons.inj hb
        cases x with
        | nil => exact absurd rfl hx
        | cons y x =>
            obtain ⟨-, hv⟩ := List.cons.inj hr
            exact absurd (hv ▸ List.mem_append_right x List.mem_cons_self) hh

theorem append_words_eq_iff (hh : h ∉ v) (hg : g ∉ w) :
    a ++ (g :: v ++ b) = c ++ (h :: w ++ d) ↔
      (a = c ∧ g :: v ++ b = h :: w ++ d) ∨
      (∃ r, c = a ++ (g :: v ++ r) ∧ b = r ++ (h :: w ++ d)) ∨
      ∃ r, a = c ++ (h :: w ++ r) ∧ d = r ++ (g :: v ++ b) := by
  constructor
  · intro heq
    rcases List.append_eq_append_iff.mp heq with ⟨x, hc, hrest⟩ | ⟨x, ha, hrest⟩
    · by_cases hx : x = []
      · subst hx
        exact .inl ⟨by rw [hc, List.append_nil], hrest⟩
      · obtain ⟨r, hr, hb⟩ := exists_eq_append_of_word hx hh hrest
        exact .inr (.inl ⟨r, by rw [hc, hr], hb⟩)
    · by_cases hx : x = []
      · subst hx
        exact .inl ⟨by rw [ha, List.append_nil], hrest.symm⟩
      · obtain ⟨r, hr, hd⟩ := exists_eq_append_of_word hx hg hrest
        exact .inr (.inr ⟨r, by rw [ha, hr], hd⟩)
  · rintro (⟨rfl, hrest⟩ | ⟨r, rfl, rfl⟩ | ⟨r, rfl, rfl⟩)
    · rw [hrest]
    · simp only [List.append_assoc]
    · simp only [List.append_assoc]

end Lists

/-- The text `a ++ word ++ b` is also split at a later place, as `c ++ word ++ d`. -/
def Shifted (word a b c d : String) : Prop :=
  ∃ r, c = a ++ word ++ r ∧ b = r ++ word ++ d

theorem Shifted.ne {word a b c d : String} (hword : word ≠ "") (h : Shifted word a b c d) :
    a ≠ c := by
  obtain ⟨r, rfl, -⟩ := h
  intro heq
  have hlength := congrArg String.length heq
  rw [String.length_append, String.length_append] at hlength
  have hpos : word.length ≠ 0 := fun hzero => hword (String.length_eq_zero_iff.mp hzero)
  omega

theorem Shifted.mem {word a b c d : String} {k : Char} (hk : k ∈ word.toList)
    (h : Shifted word a b c d) : k ∈ c.toList := by
  obtain ⟨r, rfl, -⟩ := h
  rw [String.toList_append, String.toList_append]
  exact List.mem_append_left _ (List.mem_append_right _ hk)

/-- One of the two splits of a text is later than the other. -/
def Overlap (word a b c d : String) : Prop :=
  Shifted word a b c d ∨ Shifted word c d a b

theorem Overlap.ne {word a b c d : String} (hword : word ≠ "") (h : Overlap word a b c d) :
    a ≠ c := by
  rcases h with h | h
  · exact h.ne hword
  · exact (h.ne hword).symm

section Strings

variable {a b c d v w : String} {g h : Char} {v' w' : List Char}

theorem exists_later_iff (hv : v.toList = g :: v') (hw : w.toList = h :: w') :
    (∃ r, c.toList = a.toList ++ (g :: v' ++ r) ∧ b.toList = r ++ (h :: w' ++ d.toList)) ↔
      ∃ r, c = a ++ v ++ r ∧ b = r ++ w ++ d := by
  constructor
  · rintro ⟨r, hc, hb⟩
    refine ⟨String.ofList r, String.toList_inj.mp ?_, String.toList_inj.mp ?_⟩
    · rw [hc, String.toList_append, String.toList_append, String.toList_ofList, hv,
        List.append_assoc]
    · rw [hb, String.toList_append, String.toList_append, String.toList_ofList, hw,
        List.append_assoc]
  · rintro ⟨r, rfl, rfl⟩
    refine ⟨r.toList, ?_, ?_⟩
    · rw [String.toList_append, String.toList_append, hv, List.append_assoc]
    · rw [String.toList_append, String.toList_append, hw, List.append_assoc]

theorem append_word_eq_iff (hv : v.toList = g :: v') (hw : w.toList = h :: w') (hh : h ∉ v')
    (hg : g ∉ w') :
    a ++ v ++ b = c ++ w ++ d ↔
      (a = c ∧ v ++ b = w ++ d) ∨
      (∃ r, c = a ++ v ++ r ∧ b = r ++ w ++ d) ∨
      ∃ r, a = c ++ w ++ r ∧ d = r ++ v ++ b := by
  have hlists : a ++ v ++ b = c ++ w ++ d ↔
      a.toList ++ (g :: v' ++ b.toList) = c.toList ++ (h :: w' ++ d.toList) := by
    rw [← String.toList_inj]
    simp only [String.toList_append, List.append_assoc, hv, hw]
  have hwords : v ++ b = w ++ d ↔ g :: v' ++ b.toList = h :: w' ++ d.toList := by
    rw [← String.toList_inj, String.toList_append, String.toList_append, hv, hw]
  rw [hlists, append_words_eq_iff hh hg]
  exact or_congr (and_congr String.toList_inj hwords.symm)
    (or_congr (exists_later_iff hv hw) (exists_later_iff hw hv))

theorem Overlap.mem {word a b c d : String} {k : Char} (hk : k ∈ word.toList)
    (h : Overlap word a b c d) : k ∈ a.toList ∨ k ∈ c.toList := by
  rcases h with h | h
  · exact .inr (h.mem hk)
  · exact .inl (h.mem hk)

theorem append_word_inj_iff (hw : w.toList = h :: w') (hh : h ∉ w') :
    a ++ w ++ b = c ++ w ++ d ↔ (a = c ∧ b = d) ∨ Overlap w a b c d := by
  rw [append_word_eq_iff hw hw hh hh]
  refine or_congr_left (and_congr_right fun _ => ?_)
  rw [← String.toList_inj, String.toList_append, String.toList_append, List.append_cancel_left_eq,
    String.toList_inj]

theorem append_suffix_eq_iff (hv : v.toList = g :: v') (hw : w.toList = h :: w') (hh : h ∉ v')
    (hg : g ∉ w') :
    a ++ v = c ++ w ++ d ↔ (a = c ∧ v = w ++ d) ∨ ∃ r, a = c ++ w ++ r ∧ d = r ++ v := by
  have hsplit := append_word_eq_iff (a := a) (b := "") (c := c) (d := d) hv hw hh hg
  rw [String.append_empty, String.append_empty] at hsplit
  rw [hsplit]
  constructor
  · rintro (haligned | ⟨r, -, hempty⟩ | ⟨r, ha, hd⟩)
    · exact .inl haligned
    · have hlist := congrArg String.toList hempty
      rw [String.toList_append, String.toList_append, hw] at hlist
      simp at hlist
    · exact .inr ⟨r, ha, by rw [hd, String.append_empty]⟩
  · rintro (haligned | ⟨r, ha, hd⟩)
    · exact .inl haligned
    · exact .inr (.inr ⟨r, ha, by rw [hd, String.append_empty]⟩)

end Strings

end Text
