import InfinityOS.Text.Replace

/-!
# Which occurrences are replaced

Words that are replaced one after the other replace the free occurrences: those that
overlap no free occurrence of a word before and none of their own that begins earlier.
When the free occurrences cover all the others, the text has been left with nothing of the
words; when they do not, no other choice of intervals gives the same output either, as
long as the text has no marker of its own.
-/

namespace Text

/-- Of the places that `A` allows for an interval of `n` elements, those taken from left
to right such that no two intervals overlap. -/
def Chosen (A : ℕ → Prop) (n : ℕ) (q : ℕ) : Prop :=
  A q ∧ ∀ q', q' < q → Chosen A n q' → q' + n ≤ q
termination_by q

theorem chosen_add {A : ℕ → Prop} {n b : ℕ} (h : ∀ q < b, Chosen A n q → q + n ≤ b) (q : ℕ) :
    Chosen A n (b + q) ↔ Chosen (fun q => A (b + q)) n q := by
  induction q using Nat.strong_induction_on with
  | h q ih =>
      rw [Chosen, Chosen]
      apply and_congr_right
      intro _
      constructor
      · intro hchosen q' hq' hq
        have hle := hchosen (b + q') (by omega) ((ih q' hq').mpr hq)
        omega
      · intro hchosen q' hq' hq
        rcases lt_or_ge q' b with hb | hb
        · exact (h q' hb hq).trans (Nat.le_add_right b q)
        · obtain ⟨r, rfl⟩ := Nat.exists_eq_add_of_le hb
          have hle := hchosen r (by omega) ((ih r (by omega)).mp hq)
          omega

variable {α : Type*}

def Uncovered (text : List α) (covered : ℕ → Prop) (word : List α) (q : ℕ) : Prop :=
  word <+: text.drop q ∧ ∀ i < word.length, ¬ covered (q + i)

/-- The occurrences of the word that overlap nothing covered and no earlier one of them. -/
def Free (text : List α) (covered : ℕ → Prop) (word : List α) : ℕ → Prop :=
  Chosen (Uncovered text covered word) word.length

/-- The elements of the text in the free occurrences of the words, the first word first. -/
def coveredBy (text : List α) (words : List (List α)) : ℕ → Prop :=
  words.foldl (fun covered word x => covered x ∨
    ∃ q, Free text covered word q ∧ q ≤ x ∧ x < q + word.length) fun _ => False

/-- The free occurrences cover all the others. -/
def AllCovered (words : List (List α)) (text : List α) : Prop :=
  ∀ word ∈ words, ∀ q, word <+: text.drop q → ∀ i < word.length, coveredBy text words (q + i)

/-- The element is behind a marker. -/
def IsMasked (ps : List (Piece α)) (x : ℕ) : Prop :=
  (maskOf ps)[x]? = some true

instance (ps : List (Piece α)) (x : ℕ) : Decidable (IsMasked ps x) :=
  inferInstanceAs (Decidable ((maskOf ps)[x]? = some true))

/-- Every marker stands for something. -/
def Solid (ps : List (Piece α)) : Prop :=
  ∀ text, Piece.masked text ∈ ps → text ≠ []

/-- The output is the input with a marker for each of some intervals in which every
occurrence of every word lies. -/
def Replaces (marker : List α) (words : List (List α)) (input output : List α) : Prop :=
  ∃ ps : List (Piece α), original ps = input ∧ render marker ps = output ∧ Solid ps ∧
    ∀ word ∈ words, ∀ q, word <+: input.drop q → ∀ i < word.length, IsMasked ps (q + i)

section Pieces

variable {word : List α} {as ps ps' : List (Piece α)}

theorem isMasked_append (as ps : List (Piece α)) (x : ℕ) :
    IsMasked (as ++ ps) ((original as).length + x) ↔ IsMasked ps x := by
  rw [IsMasked, maskOf_append, ← length_maskOf, List.getElem?_append_right (by omega),
    Nat.add_sub_cancel_left, IsMasked]

theorem isMasked_append_left {x : ℕ} (hx : x < (original as).length) :
    IsMasked (as ++ ps) x ↔ IsMasked as x := by
  rw [IsMasked, maskOf_append, List.getElem?_append_left (by rwa [length_maskOf]), IsMasked]

theorem uncovered_append (q : ℕ) :
    Uncovered (original (as ++ ps)) (IsMasked (as ++ ps)) word ((original as).length + q) ↔
      Uncovered (original ps) (IsMasked ps) word q := by
  rw [Uncovered, Uncovered, original_append, List.drop_length_add_append]
  simp only [add_assoc, isMasked_append]

theorem free_append (h : ∀ q < (original as).length,
      Free (original (as ++ ps)) (IsMasked (as ++ ps)) word q →
        q + word.length ≤ (original as).length) (q : ℕ) :
    Free (original (as ++ ps)) (IsMasked (as ++ ps)) word ((original as).length + q) ↔
      Free (original ps) (IsMasked ps) word q := by
  rw [Free, chosen_add h]
  simp only [uncovered_append]
  rfl

theorem isMasked_cons (p : Piece α) (x : ℕ) :
    IsMasked (p :: ps) (p.original.length + x) ↔ IsMasked ps x := by
  have h := isMasked_append [p] ps x
  rwa [original, List.flatMap_singleton] at h

theorem isMasked_masked {text : List α} {x : ℕ} (hx : x < text.length) :
    IsMasked (.masked text :: ps) x := by
  have hlength : x < (List.replicate text.length true).length := by rwa [List.length_replicate]
  rw [IsMasked, maskOf_cons, Piece.mask, List.getElem?_append_left hlength,
    List.getElem?_replicate, if_pos hx]

theorem plainWord_of_uncovered (hps : Solid ps)
    (h : Uncovered (original ps) (IsMasked ps) word 0) : plainWord word <+: ps := by
  induction word generalizing ps with
  | nil => exact List.nil_prefix
  | cons x word ih =>
      obtain ⟨hocc, hplain⟩ := h
      rw [List.drop_zero] at hocc
      cases ps with
      | nil => exact absurd (List.prefix_nil.mp hocc) (List.cons_ne_nil x word)
      | cons p ps =>
          cases p with
          | plain y =>
              obtain ⟨rfl, htail⟩ := List.cons_prefix_cons.mp hocc
              refine List.cons_prefix_cons.mpr ⟨rfl, ih ?_ ⟨htail, fun i hi hmasked => ?_⟩⟩
              · exact fun text htext => hps text (List.mem_cons_of_mem _ htext)
              · apply hplain (1 + i) (by rw [List.length_cons]; omega)
                rw [zero_add] at hmasked ⊢
                exact (isMasked_cons (.plain x) i).mpr hmasked
          | masked text =>
              have hpos := List.length_pos_iff.mpr (hps text List.mem_cons_self)
              exact absurd (isMasked_masked hpos) (hplain 0 (Nat.succ_pos _))

theorem uncovered_of_plainWord (word : List α) (ps : List (Piece α)) :
    Uncovered (original (plainWord word ++ ps)) (IsMasked (plainWord word ++ ps)) word 0 := by
  constructor
  · rw [original_append, original_plainWord]
    exact List.prefix_append word _
  · intro i hi hmasked
    rw [zero_add, isMasked_append_left (by rwa [original_plainWord]), IsMasked,
      maskOf_plainWord, List.getElem?_replicate, if_pos hi] at hmasked
    cases hmasked

theorem isMasked_split (as as' : List (Piece α))
    (hlength : (original as').length = (original as).length)
    (hbound : ∀ q < (original as).length,
      Free (original (as ++ ps)) (IsMasked (as ++ ps)) word q →
        q + word.length ≤ (original as).length)
    (hleft : ∀ x < (original as).length, IsMasked as' x ↔ IsMasked as x ∨
      ∃ q, Free (original (as ++ ps)) (IsMasked (as ++ ps)) word q ∧ q ≤ x ∧
        x < q + word.length)
    (hright : ∀ x, IsMasked ps' x ↔ IsMasked ps x ∨
      ∃ q, Free (original ps) (IsMasked ps) word q ∧ q ≤ x ∧ x < q + word.length) (x : ℕ) :
    IsMasked (as' ++ ps') x ↔ IsMasked (as ++ ps) x ∨
      ∃ q, Free (original (as ++ ps)) (IsMasked (as ++ ps)) word q ∧ q ≤ x ∧
        x < q + word.length := by
  rcases lt_or_ge x (original as).length with hx | hx
  · rw [isMasked_append_left hx, isMasked_append_left (hx.trans_eq hlength.symm)]
    exact hleft x hx
  · obtain ⟨y, rfl⟩ := Nat.exists_eq_add_of_le hx
    have hmasked := isMasked_append as' ps' y
    rw [hlength] at hmasked
    rw [hmasked, isMasked_append, hright]
    apply or_congr_right
    constructor
    · rintro ⟨q, hq, hle, hlt⟩
      exact ⟨_, (free_append hbound q).mpr hq, by omega, by omega⟩
    · rintro ⟨q, hq, hle, hlt⟩
      have hge : (original as).length ≤ q := by
        by_contra hq'
        have hend := hbound q (by omega) hq
        omega
      obtain ⟨r, rfl⟩ := Nat.exists_eq_add_of_le hge
      exact ⟨r, (free_append hbound r).mp hq, by omega, by omega⟩

theorem free_zero (h : Uncovered (original ps) (IsMasked ps) word 0) :
    Free (original ps) (IsMasked ps) word 0 := by
  rw [Free, Chosen]
  exact ⟨h, fun q hq => (Nat.not_lt_zero q hq).elim⟩

theorem Free.uncovered {text : List α} {covered : ℕ → Prop} {q : ℕ}
    (h : Free text covered word q) : Uncovered text covered word q := by
  rw [Free, Chosen] at h
  exact h.1

theorem isMasked_split_other {p : Piece α}
    (hnone : ∀ q < p.original.length, ¬ Free (original (p :: ps)) (IsMasked (p :: ps)) word q)
    (hright : ∀ x, IsMasked ps' x ↔ IsMasked ps x ∨
      ∃ q, Free (original ps) (IsMasked ps) word q ∧ q ≤ x ∧ x < q + word.length) (x : ℕ) :
    IsMasked (p :: ps') x ↔ IsMasked (p :: ps) x ∨
      ∃ q, Free (original (p :: ps)) (IsMasked (p :: ps)) word q ∧ q ≤ x ∧
        x < q + word.length := by
  have hsingle : original [p] = p.original := List.flatMap_singleton ..
  rw [← hsingle] at hnone
  refine isMasked_split [p] [p] rfl (fun q hq hfree => ?_) (fun x hx => ?_)
    hright x
  · exact absurd hfree (hnone q hq)
  · rw [iff_self_or]
    rintro ⟨q, hfree, hle, -⟩
    exact absurd hfree (hnone q (hle.trans_lt hx))

variable [DecidableEq α]

theorem isMasked_maskWord (hword : word ≠ []) (hps : Solid ps) (x : ℕ) :
    IsMasked (maskWord word ps) x ↔ IsMasked ps x ∨
      ∃ q, Free (original ps) (IsMasked ps) word q ∧ q ≤ x ∧ x < q + word.length := by
  have hpos := List.length_pos_iff.mpr hword
  induction ps using replace_induction (plainWord_ne_nil hword) generalizing x with
  | hnil =>
      have hnil : maskWord word [] = [] := rfl
      rw [hnil, iff_self_or]
      rintro ⟨q, hfree, -⟩
      have hocc := hfree.uncovered.1
      rw [original, List.flatMap_nil, List.drop_nil, List.prefix_nil] at hocc
      exact absurd hocc hword
  | hfound ps ih =>
      have htail : Solid ps := fun text htext => hps text (List.mem_append_right _ htext)
      have hzero := free_zero (uncovered_of_plainWord word ps)
      have hlength : (original (plainWord word)).length = word.length := by
        rw [original_plainWord]
      have hmasked : (original [Piece.masked word]).length = word.length := by
        rw [original, List.flatMap_singleton, Piece.original]
      rw [maskWord_append hword]
      refine isMasked_split (plainWord word) [.masked word] (hmasked.trans hlength.symm)
        (fun q hq hfree => ?_) (fun x hx => ?_) (ih htail) x
      · rw [hlength] at hq ⊢
        rcases Nat.eq_zero_or_pos q with rfl | hq0
        · rw [zero_add]
        · rw [Free, Chosen] at hfree
          have hle := hfree.2 0 hq0 hzero
          omega
      · rw [hlength] at hx
        refine iff_of_true (isMasked_masked hx) (.inr ⟨0, hzero, Nat.zero_le x, ?_⟩)
        rwa [zero_add]
  | hother p ps hp ih =>
      have htail : Solid ps := fun text htext => hps text (List.mem_cons_of_mem _ htext)
      rw [maskWord_cons hp]
      refine isMasked_split_other (fun q hq hfree => ?_) (ih htail) x
      cases p with
      | plain y =>
          obtain rfl : q = 0 := Nat.lt_one_iff.mp hq
          exact hp (plainWord_of_uncovered hps hfree.uncovered)
      | masked text => exact hfree.uncovered.2 0 hpos (isMasked_masked hq)

theorem solid_maskWord (hword : word ≠ []) (hps : Solid ps) : Solid (maskWord word ps) := by
  induction ps using replace_induction (plainWord_ne_nil hword) with
  | hnil => exact hps
  | hfound ps ih =>
      rw [maskWord_append hword]
      intro text htext
      rcases List.mem_cons.mp htext with heq | htext
      · cases heq
        exact hword
      · exact ih (fun text htext => hps text (List.mem_append_right _ htext)) text htext
  | hother p ps hp ih =>
      rw [maskWord_cons hp]
      intro text htext
      rcases List.mem_cons.mp htext with rfl | htext
      · exact hps text List.mem_cons_self
      · exact ih (fun text htext => hps text (List.mem_cons_of_mem _ htext)) text htext

end Pieces

section Words

variable {α : Type*} {words : List (List α)}

theorem coveredBy_concat (text : List α) (words : List (List α)) (word : List α) :
    coveredBy text (words ++ [word]) = fun x => coveredBy text words x ∨
      ∃ q, Free text (coveredBy text words) word q ∧ q ≤ x ∧ x < q + word.length :=
  List.foldl_concat ..

theorem exists_of_coveredBy {text : List α} {x : ℕ} (h : coveredBy text words x) :
    ∃ word ∈ words, ∃ q, word <+: text.drop q ∧ q ≤ x ∧ x < q + word.length := by
  induction words using List.reverseRecOn with
  | nil => exact h.elim
  | append_singleton words word ih =>
      rw [coveredBy_concat] at h
      rcases h with h | ⟨q, hfree, hx⟩
      · obtain ⟨w, hw, hocc⟩ := ih h
        exact ⟨w, List.mem_append_left _ hw, hocc⟩
      · exact ⟨word, List.mem_append_right _ List.mem_cons_self, q, hfree.uncovered.1, hx⟩

variable [DecidableEq α]

theorem solid_maskWords (hwords : ∀ word ∈ words, word ≠ []) (text : List α) :
    Solid (maskWords words text) := by
  induction words using List.reverseRecOn with
  | nil =>
      intro masked hmasked
      obtain ⟨x, -, hx⟩ := List.mem_map.mp hmasked
      cases hx
  | append_singleton words word ih =>
      rw [List.forall_mem_append, List.forall_mem_singleton] at hwords
      rw [maskWords_concat]
      exact solid_maskWord hwords.2 (ih hwords.1)

theorem isMasked_maskWords (hwords : ∀ word ∈ words, word ≠ []) (text : List α) :
    IsMasked (maskWords words text) = coveredBy text words := by
  induction words using List.reverseRecOn with
  | nil =>
      funext x
      rw [maskWords, List.foldl_nil, IsMasked, maskOf_plainWord, List.getElem?_replicate]
      apply propext
      refine iff_of_false (fun h => ?_) id
      split at h
      · cases h
      · cases h
  | append_singleton words word ih =>
      rw [List.forall_mem_append, List.forall_mem_singleton] at hwords
      funext x
      rw [maskWords_concat, coveredBy_concat, ← ih hwords.1]
      have hmask := isMasked_maskWord hwords.2 (solid_maskWords hwords.1 text) x
      rw [original_maskWords hwords.1] at hmask
      exact propext hmask

end Words

/-! ## The output tells how much is behind markers -/

section Output

variable {α : Type*} {m : α} {ms : List α} {ps qs : List (Piece α)}

theorem isInfix_of_plain (hm : m ∉ ms) {x : α} {b : List α}
    (h : render (m :: ms) (.plain x :: ps) = m :: ms ++ b) :
    m :: ms <:+: original (.plain x :: ps) := by
  obtain ⟨rfl, htail⟩ := List.cons.inj h
  obtain ⟨rs, rfl⟩ := exists_plainWord hm htail
  refine ⟨[], original rs, ?_⟩
  rw [original_cons, original_append, original_plainWord, Piece.original]
  rfl

theorem not_isInfix_tail {p : Piece α} (h : ¬ m :: ms <:+: original (p :: ps)) :
    ¬ m :: ms <:+: original ps := by
  intro hinfix
  apply h
  rw [original_cons]
  exact hinfix.trans (List.suffix_append _ _).isInfix

theorem count_false_eq (hm : m ∉ ms) (hps : ¬ m :: ms <:+: original ps)
    (hqs : ¬ m :: ms <:+: original qs) (h : render (m :: ms) ps = render (m :: ms) qs) :
    (maskOf ps).count false = (maskOf qs).count false := by
  induction ps generalizing qs with
  | nil => rw [eq_nil_of_render (List.cons_ne_nil m ms) h.symm]
  | cons p ps ih =>
      cases qs with
      | nil => cases eq_nil_of_render (List.cons_ne_nil m ms) h
      | cons q qs =>
          have hrest := ih (not_isInfix_tail hps) (not_isInfix_tail hqs)
          cases p with
          | plain x =>
              cases q with
              | plain y =>
                  obtain ⟨rfl, htail⟩ := List.cons.inj h
                  rw [maskOf_cons, maskOf_cons, List.count_append, List.count_append,
                    hrest htail]
              | masked text =>
                  rw [render_cons (p := .masked text)] at h
                  exact absurd (isInfix_of_plain hm h) hps
          | masked text =>
              cases q with
              | plain y =>
                  rw [render_cons (p := .masked text)] at h
                  exact absurd (isInfix_of_plain hm h.symm) hqs
              | masked text' =>
                  rw [render_cons, render_cons] at h
                  have htail := List.append_cancel_left h
                  rw [maskOf_cons, maskOf_cons, List.count_append, List.count_append,
                    hrest htail, Piece.mask, Piece.mask, List.count_replicate,
                    List.count_replicate]
                  rfl

end Output

theorem count_false_le {l l' : List Bool} (hlength : l.length = l'.length)
    (hle : ∀ x : ℕ, l[x]? = some true → l'[x]? = some true) :
    l'.count false ≤ l.count false := by
  induction l generalizing l' with
  | nil => rw [List.length_eq_zero_iff.mp hlength.symm]
  | cons a l ih =>
      cases l' with
      | nil => cases hlength
      | cons b l' =>
          have htail := ih (Nat.succ_injective hlength) fun x => hle (x + 1)
          have hhead : a = true → b = true := by
            rintro rfl
            exact Option.some.inj (hle 0 rfl)
          rw [List.count_cons, List.count_cons]
          cases a with
          | false =>
              cases b with
              | false => exact Nat.succ_le_succ htail
              | true => exact htail.trans (Nat.le_succ _)
          | true =>
              obtain rfl := hhead rfl
              exact htail

theorem mask_eq_of_le {l l' : List Bool} (hlength : l.length = l'.length)
    (hle : ∀ x : ℕ, l[x]? = some true → l'[x]? = some true)
    (hcount : l.count false = l'.count false) : l = l' := by
  induction l generalizing l' with
  | nil => exact (List.length_eq_zero_iff.mp hlength.symm).symm
  | cons a l ih =>
      cases l' with
      | nil => cases hlength
      | cons b l' =>
          have hlength' : l.length = l'.length := Nat.succ_injective hlength
          have hle' : ∀ x : ℕ, l[x]? = some true → l'[x]? = some true := fun x => hle (x + 1)
          have hcount' := count_false_le hlength' hle'
          rw [List.count_cons, List.count_cons] at hcount
          cases a with
          | true =>
              obtain rfl : b = true := Option.some.inj (hle 0 rfl)
              rw [ih hlength' hle' hcount]
          | false =>
              cases b with
              | true =>
                  simp at hcount
                  omega
              | false => rw [ih hlength' hle' (Nat.succ_injective hcount)]

section Replaces

variable {α : Type*} [DecidableEq α] {words : List (List α)} {marker text : List α}

theorem replaces_of_allCovered (hwords : ∀ word ∈ words, word ≠ []) (hmarker : marker ≠ [])
    (hturn : AllUntouched marker words text) (h : AllCovered words text) :
    Replaces marker words text
      (words.foldl (fun text word => replace word marker text) text) := by
  refine ⟨maskWords words text, original_maskWords hwords text,
    render_maskWords hwords hmarker hturn, solid_maskWords hwords text, ?_⟩
  rw [isMasked_maskWords hwords]
  exact h

/-- When the text has no marker of its own, nothing else is behind the markers of the
output than what the free occurrences cover. -/
theorem allCovered_of_replaces {m : α} {ms : List α} (hwords : ∀ word ∈ words, word ≠ [])
    (hm : m ∉ ms) (hturn : AllUntouched (m :: ms) words text) (htext : ¬ m :: ms <:+: text)
    (h : Replaces (m :: ms) words text
      (words.foldl (fun text word => replace word (m :: ms) text) text)) :
    AllCovered words text := by
  obtain ⟨ps, horiginal, hrender, -, hmasked⟩ := h
  have hown := original_maskWords hwords text
  rw [← render_maskWords hwords (List.cons_ne_nil m ms) hturn] at hrender
  have hcount := count_false_eq hm (hown.symm ▸ htext) (horiginal.symm ▸ htext) hrender.symm
  have hlength : (maskOf (maskWords words text)).length = (maskOf ps).length := by
    rw [length_maskOf, length_maskOf, hown, horiginal]
  have hle : ∀ x, IsMasked (maskWords words text) x → IsMasked ps x := by
    intro x hx
    rw [isMasked_maskWords hwords] at hx
    obtain ⟨word, hword, q, hocc, hle, hlt⟩ := exists_of_coveredBy hx
    obtain ⟨i, rfl⟩ := Nat.exists_eq_add_of_le hle
    exact hmasked word hword q hocc i (by omega)
  have heq := mask_eq_of_le hlength hle hcount
  intro word hword q hocc i hi
  rw [← isMasked_maskWords hwords, IsMasked, heq]
  exact hmasked word hword q hocc i hi

theorem allCovered_of_isMasked (hwords : ∀ word ∈ words, word ≠ [])
    (h : ∀ word ∈ words, ∀ q < text.length, word <+: text.drop q →
      ∀ i < word.length, IsMasked (maskWords words text) (q + i)) : AllCovered words text := by
  intro word hword q hocc i hi
  rw [← isMasked_maskWords hwords]
  rcases lt_or_ge q text.length with hq | hq
  · exact h word hword q hq hocc i hi
  · rw [List.drop_eq_nil_of_le hq, List.prefix_nil] at hocc
    exact absurd hocc (hwords word hword)

end Replaces

end Text
