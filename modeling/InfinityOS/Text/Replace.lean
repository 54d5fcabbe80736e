import Mathlib

/-!
# Replacing the occurrences of words

`replace` puts a marker in the place of the occurrences of a word, the leftmost first and
no two overlapping. When several words are replaced one after the other, `Piece` keeps
apart what is left of the text and what is behind a marker; on pieces the replacement of a
word is again `replace`, and as long as no occurrence of the word touches a marker the
two agree.
-/

namespace Text

/-! ## Pieces -/

section Pieces

variable {α : Type*}

/-- An element of the text, or an interval of it behind a marker. -/
inductive Piece (α : Type*) where
  | plain (x : α)
  | masked (text : List α)
  deriving DecidableEq

def Piece.original : Piece α → List α
  | plain x => [x]
  | masked text => text

def Piece.render (marker : List α) : Piece α → List α
  | plain x => [x]
  | masked _ => marker

/-- For each element of the text whether it is behind a marker. -/
def Piece.mask : Piece α → List Bool
  | plain _ => [false]
  | masked text => List.replicate text.length true

def original (ps : List (Piece α)) : List α :=
  ps.flatMap Piece.original

def render (marker : List α) (ps : List (Piece α)) : List α :=
  ps.flatMap (Piece.render marker)

def maskOf (ps : List (Piece α)) : List Bool :=
  ps.flatMap Piece.mask

/-- A word that is not behind a marker. -/
def plainWord (word : List α) : List (Piece α) :=
  word.map Piece.plain

/-- Every occurrence of the word in the text with the markers is one of plain elements. -/
def Untouched (marker word : List α) (ps : List (Piece α)) : Prop :=
  ∀ a b, render marker ps = a ++ word ++ b →
    ∃ as bs, ps = as ++ plainWord word ++ bs ∧ render marker as = a

variable {word marker : List α} {p : Piece α} {ps qs : List (Piece α)}

theorem original_append : original (ps ++ qs) = original ps ++ original qs :=
  List.flatMap_append

theorem render_append : render marker (ps ++ qs) = render marker ps ++ render marker qs :=
  List.flatMap_append

theorem maskOf_append : maskOf (ps ++ qs) = maskOf ps ++ maskOf qs :=
  List.flatMap_append

theorem original_cons : original (p :: ps) = p.original ++ original ps :=
  List.flatMap_cons

theorem render_cons : render marker (p :: ps) = p.render marker ++ render marker ps :=
  List.flatMap_cons

theorem maskOf_cons : maskOf (p :: ps) = p.mask ++ maskOf ps :=
  List.flatMap_cons

theorem plainWord_ne_nil (hword : word ≠ []) : plainWord word ≠ [] := by
  rw [plainWord, ne_eq, List.map_eq_nil_iff]
  exact hword

theorem original_plainWord (word : List α) : original (plainWord word) = word := by
  induction word with
  | nil => rfl
  | cons x word ih => rw [plainWord, List.map_cons, original_cons, ← plainWord, ih]; rfl

theorem render_plainWord (marker word : List α) : render marker (plainWord word) = word := by
  induction word with
  | nil => rfl
  | cons x word ih => rw [plainWord, List.map_cons, render_cons, ← plainWord, ih]; rfl

theorem maskOf_plainWord (word : List α) :
    maskOf (plainWord word) = List.replicate word.length false := by
  induction word with
  | nil => rfl
  | cons x word ih => rw [plainWord, List.map_cons, maskOf_cons, ← plainWord, ih]; rfl

theorem length_maskOf (ps : List (Piece α)) : (maskOf ps).length = (original ps).length := by
  induction ps with
  | nil => rfl
  | cons p ps ih =>
      rw [maskOf_cons, original_cons, List.length_append, List.length_append, ih]
      cases p with
      | plain x => rfl
      | masked text => rw [Piece.mask, List.length_replicate, Piece.original]

theorem eq_nil_of_render (hmarker : marker ≠ []) (h : render marker ps = []) : ps = [] := by
  cases ps with
  | nil => rfl
  | cons p ps =>
      rw [render_cons, List.append_eq_nil_iff] at h
      cases p with
      | plain x => cases h.1
      | masked text => exact absurd h.1 hmarker

theorem Untouched.drop (hmarker : marker ≠ []) (as₀ : List (Piece α))
    (h : Untouched marker word (as₀ ++ ps)) : Untouched marker word ps := by
  intro a b hocc
  obtain ⟨as, bs, hps, has⟩ := h (render marker as₀ ++ a) b (by
    rw [render_append, hocc, List.append_assoc, List.append_assoc, List.append_assoc])
  rw [List.append_assoc, List.append_eq_append_iff] at hps
  rcases hps with ⟨cs, rfl, hps⟩ | ⟨cs, rfl, hps⟩
  · refine ⟨cs, bs, ?_, ?_⟩
    · rw [hps, List.append_assoc]
    · rw [render_append] at has
      exact List.append_cancel_left has
  · -- the occurrence would begin before the text does
    rw [render_append, List.append_assoc, List.self_eq_append_right,
      List.append_eq_nil_iff] at has
    obtain rfl := eq_nil_of_render hmarker has.1
    rw [List.nil_append] at hps
    exact ⟨[], bs, hps.symm, has.2.symm⟩

theorem exists_plainWord {m : α} {ms b : List α} (hm : m ∉ word)
    (h : render (m :: ms) ps = word ++ b) : ∃ qs, ps = plainWord word ++ qs := by
  induction word generalizing ps with
  | nil => exact ⟨ps, rfl⟩
  | cons x word ih =>
      rw [List.mem_cons, not_or] at hm
      cases ps with
      | nil => cases h
      | cons p ps =>
          rw [render_cons] at h
          cases p with
          | plain y =>
              obtain ⟨rfl, htail⟩ := List.cons.inj h
              obtain ⟨qs, rfl⟩ := ih hm.2 htail
              exact ⟨qs, rfl⟩
          | masked text => exact absurd (List.cons.inj h).1 hm.1

theorem untouched_of_disjoint (hword : word ≠ []) (hmarker : marker ≠ [])
    (h : ∀ x ∈ word, x ∉ marker) (ps : List (Piece α)) : Untouched marker word ps := by
  obtain ⟨m, ms, rfl⟩ := List.exists_cons_of_ne_nil hmarker
  have hm : m ∉ word := fun hmem => h m hmem List.mem_cons_self
  intro a b hocc
  induction ps generalizing a with
  | nil =>
      rw [List.append_assoc, eq_comm, render, List.flatMap_nil, List.append_eq_nil_iff,
        List.append_eq_nil_iff] at hocc
      exact absurd hocc.2.1 hword
  | cons p ps ih =>
      cases a with
      | nil =>
          rw [List.nil_append] at hocc
          obtain ⟨qs, hqs⟩ := exists_plainWord hm hocc
          exact ⟨[], qs, hqs, rfl⟩
      | cons y a =>
          rw [render_cons, List.append_assoc, List.append_eq_append_iff] at hocc
          rcases hocc with ⟨c, hc, hrest⟩ | ⟨c, hc, hrest⟩
          · obtain ⟨as, bs, rfl, rfl⟩ := ih c (by rw [hrest, List.append_assoc])
            exact ⟨p :: as, bs, rfl, hc.symm⟩
          · cases c with
            | nil =>
                obtain ⟨qs, hqs⟩ := exists_plainWord hm hrest.symm
                rw [List.append_nil] at hc
                refine ⟨[p], qs, congrArg (p :: ·) hqs, ?_⟩
                rw [render, List.flatMap_singleton, hc]
            | cons z c =>
                -- the first element of the word would be one of the marker
                obtain ⟨x, xs, rfl⟩ := List.exists_cons_of_ne_nil hword
                obtain ⟨rfl, -⟩ := List.cons.inj hrest
                have hmem : x ∈ p.render (m :: ms) := by
                  rw [hc]
                  exact List.mem_append_right _ List.mem_cons_self
                cases p with
                | plain w => cases a <;> cases hc
                | masked text => exact absurd hmem (h x List.mem_cons_self)

end Pieces

/-! ## Replacement -/

variable {α : Type*} [DecidableEq α]

/-- The first `skip` elements are passed over: they belong to the occurrence before. -/
def replaceFrom (word marker : List α) : ℕ → List α → List α
  | _, [] => []
  | skip + 1, _ :: text => replaceFrom word marker skip text
  | 0, x :: text =>
      if word <+: x :: text then marker ++ replaceFrom word marker (word.length - 1) text
      else x :: replaceFrom word marker 0 text

def replace (word marker text : List α) : List α :=
  replaceFrom word marker 0 text

section Replace

variable {word marker : List α}

theorem replaceFrom_eq_drop (n : ℕ) (text : List α) :
    replaceFrom word marker n text = replace word marker (text.drop n) := by
  induction text generalizing n with
  | nil => rw [List.drop_nil, replaceFrom, replace, replaceFrom]
  | cons x text ih =>
      cases n with
      | zero => rfl
      | succ n => rw [replaceFrom, List.drop_succ_cons, ih]

theorem replace_append (hword : word ≠ []) (text : List α) :
    replace word marker (word ++ text) = marker ++ replace word marker text := by
  obtain ⟨x, xs, rfl⟩ := List.exists_cons_of_ne_nil hword
  have hocc : x :: xs <+: x :: (xs ++ text) := List.prefix_append (x :: xs) text
  rw [List.cons_append, replace, replaceFrom, if_pos hocc, replaceFrom_eq_drop,
    List.length_cons, Nat.add_sub_cancel, List.drop_left]

theorem replace_cons {x : α} {text : List α} (h : ¬ word <+: x :: text) :
    replace word marker (x :: text) = x :: replace word marker text := by
  rw [replace, replaceFrom, if_neg h, replace]

theorem replace_append_of_not {pre : List α} {text : List α}
    (h : ∀ a b, pre = a ++ b → b ≠ [] → ¬ word <+: b ++ text) :
    replace word marker (pre ++ text) = pre ++ replace word marker text := by
  induction pre with
  | nil => rfl
  | cons x pre ih =>
      have hhead : ¬ word <+: x :: (pre ++ text) := h [] (x :: pre) rfl (List.cons_ne_nil x pre)
      have htail : ∀ a b, pre = a ++ b → b ≠ [] → ¬ word <+: b ++ text := by
        intro a b hpre
        exact h (x :: a) b (by rw [hpre, List.cons_append])
      rw [List.cons_append, replace_cons hhead, ih htail, List.cons_append]

/-- The recursion of `replace` on whole texts. -/
theorem replace_induction (hword : word ≠ []) {P : List α → Prop} (hnil : P [])
    (hfound : ∀ text, P text → P (word ++ text))
    (hother : ∀ x text, ¬ word <+: x :: text → P text → P (x :: text)) (text : List α) :
    P text := by
  induction hlength : text.length using Nat.strong_induction_on generalizing text with
  | h n ih =>
      cases text with
      | nil => exact hnil
      | cons x text =>
          by_cases hocc : word <+: x :: text
          · obtain ⟨rest, hrest⟩ := hocc
            have hpos := List.length_pos_iff.mpr hword
            have hlt : rest.length < n := by
              rw [← hlength, ← hrest, List.length_append]
              omega
            rw [← hrest]
            exact hfound rest (ih _ hlt rest rfl)
          · have hlt : text.length < n := by
              rw [← hlength, List.length_cons]
              exact Nat.lt_succ_self _
            exact hother x text hocc (ih _ hlt text rfl)

end Replace

def maskWord (word : List α) (ps : List (Piece α)) : List (Piece α) :=
  replace (plainWord word) [.masked word] ps

/-- The words are replaced one after the other. -/
def maskWords (words : List (List α)) (text : List α) : List (Piece α) :=
  words.foldl (fun ps word => maskWord word ps) (plainWord text)

/-- At its turn no word touches a marker put in before. -/
def AllUntouched (marker : List α) (words : List (List α)) (text : List α) : Prop :=
  ∀ before word after, words = before ++ word :: after →
    Untouched marker word (maskWords before text)

section Mask

variable {word marker : List α} {p : Piece α} {ps : List (Piece α)}

theorem maskWord_append (hword : word ≠ []) (ps : List (Piece α)) :
    maskWord word (plainWord word ++ ps) = .masked word :: maskWord word ps :=
  replace_append (plainWord_ne_nil hword) ps

theorem maskWord_cons (h : ¬ plainWord word <+: p :: ps) :
    maskWord word (p :: ps) = p :: maskWord word ps :=
  replace_cons h

theorem original_maskWord (hword : word ≠ []) (ps : List (Piece α)) :
    original (maskWord word ps) = original ps := by
  induction ps using replace_induction (plainWord_ne_nil hword) with
  | hnil => rfl
  | hfound ps ih =>
      rw [maskWord_append hword, original_cons, ih, original_append, original_plainWord,
        Piece.original]
  | hother p ps h ih => rw [maskWord_cons h, original_cons, ih, original_cons]

theorem render_maskWord (hword : word ≠ []) (hmarker : marker ≠ [])
    (h : Untouched marker word ps) :
    render marker (maskWord word ps) = replace word marker (render marker ps) := by
  induction ps using replace_induction (plainWord_ne_nil hword) with
  | hnil => rfl
  | hfound ps ih =>
      rw [maskWord_append hword, render_cons, ih (h.drop hmarker _), render_append,
        render_plainWord, replace_append hword, Piece.render]
  | hother p ps hp ih =>
      rw [maskWord_cons hp, render_cons, ih (h.drop hmarker [p]), render_cons,
        replace_append_of_not]
      -- an occurrence that begins in the piece is one of plain elements, at its beginning
      rintro a b hab hb ⟨c, hocc⟩
      obtain ⟨as, bs, hps, has⟩ := h a c (by
        rw [render_cons, hab, List.append_assoc, List.append_assoc, hocc])
      cases as with
      | nil => exact hp ⟨bs, hps.symm⟩
      | cons q as =>
          obtain ⟨rfl, -⟩ := List.cons.inj hps
          rw [render_cons, hab, List.append_assoc] at has
          have hlength := congrArg List.length has
          have hpos := List.length_pos_iff.mpr hb
          simp only [List.length_append] at hlength
          omega

theorem maskWords_concat (words : List (List α)) (word text : List α) :
    maskWords (words ++ [word]) text = maskWord word (maskWords words text) :=
  List.foldl_concat ..

theorem original_maskWords {words : List (List α)} (hwords : ∀ word ∈ words, word ≠ [])
    (text : List α) : original (maskWords words text) = text := by
  induction words using List.reverseRecOn with
  | nil => exact original_plainWord text
  | append_singleton words word ih =>
      rw [List.forall_mem_append, List.forall_mem_singleton] at hwords
      rw [maskWords_concat, original_maskWord hwords.2, ih hwords.1]

theorem render_maskWords {words : List (List α)} (hwords : ∀ word ∈ words, word ≠ [])
    (hmarker : marker ≠ []) {text : List α} (h : AllUntouched marker words text) :
    render marker (maskWords words text) =
      words.foldl (fun text word => replace word marker text) text := by
  induction words using List.reverseRecOn with
  | nil => exact render_plainWord marker text
  | append_singleton words word ih =>
      rw [List.forall_mem_append, List.forall_mem_singleton] at hwords
      have hbefore : AllUntouched marker words text := by
        intro before w after hsplit
        exact h before w (after ++ [word]) (by rw [hsplit, List.append_assoc, List.cons_append])
      have hlast : Untouched marker word (maskWords words text) := h words word [] rfl
      rw [maskWords_concat, render_maskWord hwords.2 hmarker hlast, ih hwords.1 hbefore,
        List.foldl_concat]

theorem allUntouched_of_disjoint {words : List (List α)} (hmarker : marker ≠ [])
    (hwords : ∀ word ∈ words, word ≠ []) (h : ∀ word ∈ words, ∀ x ∈ word, x ∉ marker)
    (text : List α) : AllUntouched marker words text := by
  rintro before word after rfl
  have hmem : word ∈ before ++ word :: after := List.mem_append_right _ List.mem_cons_self
  exact untouched_of_disjoint (hwords word hmem) hmarker (h word hmem) _

end Mask

end Text
