import Mathlib

/-!
# Fields behind a separator

Two ways in which a text behind a separator can be told from what comes before it:
the text before has no separator, or the text behind is quoted. Quoted texts have
separators only within their string literals, which are written between quotation
marks with the backslash as escape, as in JSON. A quoted text cannot begin within a
literal of another one and end with it.
-/

namespace Text

/-! ## Fields without the separator -/

section Fields

variable {α : Type*} {sep : α} {a b c d : List α}

theorem append_sep_inj_left (ha : sep ∉ a) (hb : sep ∉ b) (h : a ++ sep :: c = b ++ sep :: d) :
    a = b ∧ c = d := by
  induction a generalizing b with
  | nil =>
      cases b with
      | nil => exact ⟨rfl, (List.cons.inj h).2⟩
      | cons y b =>
          have hy : sep = y := (List.cons.inj h).1
          exact absurd (hy ▸ List.mem_cons_self) hb
  | cons x a ih =>
      cases b with
      | nil =>
          have hx : x = sep := (List.cons.inj h).1
          exact absurd (hx ▸ List.mem_cons_self) ha
      | cons y b =>
          obtain ⟨hxy, htail⟩ := List.cons.inj h
          obtain ⟨hab, hcd⟩ := ih (fun hmem => ha (List.mem_cons_of_mem _ hmem))
            (fun hmem => hb (List.mem_cons_of_mem _ hmem)) htail
          exact ⟨by rw [hxy, hab], hcd⟩

theorem append_sep_inj_right (hc : sep ∉ c) (hd : sep ∉ d) (h : a ++ sep :: c = b ++ sep :: d) :
    a = b ∧ c = d := by
  have hreverse := congrArg List.reverse h
  rw [List.reverse_append, List.reverse_append, List.reverse_cons, List.reverse_cons,
    List.append_assoc, List.append_assoc] at hreverse
  obtain ⟨htail, hhead⟩ := append_sep_inj_left (List.mem_reverse.not.mpr hc)
    (List.mem_reverse.not.mpr hd) hreverse
  exact ⟨List.reverse_injective hhead, List.reverse_injective htail⟩

theorem mem_intercalate {x : α} {parts : List (List α)} (h : x ∈ [sep].intercalate parts) :
    x = sep ∨ ∃ part ∈ parts, x ∈ part := by
  induction parts with
  | nil => cases h
  | cons part parts ih =>
      cases parts with
      | nil =>
          rw [List.intercalate_singleton] at h
          exact .inr ⟨part, List.mem_cons_self, h⟩
      | cons next parts =>
          rw [List.intercalate_cons_cons, List.mem_append, List.mem_append,
            List.mem_singleton] at h
          rcases h with (hpart | hsep) | hrest
          · exact .inr ⟨part, List.mem_cons_self, hpart⟩
          · exact .inl hsep
          · cases ih hrest with
            | inl hsep => exact .inl hsep
            | inr hmem =>
                obtain ⟨other, hother, hx⟩ := hmem
                exact .inr ⟨other, List.mem_cons_of_mem _ hother, hx⟩

end Fields

/-! ## Quoted texts -/

/-- Where a reader is: outside of string literals, within one, or behind the backslash
of an escape. -/
inductive Mode where
  | outside
  | inside
  | escaped
  deriving DecidableEq

/-- The place behind the next character; outside of literals there is neither a
backslash nor the separator. -/
def Mode.next (sep : Char) : Mode → Char → Option Mode
  | outside, c =>
      if c = '"' then some inside else if c = '\\' ∨ c = sep then none else some outside
  | inside, c =>
      if c = '"' then some outside else if c = '\\' then some escaped else some inside
  | escaped, _ => some inside

def scan (sep : Char) : Mode → List Char → Option Mode
  | m, [] => some m
  | m, c :: cs => (m.next sep c).bind fun m' => scan sep m' cs

/-- A text whose literals are closed and hold all of its separators. -/
def Quoted (sep : Char) (cs : List Char) : Prop :=
  scan sep .outside cs = some .outside

instance (sep : Char) (cs : List Char) : Decidable (Quoted sep cs) :=
  inferInstanceAs (Decidable (_ = _))

section Quoted

variable {sep : Char}

theorem scan_append (m : Mode) (a b : List Char) :
    scan sep m (a ++ b) = (scan sep m a).bind fun m' => scan sep m' b := by
  induction a generalizing m with
  | nil => rfl
  | cons c a ih =>
      rw [List.cons_append, scan, scan]
      cases m.next sep c with
      | none => rfl
      | some m' => exact ih m'

/-- Two readers of one text, one of them within a literal and the other outside, change
places at every quotation mark. -/
theorem scan_complement (cs : List Char) {m n m' n' : Mode}
    (hmn : (m = .outside ∧ n = .inside) ∨ (m = .inside ∧ n = .outside))
    (hm : scan sep m cs = some m') (hn : scan sep n cs = some n') : m' ≠ n' := by
  induction cs generalizing m n with
  | nil =>
      cases hm
      cases hn
      cases hmn with
      | inl h =>
          rw [h.1, h.2]
          exact Mode.noConfusion
      | inr h =>
          rw [h.1, h.2]
          exact Mode.noConfusion
  | cons c cs ih =>
      by_cases hquote : c = '"'
      · cases hmn with
        | inl h =>
            rw [scan, h.1, Mode.next, if_pos hquote] at hm
            rw [scan, h.2, Mode.next, if_pos hquote] at hn
            exact ih (.inr ⟨rfl, rfl⟩) hm hn
        | inr h =>
            rw [scan, h.1, Mode.next, if_pos hquote] at hm
            rw [scan, h.2, Mode.next, if_pos hquote] at hn
            exact ih (.inl ⟨rfl, rfl⟩) hm hn
      by_cases hstop : c = '\\' ∨ c = sep
      · -- the reader outside of literals gets stuck
        cases hmn with
        | inl h =>
            rw [scan, h.1, Mode.next, if_neg hquote, if_pos hstop] at hm
            cases hm
        | inr h =>
            rw [scan, h.2, Mode.next, if_neg hquote, if_pos hstop] at hn
            cases hn
      · have hslash : c ≠ '\\' := fun h => hstop (.inl h)
        cases hmn with
        | inl h =>
            rw [scan, h.1, Mode.next, if_neg hquote, if_neg hstop] at hm
            rw [scan, h.2, Mode.next, if_neg hquote, if_neg hslash] at hn
            exact ih (.inl ⟨rfl, rfl⟩) hm hn
        | inr h =>
            rw [scan, h.1, Mode.next, if_neg hquote, if_neg hslash] at hm
            rw [scan, h.2, Mode.next, if_neg hquote, if_neg hstop] at hn
            exact ih (.inr ⟨rfl, rfl⟩) hm hn

theorem Quoted.not_suffix {a b : List Char} (hquote : sep ≠ '"') (hslash : sep ≠ '\\')
    (h : Quoted sep (a ++ sep :: b)) : ¬ Quoted sep b := by
  intro hb
  rw [Quoted, scan_append] at h
  cases hmode : scan sep .outside a with
  | none =>
      rw [hmode] at h
      cases h
  | some m =>
      rw [hmode, Option.bind_some, scan] at h
      cases m with
      | outside =>
          rw [Mode.next, if_neg hquote, if_pos (.inr rfl)] at h
          cases h
      | inside =>
          rw [Mode.next, if_neg hquote, if_neg hslash] at h
          exact scan_complement b (.inl ⟨rfl, rfl⟩) hb h rfl
      | escaped => exact scan_complement b (.inl ⟨rfl, rfl⟩) hb h rfl

theorem append_sep_inj_quoted {a b c d : List Char} (hquote : sep ≠ '"') (hslash : sep ≠ '\\')
    (hc : Quoted sep c) (hd : Quoted sep d) (h : a ++ sep :: c = b ++ sep :: d) :
    a = b ∧ c = d := by
  cases List.append_eq_append_iff.mp h with
  | inl hleft =>
      obtain ⟨m, hb, hm⟩ := hleft
      cases m with
      | nil =>
          rw [List.append_nil] at hb
          exact ⟨hb.symm, (List.cons.inj hm).2⟩
      | cons s m =>
          rw [(List.cons.inj hm).2] at hc
          exact absurd hd (hc.not_suffix hquote hslash)
  | inr hright =>
      obtain ⟨m, ha, hm⟩ := hright
      cases m with
      | nil =>
          rw [List.append_nil] at ha
          exact ⟨ha, (List.cons.inj hm).2.symm⟩
      | cons s m =>
          rw [(List.cons.inj hm).2] at hd
          exact absurd hc (hd.not_suffix hquote hslash)

end Quoted

end Text
