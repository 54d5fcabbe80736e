import InfinityOS.Mesh.Types
import InfinityOS.Text.Decimal

/-!
# Texts of schema versions

The three parts of a version are read as any `u32` is, with a plus sign or zeros in front.
Such a text is accepted although no version is displayed that way; all others are accepted
just where they are what a version is displayed as.
-/

namespace InfinityOS

namespace Mesh

open Text

/-! ## Numbers -/

/-- What is left of a number without its plus sign. -/
def unsigned (s : List Char) : List Char :=
  match s with
  | '+' :: rest => rest
  | s => s

/-- A number of 32 bits, with or without a plus sign. -/
def IsNumber (s : List Char) : Prop :=
  unsigned s ≠ [] ∧ (∀ c ∈ unsigned s, c.isDigit = true) ∧
    Nat.ofDigitChars 10 (unsigned s) 0 < 2 ^ 32

theorem unsigned_of_isDigit {s : List Char} (h : ∀ c ∈ s, c.isDigit = true) : unsigned s = s := by
  unfold unsigned
  split
  · exact absurd (h '+' List.mem_cons_self) (by decide)
  · rfl

theorem parseU32_eq_some_iff {s : List Char} {v : UInt32} :
    parseU32 s = some v ↔ IsNumber s ∧ Nat.ofDigitChars 10 (unsigned s) 0 = v.toNat := by
  have hparse : parseU32 s =
      if unsigned s ≠ [] ∧ (unsigned s).all Char.isDigit = true ∧
          Nat.ofDigitChars 10 (unsigned s) 0 < 2 ^ 32 then
        some (UInt32.ofNat (Nat.ofDigitChars 10 (unsigned s) 0))
      else none := rfl
  have hnumber : IsNumber s ↔ unsigned s ≠ [] ∧ (unsigned s).all Char.isDigit = true ∧
      Nat.ofDigitChars 10 (unsigned s) 0 < 2 ^ 32 := by
    rw [IsNumber, List.all_eq_true]
  rw [hparse, hnumber]
  split
  · next h =>
      have hvalue : (UInt32.ofNat (Nat.ofDigitChars 10 (unsigned s) 0)).toNat =
          Nat.ofDigitChars 10 (unsigned s) 0 :=
        UInt32.toNat_ofNat_of_lt' h.2.2
      rw [Option.some.injEq, ← UInt32.toNat_inj, hvalue]
      exact (and_iff_right h).symm
  · next h => exact iff_of_false (by simp) fun hs => h hs.1

theorem isSome_parseU32_iff {s : List Char} : (parseU32 s).isSome ↔ IsNumber s := by
  rw [Option.isSome_iff_exists]
  constructor
  · rintro ⟨v, hv⟩
    exact (parseU32_eq_some_iff.mp hv).1
  · intro hs
    refine ⟨UInt32.ofNat (Nat.ofDigitChars 10 (unsigned s) 0), parseU32_eq_some_iff.mpr ⟨hs, ?_⟩⟩
    exact (UInt32.toNat_ofNat_of_lt' hs.2.2).symm

theorem isDigit_toDigits (n : ℕ) : ∀ c ∈ Nat.toDigits 10 n, c.isDigit = true :=
  fun _ hc => Nat.isDigit_of_mem_toDigits (by norm_num) (by norm_num) hc

theorem parseU32_toDigits (v : UInt32) : parseU32 (Nat.toDigits 10 v.toNat) = some v := by
  have hdigits := isDigit_toDigits v.toNat
  rw [parseU32_eq_some_iff, IsNumber, unsigned_of_isDigit hdigits, Nat.ofDigitChars_ten_toDigits]
  exact ⟨⟨Nat.toDigits_ne_nil, hdigits, v.toNat_lt⟩, rfl⟩

/-- A sign, or a zero in front of another digit. -/
def Embellished (s : List Char) : Prop :=
  s.head? = some '+' ∨ Padded s

theorem toDigits_parseU32_iff {s : List Char} {v : UInt32} (h : parseU32 s = some v) :
    Nat.toDigits 10 v.toNat = s ↔ ¬ Embellished s := by
  obtain ⟨⟨hne, hdigits, -⟩, hvalue⟩ := parseU32_eq_some_iff.mp h
  by_cases hplus : s.head? = some '+'
  · apply iff_of_false
    · intro hs
      have hmem : '+' ∈ Nat.toDigits 10 v.toNat := by
        rw [hs]
        exact List.mem_of_mem_head? hplus
      exact absurd (isDigit_toDigits _ _ hmem) (by decide)
    · exact not_not.mpr (.inl hplus)
  · have hs : unsigned s = s := by
      unfold unsigned
      split
      · exact absurd rfl hplus
      · rfl
    rw [hs] at hne hdigits hvalue
    rw [← hvalue, toDigits_ofDigitChars_iff hne hdigits]
    unfold Embellished
    rw [or_iff_right hplus]

/-! ## Versions -/

namespace SchemaVersion

def parts (v : SchemaVersion) : List (List Char) :=
  [Nat.toDigits 10 v.major.toNat, Nat.toDigits 10 v.minor.toNat, Nat.toDigits 10 v.patch.toNat]

theorem toList_display (v : SchemaVersion) : v.display.toList = ['.'].intercalate v.parts := by
  simp [display, parts, List.intercalate]

theorem splitOn_display (v : SchemaVersion) : v.display.toList.splitOn '.' = v.parts := by
  rw [toList_display]
  apply List.splitOn_intercalate
  · have hdot (n : ℕ) : '.' ∉ Nat.toDigits 10 n := by
      intro hmem
      exact absurd (isDigit_toDigits n _ hmem) (by decide)
    intro part hpart
    simp only [parts, List.mem_cons, List.not_mem_nil, or_false] at hpart
    rcases hpart with rfl | rfl | rfl
    · exact hdot _
    · exact hdot _
    · exact hdot _
  · exact List.cons_ne_nil _ _

theorem display_eq_iff {v : SchemaVersion} {s : String} :
    v.display = s ↔ v.parts = s.toList.splitOn '.' := by
  constructor
  · rintro rfl
    exact (splitOn_display v).symm
  · intro h
    rw [← String.toList_inj, toList_display, h, List.intercalate_splitOn]

theorem parse_eq_ok_iff {s : String} {v : SchemaVersion} :
    parse s = .ok v ↔ ∃ first second third, s.toList.splitOn '.' = [first, second, third] ∧
      parseU32 first = some v.major ∧ parseU32 second = some v.minor ∧
      parseU32 third = some v.patch := by
  unfold parse
  split
  · next first second third hsplit =>
      rw [hsplit]
      constructor
      · intro h
        cases hfirst : parseU32 first with
        | none => simp [hfirst] at h
        | some major =>
            cases hsecond : parseU32 second with
            | none => simp [hfirst, hsecond] at h
            | some minor =>
                cases hthird : parseU32 third with
                | none => simp [hfirst, hsecond, hthird] at h
                | some patch =>
                    simp only [hfirst, hsecond, hthird, Except.ok.injEq] at h
                    subst h
                    exact ⟨first, second, third, rfl, hfirst, hsecond, hthird⟩
      · rintro ⟨_, _, _, heq, hfirst, hsecond, hthird⟩
        cases heq
        simp only [hfirst, hsecond, hthird]
  · next hsplit =>
      refine iff_of_false (by simp) ?_
      rintro ⟨first, second, third, heq, -⟩
      exact hsplit first second third heq

theorem parse_display (v : SchemaVersion) : parse v.display = .ok v :=
  parse_eq_ok_iff.mpr ⟨_, _, _, splitOn_display v, parseU32_toDigits _, parseU32_toDigits _,
    parseU32_toDigits _⟩

/-- Three numbers, at least one of them with a sign or with a zero in front. -/
def Misspelt (s : String) : Prop :=
  (s.toList.splitOn '.').length = 3 ∧ (∀ part ∈ s.toList.splitOn '.', IsNumber part) ∧
    ∃ part ∈ s.toList.splitOn '.', Embellished part

theorem display_parse_iff {s : String} {v : SchemaVersion} (h : parse s = .ok v) :
    v.display = s ↔ ¬ Misspelt s := by
  obtain ⟨first, second, third, hsplit, hfirst, hsecond, hthird⟩ := parse_eq_ok_iff.mp h
  have hnumbers : ∀ part ∈ [first, second, third], IsNumber part := by
    intro part hpart
    simp only [List.mem_cons, List.not_mem_nil, or_false] at hpart
    rcases hpart with rfl | rfl | rfl
    · exact (parseU32_eq_some_iff.mp hfirst).1
    · exact (parseU32_eq_some_iff.mp hsecond).1
    · exact (parseU32_eq_some_iff.mp hthird).1
  rw [display_eq_iff, Misspelt, hsplit, and_iff_right (by rfl), and_iff_right hnumbers]
  simp only [parts, List.cons.injEq, and_true, toDigits_parseU32_iff hfirst,
    toDigits_parseU32_iff hsecond, toDigits_parseU32_iff hthird, List.exists_mem_cons_iff,
    List.not_mem_nil, false_and, exists_false, or_false, not_or]

theorem accepts_of_misspelt {s : String} (h : Misspelt s) : ∃ v, parse s = .ok v := by
  obtain ⟨hlength, hnumbers, -⟩ := h
  obtain ⟨first, second, third, hsplit⟩ := List.length_eq_three.mp hlength
  rw [hsplit] at hnumbers
  simp only [← isSome_parseU32_iff, Option.isSome_iff_exists] at hnumbers
  obtain ⟨major, hmajor⟩ := hnumbers first (by simp)
  obtain ⟨minor, hminor⟩ := hnumbers second (by simp)
  obtain ⟨patch, hpatch⟩ := hnumbers third (by simp)
  exact ⟨⟨major, minor, patch⟩,
    parse_eq_ok_iff.mpr ⟨first, second, third, hsplit, hmajor, hminor, hpatch⟩⟩

/-- The parser accepts a text just where it is displayed for a version, and then that one. -/
def Canonical (s : String) : Prop :=
  ((∃ v, parse s = .ok v) ↔ ∃ v : SchemaVersion, v.display = s) ∧
    ∀ v, parse s = .ok v → v.display = s

/-- A text is treated canonically unless one of its three numbers has a sign or a zero in front;
every version is read as it is displayed. -/
theorem parse_canonical_iff (s : String) (v : SchemaVersion) :
    (Canonical s ↔ ¬ Misspelt s) ∧ parse v.display = .ok v := by
  refine ⟨?_, parse_display v⟩
  constructor
  · rintro ⟨-, hdisplay⟩ hs
    obtain ⟨u, hu⟩ := accepts_of_misspelt hs
    exact (display_parse_iff hu).mp (hdisplay u hu) hs
  · intro hs
    have hdisplay (u : SchemaVersion) (hu : parse s = .ok u) : u.display = s :=
      (display_parse_iff hu).mpr hs
    refine ⟨⟨?_, ?_⟩, hdisplay⟩
    · rintro ⟨u, hu⟩
      exact ⟨u, hdisplay u hu⟩
    · rintro ⟨u, rfl⟩
      exact ⟨u, parse_display u⟩

/-- Both `+1.0.0` and `1.0.0` are read as version 1.0.0. -/
theorem signed_version_accepted : ¬ ∀ s : String, Canonical s := by
  intro h
  have hparse : parse "+1.0.0" = .ok { major := 1, minor := 0, patch := 0 } := by
    decide +kernel
  have hdisplay := (h "+1.0.0").2 _ hparse
  exact absurd hdisplay (by decide +kernel)

end SchemaVersion

end Mesh

end InfinityOS
