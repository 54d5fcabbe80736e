import InfinityOS.Core.Types
import InfinityOS.Kernel.TaskId
import InfinityOS.Text.Hex

/-!
# The text of a task id

The kernel writes the two words of an id as 32 hexadecimal digits in groups of 8, 4, 4, 4 and
12, and the runtime reads such a text as one number of 128 bits. The parser of UUIDs is a
parameter: of it only what it makes of such texts matters.
-/

namespace InfinityOS

/-- The error of `IfyCoreError` that a text without an id gives. -/
inductive IfyCoreError where
  | invalidId (s : String)
  deriving DecidableEq

/-- `TaskId::parse_str`, where `parseUuid` is `Uuid::parse_str`. -/
def TaskId.parseStr (parseUuid : String → Option Uuid) (s : String) :
    Except IfyCoreError TaskId :=
  match parseUuid s with
  | some uuid => .ok uuid
  | none => .error (.invalidId s)

namespace Kernel

open Text Words

/-- `ify_task_id_to_str`: what `snprintf` leaves in a buffer of 37 bytes, without the
terminating zero. -/
def taskIdToStr (id : KernelTaskId) : String :=
  let p0 : BitVec 32 := (id.hi >>> 32).setWidth 32
  let p1 : BitVec 32 := (id.hi >>> 16 &&& 0xFFFF).setWidth 32
  let p2 : BitVec 32 := (id.hi &&& 0xFFFF).setWidth 32
  let p3 : BitVec 32 := (id.lo >>> 48).setWidth 32
  let p4 : BitVec 64 := id.lo &&& 0x0000FFFFFFFFFFFF
  String.ofList
    ((paddedHex 8 p0.toNat ++ '-' :: (paddedHex 4 p1.toNat ++ '-' :: (paddedHex 4 p2.toNat ++
      '-' :: (paddedHex 4 p3.toNat ++ '-' :: paddedHex 12 p4.toNat)))).take 36)

def hyphenated (digits : List Char) : String :=
  String.ofList (digits.take 8 ++ '-' :: ((digits.drop 8).take 4 ++ '-' ::
    ((digits.drop 12).take 4 ++ '-' :: ((digits.drop 16).take 4 ++ '-' :: digits.drop 20))))

/-- The parser reads 32 digits in their groups as one number, the highest digit first. -/
def ReadsHyphenated (parseUuid : String → Option Uuid) : Prop :=
  ∀ digits : List Char, digits.length = 32 → (∀ c ∈ digits, IsHex c) →
    parseUuid (hyphenated digits) = some (.ofNat 128 (hexNumber digits))

def taskIdDigits (id : KernelTaskId) : List Char :=
  paddedHex 8 (id.hi.toNat / 2 ^ 32) ++ (paddedHex 4 (id.hi.toNat / 2 ^ 16 % 2 ^ 16) ++
    (paddedHex 4 (id.hi.toNat % 2 ^ 16) ++ (paddedHex 4 (id.lo.toNat / 2 ^ 48) ++
      paddedHex 12 (id.lo.toNat % 2 ^ 48))))

/-! ## The groups -/

theorem hyphenated_append {a b c d e : List Char} (ha : a.length = 8) (hb : b.length = 4)
    (hc : c.length = 4) (hd : d.length = 4) :
    hyphenated (a ++ (b ++ (c ++ (d ++ e)))) =
      String.ofList (a ++ '-' :: (b ++ '-' :: (c ++ '-' :: (d ++ '-' :: e)))) := by
  unfold hyphenated
  simp only [List.take_append, List.drop_append, ha, hb, hc, hd]
  simp [ha, hb, hc, hd, List.take_of_length_le, List.drop_eq_nil_of_le]

section Digits

variable (id : KernelTaskId)

theorem length_groups :
    (paddedHex 8 (id.hi.toNat / 2 ^ 32)).length = 8 ∧
      (paddedHex 4 (id.hi.toNat / 2 ^ 16 % 2 ^ 16)).length = 4 ∧
      (paddedHex 4 (id.hi.toNat % 2 ^ 16)).length = 4 ∧
      (paddedHex 4 (id.lo.toNat / 2 ^ 48)).length = 4 ∧
      (paddedHex 12 (id.lo.toNat % 2 ^ 48)).length = 12 := by
  have hhi := id.hi.isLt
  have hlo := id.lo.isLt
  refine ⟨?_, ?_, ?_, ?_, ?_⟩
  all_goals
    apply length_paddedHex (by decide)
    norm_num
    omega

theorem length_taskIdDigits : (taskIdDigits id).length = 32 := by
  obtain ⟨h0, h1, h2, h3, h4⟩ := length_groups id
  rw [taskIdDigits, List.length_append, List.length_append, List.length_append,
    List.length_append, h0, h1, h2, h3, h4]

theorem isHex_of_mem_taskIdDigits {c : Char} (h : c ∈ taskIdDigits id) : IsHex c := by
  simp only [taskIdDigits, List.mem_append] at h
  rcases h with h | h | h | h | h
  all_goals exact isHex_of_mem_paddedHex h

theorem taskIdToStr_eq : taskIdToStr id = hyphenated (taskIdDigits id) := by
  have hhi := id.hi.isLt
  have hlo := id.lo.isLt
  obtain ⟨h0, h1, h2, h3, h4⟩ := length_groups id
  have hp0 : ((id.hi >>> 32).setWidth 32).toNat = id.hi.toNat / 2 ^ 32 := by
    rw [BitVec.toNat_setWidth, BitVec.toNat_ushiftRight, Nat.shiftRight_eq_div_pow]
    omega
  have hp1 : ((id.hi >>> 16 &&& 0xFFFF).setWidth 32).toNat = id.hi.toNat / 2 ^ 16 % 2 ^ 16 := by
    rw [BitVec.toNat_setWidth, toNat_and_low (n := 16) rfl, BitVec.toNat_ushiftRight,
      Nat.shiftRight_eq_div_pow]
    omega
  have hp2 : ((id.hi &&& 0xFFFF).setWidth 32).toNat = id.hi.toNat % 2 ^ 16 := by
    rw [BitVec.toNat_setWidth, toNat_and_low (n := 16) rfl]
    omega
  have hp3 : ((id.lo >>> 48).setWidth 32).toNat = id.lo.toNat / 2 ^ 48 := by
    rw [BitVec.toNat_setWidth, BitVec.toNat_ushiftRight, Nat.shiftRight_eq_div_pow]
    omega
  have hp4 : (id.lo &&& 0x0000FFFFFFFFFFFF).toNat = id.lo.toNat % 2 ^ 48 :=
    toNat_and_low (n := 48) rfl id.lo
  unfold taskIdToStr taskIdDigits
  dsimp only
  rw [hp0, hp1, hp2, hp3, hp4, hyphenated_append h0 h1 h2 h3, List.take_of_length_le]
  simp only [List.length_append, List.length_cons, h0, h1, h2, h3, h4]
  decide

example : taskIdToStr ⟨0x0123456789ab7cde, 0x8000000000000001⟩ =
    "01234567-89ab-7cde-8000-000000000001" := by
  decide

theorem hexNumber_taskIdDigits :
    hexNumber (taskIdDigits id) = id.hi.toNat * 2 ^ 64 + id.lo.toNat := by
  obtain ⟨-, h1, h2, h3, h4⟩ := length_groups id
  simp only [taskIdDigits, hexNumber_append, hexNumber_paddedHex, List.length_append, h1, h2, h3,
    h4]
  omega

theorem toNat_hi_append_lo : (id.hi ++ id.lo).toNat = id.hi.toNat * 2 ^ 64 + id.lo.toNat := by
  have hlt := id.lo.isLt
  rw [BitVec.toNat_append, ← Nat.shiftLeft_add_eq_or_of_lt hlt, Nat.shiftLeft_eq]

theorem ofNat_hexNumber_taskIdDigits :
    BitVec.ofNat 128 (hexNumber (taskIdDigits id)) = id.hi ++ id.lo := by
  apply BitVec.eq_of_toNat_eq
  have hlt := (id.hi ++ id.lo).isLt
  rw [toNat_hi_append_lo] at hlt
  rw [toNat_hi_append_lo, hexNumber_taskIdDigits, BitVec.toNat_ofNat]
  exact Nat.mod_eq_of_lt hlt

end Digits

/-! ## The round trip -/

/-- The text of an id is read as the two words beside each other, and ids of one text are one
id. -/
theorem parseStr_taskIdToStr (parseUuid : String → Option Uuid)
    (hreads : ReadsHyphenated parseUuid) :
    (∀ id, TaskId.parseStr parseUuid (taskIdToStr id) = .ok (id.hi ++ id.lo)) ∧
      Function.Injective taskIdToStr := by
  have hparse : ∀ id, parseUuid (taskIdToStr id) = some (id.hi ++ id.lo) := by
    intro id
    rw [taskIdToStr_eq, hreads _ (length_taskIdDigits id) fun _ => isHex_of_mem_taskIdDigits id,
      ofNat_hexNumber_taskIdDigits]
  constructor
  · intro id
    rw [TaskId.parseStr, hparse]
  · intro a b h
    have hvalue : a.hi ++ a.lo = b.hi ++ b.lo := by
      apply Option.some.inj
      rw [← hparse, h, hparse]
    have hnumber := congrArg BitVec.toNat hvalue
    rw [toNat_hi_append_lo, toNat_hi_append_lo] at hnumber
    have ha := a.lo.isLt
    have hb := b.lo.isLt
    have hhi : a.hi = b.hi := BitVec.eq_of_toNat_eq (by omega)
    have hlo : a.lo = b.lo := BitVec.eq_of_toNat_eq (by omega)
    calc a = ⟨a.hi, a.lo⟩ := rfl
      _ = b := by rw [hhi, hlo]

/-- A parser of the hyphenated form alone. -/
def parseHyphenated (s : String) : Option Uuid :=
  let digits := s.toList.filter (· ≠ '-')
  if s = hyphenated digits ∧ digits.length = 32 ∧ ∀ c ∈ digits, IsHex c then
    some (.ofNat 128 (hexNumber digits))
  else none

theorem filter_hyphenated {digits : List Char} (hdigits : ∀ c ∈ digits, IsHex c) :
    (hyphenated digits).toList.filter (· ≠ '-') = digits := by
  have hself : ∀ l : List Char, l ⊆ digits → l.filter (· ≠ '-') = l := by
    intro l hl
    rw [List.filter_eq_self]
    intro c hc
    apply decide_eq_true
    rintro rfl
    exact absurd (hdigits '-' (hl hc)) (by decide)
  have hmid : ∀ n, (digits.drop n).take 4 ⊆ digits := fun n =>
    List.Subset.trans (List.take_subset 4 _) (List.drop_subset n digits)
  have hjoin : ∀ n, (digits.drop n).take 4 ++ digits.drop (n + 4) = digits.drop n := by
    intro n
    rw [← List.drop_drop, List.take_append_drop]
  have hhyphen : ∀ l : List Char, ('-' :: l).filter (· ≠ '-') = l.filter (· ≠ '-') := fun l =>
    List.filter_cons_of_neg (by decide)
  rw [hyphenated, String.toList_ofList, List.filter_append, hhyphen, List.filter_append, hhyphen,
    List.filter_append, hhyphen, List.filter_append, hhyphen, hself _ (List.take_subset 8 digits),
    hself _ (hmid 8), hself _ (hmid 12), hself _ (hmid 16), hself _ (List.drop_subset 20 digits),
    hjoin 16, hjoin 12, hjoin 8, List.take_append_drop]

theorem readsHyphenated_parseHyphenated : ReadsHyphenated parseHyphenated := by
  intro digits hlength hdigits
  unfold parseHyphenated
  dsimp only
  rw [filter_hyphenated hdigits, if_pos ⟨rfl, hlength, hdigits⟩]

theorem parseStr_taskIdToStr_parseHyphenated :
    (∀ id, TaskId.parseStr parseHyphenated (taskIdToStr id) = .ok (id.hi ++ id.lo)) ∧
      Function.Injective taskIdToStr :=
  parseStr_taskIdToStr parseHyphenated readsHyphenated_parseHyphenated

end Kernel

end InfinityOS
