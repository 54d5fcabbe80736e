import InfinityOS.Core.Types
import InfinityOS.Text.Masking

/-!
# The redactor

The registered literals are replaced by the marker one after the other, each in what the
ones before have left. A literal that overlaps one before it is then no longer found as a
whole, and one that has text of the marker can match in a marker.
-/

namespace InfinityOS

namespace Security

open Text

structure RedactionPattern where
  id : String
  literal : String

/-- The patterns in the order in which they are registered. -/
structure Redactor where
  patterns : List RedactionPattern

def redactedMarker : String :=
  "[REDACTED]"

/-- `str::replace`. -/
def strReplace (s pattern replacement : String) : String :=
  String.ofList (replace pattern.toList replacement.toList s.toList)

namespace Redactor

def new : Redactor :=
  { patterns := [] }

def addPattern (r : Redactor) (pattern : RedactionPattern) : Redactor :=
  { r with patterns := r.patterns ++ [pattern] }

def addLiteral (r : Redactor) (id literal : String) : Redactor :=
  r.addPattern { id, literal }

def redact (r : Redactor) (input : String) : String :=
  r.patterns.foldl (fun output pattern =>
    if pattern.literal.isEmpty then output
    else strReplace output pattern.literal redactedMarker) input

mutual

def redactJson (r : Redactor) : Json → Json
  | .null => .null
  | .bool b => .bool b
  | .number n => .number n
  | .string s => .string (r.redact s)
  | .array items => .array (redactItems r items)
  | .object members => .object (redactMembers r members)

def redactItems (r : Redactor) : List Json → List Json
  | [] => []
  | v :: items => redactJson r v :: redactItems r items

def redactMembers (r : Redactor) : List (String × Json) → List (String × Json)
  | [] => []
  | (k, v) :: members => (k, redactJson r v) :: redactMembers r members

end

end Redactor

mutual

def scalars : Json → List String
  | .string s => [s]
  | .array items => itemScalars items
  | .object members => memberScalars members
  | _ => []

def itemScalars : List Json → List String
  | [] => []
  | v :: items => scalars v ++ itemScalars items

def memberScalars : List (String × Json) → List String
  | [] => []
  | (_, v) :: members => scalars v ++ memberScalars members

end

mutual

/-- The value without the texts of its string scalars. -/
def blank : Json → Json
  | .null => .null
  | .bool b => .bool b
  | .number n => .number n
  | .string _ => .string ""
  | .array items => .array (blankItems items)
  | .object members => .object (blankMembers members)

def blankItems : List Json → List Json
  | [] => []
  | v :: items => blank v :: blankItems items

def blankMembers : List (String × Json) → List (String × Json)
  | [] => []
  | (k, v) :: members => (k, blank v) :: blankMembers members

end

namespace Redactor

def words (r : Redactor) : List (List Char) :=
  (r.patterns.map fun pattern => pattern.literal.toList).filter (· ≠ [])

/-- The output is the input with the marker for each of some intervals in which every
occurrence of every literal lies. -/
def Redacts (r : Redactor) (input output : String) : Prop :=
  Replaces redactedMarker.toList r.words input.toList output.toList

/-- The value has the same shape, keys and other scalars, and every string scalar is
redacted. -/
def RedactsJson (r : Redactor) (v w : Json) : Prop :=
  blank w = blank v ∧ List.Forall₂ r.Redacts (scalars v) (scalars w)

/-- No literal that is searched matches text of a marker put in before. -/
def KeepsMarkers (r : Redactor) (input : String) : Prop :=
  AllUntouched redactedMarker.toList r.words input.toList

/-- Every occurrence of a literal lies in the free occurrences. -/
def Covers (r : Redactor) (input : String) : Prop :=
  AllCovered r.words input.toList

def HasMarker (input : String) : Prop :=
  redactedMarker.toList <:+: input.toList

theorem ne_nil_of_mem_words {r : Redactor} : ∀ word ∈ r.words, word ≠ [] := by
  intro word hword
  rw [words, List.mem_filter, decide_eq_true_eq] at hword
  exact hword.2

theorem toList_redact (r : Redactor) (input : String) :
    (r.redact input).toList =
      r.words.foldl (fun text word => replace word redactedMarker.toList text)
        input.toList := by
  obtain ⟨patterns⟩ := r
  rw [redact, words]
  dsimp only
  induction patterns generalizing input with
  | nil => rfl
  | cons pattern patterns ih =>
      rw [List.foldl_cons, List.map_cons, ih]
      by_cases hempty : pattern.literal.toList = []
      · have hliteral : pattern.literal.isEmpty = true := by
          rw [String.isEmpty_iff, ← String.toList_eq_nil_iff]
          exact hempty
        rw [if_pos hliteral, List.filter_cons_of_neg]
        simp [hempty]
      · have hliteral : ¬ pattern.literal.isEmpty = true := by
          rw [String.isEmpty_iff, ← String.toList_eq_nil_iff]
          exact hempty
        rw [if_neg hliteral, List.filter_cons_of_pos, List.foldl_cons, strReplace,
          String.toList_ofList]
        simp [hempty]

theorem redacts_of_covers {r : Redactor} {input : String} (hturn : r.KeepsMarkers input)
    (h : r.Covers input) : r.Redacts input (r.redact input) := by
  rw [Redacts, toList_redact]
  exact replaces_of_allCovered ne_nil_of_mem_words (by decide) hturn h

theorem covers_of_redacts {r : Redactor} {input : String} (hturn : r.KeepsMarkers input)
    (hinput : ¬ HasMarker input) (h : r.Redacts input (r.redact input)) :
    r.Covers input := by
  rw [Redacts, toList_redact] at h
  exact allCovered_of_replaces ne_nil_of_mem_words (by decide) hturn hinput h

mutual

theorem blank_redactJson (r : Redactor) : ∀ v, blank (r.redactJson v) = blank v
  | .null | .bool _ | .number _ | .string _ => rfl
  | .array items => congrArg Json.array (blank_redactItems r items)
  | .object members => congrArg Json.object (blank_redactMembers r members)

theorem blank_redactItems (r : Redactor) : ∀ items,
    blankItems (r.redactItems items) = blankItems items
  | [] => rfl
  | v :: items => congrArg₂ List.cons (blank_redactJson r v) (blank_redactItems r items)

theorem blank_redactMembers (r : Redactor) : ∀ members,
    blankMembers (r.redactMembers members) = blankMembers members
  | [] => rfl
  | (k, v) :: members =>
      congrArg₂ (fun v members => (k, v) :: members) (blank_redactJson r v)
        (blank_redactMembers r members)

end

mutual

theorem scalars_redactJson (r : Redactor) : ∀ v,
    scalars (r.redactJson v) = (scalars v).map r.redact
  | .null | .bool _ | .number _ | .string _ => rfl
  | .array items => scalars_redactItems r items
  | .object members => scalars_redactMembers r members

theorem scalars_redactItems (r : Redactor) : ∀ items,
    itemScalars (r.redactItems items) = (itemScalars items).map r.redact
  | [] => rfl
  | v :: items => by
      rw [redactItems, itemScalars, itemScalars, List.map_append, scalars_redactJson,
        scalars_redactItems]

theorem scalars_redactMembers (r : Redactor) : ∀ members,
    memberScalars (r.redactMembers members) = (memberScalars members).map r.redact
  | [] => rfl
  | (k, v) :: members => by
      rw [redactMembers, memberScalars, memberScalars, List.map_append, scalars_redactJson,
        scalars_redactMembers]

end

theorem redactsJson_iff (r : Redactor) (v : Json) :
    r.RedactsJson v (r.redactJson v) ↔ ∀ s ∈ scalars v, r.Redacts s (r.redact s) := by
  rw [RedactsJson, blank_redactJson, scalars_redactJson, List.forall₂_map_right_iff,
    List.forall₂_same]
  exact and_iff_right rfl

/-- Where no literal matches text of a marker put in before, a string is redacted when the
free occurrences cover all the others, and only then if it has no marker of its own; a JSON
value is when each of its string scalars is. -/
theorem redact_complete_iff (r : Redactor) :
    (∀ input, r.KeepsMarkers input →
      (r.Covers input → r.Redacts input (r.redact input)) ∧
      (¬ HasMarker input → r.Redacts input (r.redact input) → r.Covers input)) ∧
    ∀ v, (∀ s ∈ scalars v, r.KeepsMarkers s) →
      ((∀ s ∈ scalars v, r.Covers s) → r.RedactsJson v (r.redactJson v)) ∧
      ((∀ s ∈ scalars v, ¬ HasMarker s) → r.RedactsJson v (r.redactJson v) →
        ∀ s ∈ scalars v, r.Covers s) := by
  refine ⟨fun input hturn => ⟨redacts_of_covers hturn, covers_of_redacts hturn⟩,
    fun v hturn => ⟨fun hcovers => ?_, fun hv hredacts s hs => ?_⟩⟩
  · rw [redactsJson_iff]
    intro s hs
    exact redacts_of_covers (hturn s hs) (hcovers s hs)
  · rw [redactsJson_iff] at hredacts
    exact covers_of_redacts (hturn s hs) (hv s hs) (hredacts s hs)

end Redactor

theorem toList_redactedMarker :
    redactedMarker.toList = ['[', 'R', 'E', 'D', 'A', 'C', 'T', 'E', 'D', ']'] := rfl

def shortFirst : Redactor :=
  (Redactor.new.addLiteral "short" "abc").addLiteral "long" "abcdef"

theorem words_shortFirst :
    shortFirst.words = [['a', 'b', 'c'], ['a', 'b', 'c', 'd', 'e', 'f']] := rfl

theorem keepsMarkers_shortFirst (input : String) : shortFirst.KeepsMarkers input := by
  apply allUntouched_of_disjoint (by decide) Redactor.ne_nil_of_mem_words
  simp [words_shortFirst, toList_redactedMarker]

/-- The end of the long secret is left. -/
theorem redact_leaves_secret :
    ¬ shortFirst.Redacts "abcdef" (shortFirst.redact "abcdef") := by
  intro h
  have htext : "abcdef".toList = ['a', 'b', 'c', 'd', 'e', 'f'] := rfl
  have hmarker : ¬ Redactor.HasMarker "abcdef" := by
    rw [Redactor.HasMarker, htext, toList_redactedMarker]
    decide
  have hcovers := Redactor.covers_of_redacts (keepsMarkers_shortFirst _) hmarker h
  rw [Redactor.Covers, htext, words_shortFirst] at hcovers
  have hcovered := hcovers ['a', 'b', 'c', 'd', 'e', 'f'] (by decide) 0 (by decide) 3
    (by decide)
  rw [← isMasked_maskWords (by decide)] at hcovered
  revert hcovered
  decide

def longFirst : Redactor :=
  (Redactor.new.addLiteral "long" "abcdef").addLiteral "short" "abc"

theorem words_longFirst :
    longFirst.words = [['a', 'b', 'c', 'd', 'e', 'f'], ['a', 'b', 'c']] := rfl

theorem keepsMarkers_longFirst (input : String) : longFirst.KeepsMarkers input := by
  apply allUntouched_of_disjoint (by decide) Redactor.ne_nil_of_mem_words
  simp [words_longFirst, toList_redactedMarker]

theorem covers_longFirst : longFirst.Covers "abcdef, abc" := by
  have htext : "abcdef, abc".toList =
      ['a', 'b', 'c', 'd', 'e', 'f', ',', ' ', 'a', 'b', 'c'] := rfl
  apply allCovered_of_isMasked Redactor.ne_nil_of_mem_words
  rw [htext, words_longFirst]
  decide +kernel

theorem redact_complete_iff_longFirst :
    longFirst.Redacts "abcdef, abc" (longFirst.redact "abcdef, abc") ∧
      longFirst.RedactsJson (.object [("abc", .array [.string "abcdef, abc", .null])])
        (longFirst.redactJson (.object [("abc", .array [.string "abcdef, abc", .null])])) := by
  obtain ⟨hredact, hjson⟩ := Redactor.redact_complete_iff longFirst
  constructor
  · exact (hredact "abcdef, abc" (keepsMarkers_longFirst _)).1 covers_longFirst
  · apply (hjson _ fun s _ => keepsMarkers_longFirst s).1
    intro s hs
    rw [show s = "abcdef, abc" from List.mem_singleton.mp hs]
    exact covers_longFirst

end Security

end InfinityOS
