import InfinityOS.Canvas.Collaboration
import InfinityOS.Text.Joined

/-!
# The keys of the fields

An edit is addressed to one field: the position of a node, a parameter of a node, or an edge.
The key of a field joins its ids and names by separators that may occur within them, so
fields can share a key. The cases in which they do are listed kind by kind.
-/

namespace InfinityOS

namespace Canvas

open Text

@[ext]
structure Edge where
  fromNode : String
  fromPort : String
  toNode : String
  toPort : String
  deriving DecidableEq

/-- What an edit is addressed to. -/
inductive Field where
  | position (nodeId : String)
  | parameter (nodeId name : String)
  | edge (edge : Edge)
  deriving DecidableEq

def EditOperation.field (op : EditOperation) : Field :=
  match op.change with
  | .move _ => .position op.nodeId
  | .setParameter name _ => .parameter op.nodeId name
  | .addEdge fromNode fromPort toNode toPort => .edge ⟨fromNode, fromPort, toNode, toPort⟩
  | .removeEdge fromNode fromPort toNode toPort => .edge ⟨fromNode, fromPort, toNode, toPort⟩

namespace Edge

/-- The part of the key before the arrow. -/
def source (e : Edge) : String :=
  e.fromNode ++ ":" ++ e.fromPort

/-- The part of the key behind the arrow. -/
def target (e : Edge) : String :=
  e.toNode ++ ":" ++ e.toPort

end Edge

def Field.key : Field → String
  | position nodeId => nodeId ++ ":position"
  | parameter nodeId name => nodeId ++ ":param" ++ (":" ++ name)
  | edge e => "edge:" ++ e.source ++ "->" ++ e.target

theorem fieldKey_eq_key (op : EditOperation) : fieldKey op = op.field.key := by
  rw [fieldKey, EditOperation.field]
  cases op.change with
  | move position => rfl
  | setParameter name value =>
      simp only [Field.key, String.append_assoc]
      rfl
  | addEdge fromNode fromPort toNode toPort =>
      simp only [Field.key, Edge.source, Edge.target, ← String.append_assoc]
  | removeEdge fromNode fromPort toNode toPort =>
      simp only [Field.key, Edge.source, Edge.target, ← String.append_assoc]

/-! ## Shared keys -/

/-- The node of a move has the id of the node and the beginning of the name of a parameter
that ends in the word for positions. -/
def MoveParameter (moved nodeId name : String) : Prop :=
  ∃ r, moved = nodeId ++ ":param" ++ r ∧ ":" ++ name = r ++ ":position"

/-- The node of a move is named like an edge up to the port, which ends in the word for
positions. -/
def MoveEdge (moved : String) (e : Edge) : Prop :=
  (moved = "edge:" ++ e.source ++ "->" ++ e.toNode ∧ e.toPort = "position") ∨
    ∃ r, moved = "edge:" ++ e.source ++ "->" ++ e.toNode ++ ":" ++ r ∧
      e.toPort = r ++ ":position"

/-- An end of an edge has the word for parameters, or the node of a parameter has an arrow. -/
def ParameterEdge (nodeId name : String) (e : Edge) : Prop :=
  (∃ r, "edge:" ++ e.source = nodeId ++ ":param" ++ r ∧ ":" ++ name = r ++ "->" ++ e.target) ∨
    ∃ r, nodeId = "edge:" ++ e.source ++ "->" ++ r ∧ e.target = r ++ ":param" ++ (":" ++ name)

/-- Two ends of edges that read the same without being the same. -/
def EdgeEdge (e e' : Edge) : Prop :=
  Overlap "->" ("edge:" ++ e.source) e.target ("edge:" ++ e'.source) e'.target ∨
    (Overlap ":" e.fromNode e.fromPort e'.fromNode e'.fromPort ∧ e.target = e'.target) ∨
    (e.source = e'.source ∧ Overlap ":" e.toNode e.toPort e'.toNode e'.toPort)

/-- The pairs of fields that share a key. -/
def Confusable : Field → Field → Prop
  | .position _, .position _ => False
  | .position moved, .parameter nodeId name => MoveParameter moved nodeId name
  | .parameter nodeId name, .position moved => MoveParameter moved nodeId name
  | .position moved, .edge e => MoveEdge moved e
  | .edge e, .position moved => MoveEdge moved e
  | .parameter nodeId name, .parameter nodeId' name' =>
      Overlap ":param" nodeId (":" ++ name) nodeId' (":" ++ name')
  | .parameter nodeId name, .edge e => ParameterEdge nodeId name e
  | .edge e, .parameter nodeId name => ParameterEdge nodeId name e
  | .edge e, .edge e' => EdgeEdge e e'

/-! ## Kind by kind -/

section Kinds

variable {nodeId moved name nodeId' name' : String} {e e' : Edge}

theorem position_ne_param (s : String) : ":position" ≠ ":param" ++ s := by
  intro heq
  have hlist := congrArg String.toList heq
  rw [String.toList_append] at hlist
  simp at hlist

theorem position_key_eq_parameter_key_iff :
    (Field.position moved).key = (Field.parameter nodeId name).key ↔
      MoveParameter moved nodeId name := by
  unfold Field.key
  rw [append_suffix_eq_iff rfl rfl (by decide) (by decide)]
  exact or_iff_right fun h => position_ne_param _ h.2

theorem position_key_eq_edge_key_iff :
    (Field.position moved).key = (Field.edge e).key ↔ MoveEdge moved e := by
  unfold Field.key Edge.target
  have hassoc : "edge:" ++ e.source ++ "->" ++ (e.toNode ++ ":" ++ e.toPort) =
      "edge:" ++ e.source ++ "->" ++ e.toNode ++ ":" ++ e.toPort := by
    simp only [String.append_assoc]
  have hcolon : ":position" = ":" ++ e.toPort ↔ e.toPort = "position" := by
    rw [show ":position" = ":" ++ "position" from rfl, String.append_right_inj]
    exact eq_comm
  dsimp only
  rw [hassoc, append_suffix_eq_iff (w := ":") rfl rfl (by decide) (by decide), hcolon]
  rfl

theorem parameter_key_eq_edge_key_iff :
    (Field.parameter nodeId name).key = (Field.edge e).key ↔ ParameterEdge nodeId name e := by
  unfold Field.key
  dsimp only
  rw [append_word_eq_iff (v := ":param") (w := "->") rfl rfl (by decide) (by decide)]
  refine or_iff_right fun h => ?_
  have hlist := congrArg String.toList h.2
  rw [String.toList_append, String.toList_append] at hlist
  simp at hlist

theorem parameter_key_eq_parameter_key_iff :
    (Field.parameter nodeId name).key = (Field.parameter nodeId' name').key ↔
      (nodeId = nodeId' ∧ name = name') ∨
        Overlap ":param" nodeId (":" ++ name) nodeId' (":" ++ name') := by
  unfold Field.key
  dsimp only
  rw [append_word_inj_iff (w := ":param") rfl (by decide), String.append_right_inj]

theorem end_eq_iff {a b c d : String} :
    a ++ ":" ++ b = c ++ ":" ++ d ↔ (a = c ∧ b = d) ∨ Overlap ":" a b c d :=
  append_word_inj_iff rfl (by decide)

theorem edge_key_eq_edge_key_iff :
    (Field.edge e).key = (Field.edge e').key ↔ e = e' ∨ EdgeEdge e e' := by
  unfold Field.key
  dsimp only
  rw [append_word_inj_iff (w := "->") rfl (by decide), String.append_right_inj]
  have hsource : e.source = e'.source ↔ (e.fromNode = e'.fromNode ∧ e.fromPort = e'.fromPort) ∨
      Overlap ":" e.fromNode e.fromPort e'.fromNode e'.fromPort := end_eq_iff
  have htarget : e.target = e'.target ↔ (e.toNode = e'.toNode ∧ e.toPort = e'.toPort) ∨
      Overlap ":" e.toNode e.toPort e'.toNode e'.toPort := end_eq_iff
  have hedge : e = e' ↔ (e.fromNode = e'.fromNode ∧ e.fromPort = e'.fromPort) ∧
      (e.toNode = e'.toNode ∧ e.toPort = e'.toPort) := by
    rw [Edge.ext_iff, and_assoc]
  have hcases : ∀ p q r s t : Prop, ((p ∨ q) ∧ (r ∨ s)) ∨ t ↔
      (p ∧ r) ∨ (t ∨ (q ∧ (r ∨ s)) ∨ ((p ∨ q) ∧ s)) := by
    intro p q r s t
    grind
  rw [EdgeEdge, hedge, hsource, htarget]
  exact hcases _ _ _ _ _

end Kinds

/-! ## Injectivity -/

theorem key_eq_key_iff (f f' : Field) : f.key = f'.key ↔ f = f' ∨ Confusable f f' := by
  cases f with
  | position moved =>
      cases f' with
      | position moved' =>
          unfold Field.key Confusable
          rw [String.append_left_inj, or_false, Field.position.injEq]
      | parameter nodeId name =>
          rw [position_key_eq_parameter_key_iff]
          exact (or_iff_right (by simp)).symm
      | edge e =>
          rw [position_key_eq_edge_key_iff]
          exact (or_iff_right (by simp)).symm
  | parameter nodeId name =>
      cases f' with
      | position moved =>
          rw [eq_comm, position_key_eq_parameter_key_iff]
          exact (or_iff_right (by simp)).symm
      | parameter nodeId' name' =>
          rw [parameter_key_eq_parameter_key_iff, Field.parameter.injEq]
          rfl
      | edge e =>
          rw [parameter_key_eq_edge_key_iff]
          exact (or_iff_right (by simp)).symm
  | edge e =>
      cases f' with
      | position moved =>
          rw [eq_comm, position_key_eq_edge_key_iff]
          exact (or_iff_right (by simp)).symm
      | parameter nodeId name =>
          rw [eq_comm, parameter_key_eq_edge_key_iff]
          exact (or_iff_right (by simp)).symm
      | edge e' =>
          rw [edge_key_eq_edge_key_iff, Field.edge.injEq]
          rfl

theorem Confusable.ne {f f' : Field} (h : Confusable f f') : f ≠ f' := by
  rintro rfl
  cases f with
  | position moved => exact h
  | parameter nodeId name => exact (Overlap.ne (by decide) h) rfl
  | edge e =>
      rcases h with harrow | ⟨hsource, -⟩ | ⟨-, htarget⟩
      · exact harrow.ne (by decide) rfl
      · exact hsource.ne (by decide) rfl
      · exact htarget.ne (by decide) rfl

/-- Two edits have one key exactly when they are addressed to one field, unless their fields are
confused. -/
theorem fieldKey_eq_iff (op other : EditOperation) :
    (fieldKey op = fieldKey other ↔ op.field = other.field) ↔
      ¬ Confusable op.field other.field := by
  rw [fieldKey_eq_key, fieldKey_eq_key, key_eq_key_iff]
  constructor
  · intro h hconfused
    exact hconfused.ne (h.mp (.inr hconfused))
  · intro h
    exact or_iff_left h

/-- A parameter whose name goes on like a key, and one of a node that does. -/
theorem fieldKey_shared :
    fieldKey ⟨"op-1", ⟨"alice"⟩, 1, "a", .setParameter "b:param:c" .null⟩ =
        fieldKey ⟨"op-2", ⟨"bob"⟩, 2, "a:param:b", .setParameter "c" .null⟩ ∧
      (EditOperation.field ⟨"op-1", ⟨"alice"⟩, 1, "a", .setParameter "b:param:c" .null⟩) ≠
        EditOperation.field ⟨"op-2", ⟨"bob"⟩, 2, "a:param:b", .setParameter "c" .null⟩ :=
  ⟨by decide, by decide⟩

/-! ## Plain names -/

/-- Neither of the characters that the separators are made of, up to the dash of the arrow. -/
def Plain (s : String) : Prop :=
  ':' ∉ s.toList ∧ '>' ∉ s.toList

def Field.names : Field → List String
  | position nodeId => [nodeId]
  | parameter nodeId name => [nodeId, name]
  | edge e => [e.fromNode, e.fromPort, e.toNode, e.toPort]

theorem not_mem_source {e : Edge} (h : ∀ s ∈ (Field.edge e).names, Plain s) :
    '>' ∉ ("edge:" ++ e.source).toList := by
  intro hmem
  have hnode := (h e.fromNode (by simp [Field.names])).2
  have hport := (h e.fromPort (by simp [Field.names])).2
  simp [Edge.source, hnode, hport] at hmem

theorem not_moveParameter {moved nodeId name : String} (h : Plain moved) :
    ¬ MoveParameter moved nodeId name := by
  rintro ⟨r, rfl, -⟩
  exact h.1 (by simp)

theorem not_moveEdge {moved : String} {e : Edge} (h : Plain moved) : ¬ MoveEdge moved e := by
  rintro (⟨rfl, -⟩ | ⟨r, rfl, -⟩)
  · exact h.1 (by simp)
  · exact h.1 (by simp)

theorem not_parameterEdge {nodeId name : String} {e : Edge} (hnode : Plain nodeId)
    (hname : Plain name) : ¬ ParameterEdge nodeId name e := by
  rintro (⟨r, -, hr⟩ | ⟨r, rfl, -⟩)
  · have harrow : '>' ∈ (":" ++ name).toList := by
      rw [hr]
      simp
    simp [hname.2] at harrow
  · exact hnode.1 (by simp)

theorem not_confusable_of_plain {f f' : Field} (h : ∀ s ∈ f.names, Plain s)
    (h' : ∀ s ∈ f'.names, Plain s) : ¬ Confusable f f' := by
  have hplain : ∀ {word a b c d : String}, ':' ∈ word.toList → Plain a → Plain c →
      ¬ Overlap word a b c d := by
    intro word a b c d hword ha hc hoverlap
    rcases hoverlap.mem hword with hmem | hmem
    · exact ha.1 hmem
    · exact hc.1 hmem
  cases f with
  | position moved =>
      have hmoved := h moved (by simp [Field.names])
      cases f' with
      | position moved' => exact id
      | parameter nodeId name => exact not_moveParameter hmoved
      | edge e => exact not_moveEdge hmoved
  | parameter nodeId name =>
      have hnode := h nodeId (by simp [Field.names])
      cases f' with
      | position moved => exact not_moveParameter (h' moved (by simp [Field.names]))
      | parameter nodeId' name' =>
          exact hplain (by decide) hnode (h' nodeId' (by simp [Field.names]))
      | edge e => exact not_parameterEdge hnode (h name (by simp [Field.names]))
  | edge e =>
      cases f' with
      | position moved => exact not_moveEdge (h' moved (by simp [Field.names]))
      | parameter nodeId name =>
          exact not_parameterEdge (h' nodeId (by simp [Field.names]))
            (h' name (by simp [Field.names]))
      | edge e' =>
          rintro (harrow | ⟨hsource, -⟩ | ⟨-, htarget⟩)
          · rcases harrow.mem (k := '>') (by decide) with hmem | hmem
            · exact not_mem_source h hmem
            · exact not_mem_source h' hmem
          · exact hplain (by decide) (h _ (by simp [Field.names]))
              (h' _ (by simp [Field.names])) hsource
          · exact hplain (by decide) (h _ (by simp [Field.names]))
              (h' _ (by simp [Field.names])) htarget

end Canvas

end InfinityOS
