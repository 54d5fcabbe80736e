import InfinityOS.Graph.Integrity

/-!
# The diff of two schemas as a patch

A diff is a sequence of eight phases: insertions and removals of nodes, links,
groups and subgraphs. `InsertPhase` and `RemovePhase` describe a phase by the
map it works on, and say when it succeeds and what it leaves. Removing a node
removes its links too, so the later phase that removes these links fails: the
diff can be applied exactly when every link of the old schema joins nodes of the
new one.
-/

namespace InfinityOS

namespace Graph

theorem applyOps_append (s s' : FlowGraphSchema) (ops ops' : List GraphPatchOp) :
    s.applyOps (ops ++ ops') = .ok s' ↔
      ∃ m, s.applyOps ops = .ok m ∧ m.applyOps ops' = .ok s' := by
  rw [FlowGraphSchema.applyOps, List.foldlM_append]
  change (s.applyOps ops >>= fun m => m.applyOps ops') = .ok s' ↔ _
  cases s.applyOps ops with
  | error e =>
      constructor
      · intro h
        cases h
      · rintro ⟨m, h, -⟩
        cases h
  | ok m =>
      constructor
      · intro h
        exact ⟨m, rfl, h⟩
      · rintro ⟨n, h, h'⟩
        rwa [Except.ok.inj h]

/-! ## Phases -/

/-- Insertion operations: each puts a value under its own key into one map of the
schema and refuses a key in use. -/
structure InsertPhase (ν : Type) where
  op : ν → GraphPatchOp
  key : ν → Uuid
  field : FlowGraphSchema → BTreeMap Uuid ν
  put : FlowGraphSchema → ν → FlowGraphSchema
  apply_iff : ∀ s s' v, s.applyOpToSchema (op v) = .ok s' ↔
    (field s).contains (key v) = false ∧ s' = put s v
  field_put : ∀ s v, field (put s v) = (field s).insert (key v) v

/-- Removal operations: each takes a key out of one map of the schema and refuses a
key that is not there. -/
structure RemovePhase (ν : Type) where
  op : Uuid → GraphPatchOp
  field : FlowGraphSchema → BTreeMap Uuid ν
  drop : FlowGraphSchema → Uuid → FlowGraphSchema
  apply_iff : ∀ s s' id, s.applyOpToSchema (op id) = .ok s' ↔
    (field s).contains id = true ∧ s' = drop s id
  field_drop : ∀ s id, field (drop s id) = (field s).erase id

theorem ok_iff_of_not {c : Bool} {e : FlowGraphError} {s s' : FlowGraphSchema} :
    (if c then .error e else .ok s : Except FlowGraphError FlowGraphSchema) = .ok s' ↔
      c = false ∧ s' = s := by
  cases c <;> simp [eq_comm]

theorem ok_iff_of {c : Bool} {e : FlowGraphError} {s s' : FlowGraphSchema} :
    (if c then .ok s else .error e : Except FlowGraphError FlowGraphSchema) = .ok s' ↔
      c = true ∧ s' = s := by
  cases c <;> simp [eq_comm]

def nodeInsert : InsertPhase GraphNode where
  op := .addNode
  key := GraphNode.id
  field := FlowGraphSchema.nodes
  put := FlowGraphSchema.putNode
  apply_iff _ _ _ := ok_iff_of_not
  field_put _ _ := rfl

def linkInsert : InsertPhase Link where
  op := .addLink
  key := Link.id
  field := FlowGraphSchema.links
  put := FlowGraphSchema.putLink
  apply_iff _ _ _ := ok_iff_of_not
  field_put _ _ := rfl

def groupInsert : InsertPhase Group where
  op := .addGroup
  key := Group.id
  field := FlowGraphSchema.groups
  put := FlowGraphSchema.putGroup
  apply_iff _ _ _ := ok_iff_of_not
  field_put _ _ := rfl

def subgraphInsert : InsertPhase Subgraph where
  op := .addSubgraph
  key := SubgraphOf.id
  field := FlowGraphSchema.subgraphs
  put := FlowGraphSchema.putSubgraph
  apply_iff _ _ _ := ok_iff_of_not
  field_put _ _ := rfl

def nodeRemove : RemovePhase GraphNode where
  op := .removeNode
  field := FlowGraphSchema.nodes
  drop := FlowGraphSchema.dropNode
  apply_iff _ _ _ := ok_iff_of
  field_drop _ _ := rfl

def linkRemove : RemovePhase Link where
  op := .removeLink
  field := FlowGraphSchema.links
  drop := FlowGraphSchema.dropLink
  apply_iff _ _ _ := ok_iff_of
  field_drop _ _ := rfl

def groupRemove : RemovePhase Group where
  op := .removeGroup
  field := FlowGraphSchema.groups
  drop s id := { s with groups := s.groups.erase id }
  apply_iff _ _ _ := ok_iff_of
  field_drop _ _ := rfl

def subgraphRemove : RemovePhase Subgraph where
  op := .removeSubgraph
  field := FlowGraphSchema.subgraphs
  drop s id := { s with subgraphs := s.subgraphs.erase id }
  apply_iff _ _ _ := ok_iff_of
  field_drop _ _ := rfl

/-- The keys of the values are distinct and not in use. -/
def FreshKeys {ν : Type} (key : ν → Uuid) (m : BTreeMap Uuid ν) (vs : List ν) : Prop :=
  (vs.map key).Nodup ∧ ∀ v ∈ vs, m.contains (key v) = false

theorem freshKeys_cons {ν : Type} {key : ν → Uuid} {m : BTreeMap Uuid ν} {v : ν}
    {vs : List ν} :
    FreshKeys key m (v :: vs) ↔
      m.contains (key v) = false ∧ FreshKeys key (m.insert (key v) v) vs := by
  have hcontains : ∀ w : ν, (m.insert (key v) v).contains (key w) = false ↔
      key w ≠ key v ∧ m.contains (key w) = false := by
    intro w
    rw [Std.ExtTreeMap.contains_eq_isSome_getElem?, Maps.getElem?_insert_ite]
    by_cases h : key w = key v
    · simp [h]
    · simp [h]
  unfold FreshKeys
  rw [List.map_cons, List.nodup_cons, List.forall_mem_cons, List.mem_map]
  simp only [hcontains]
  constructor
  · rintro ⟨⟨hout, hnodup⟩, hv, hvs⟩
    exact ⟨hv, hnodup, fun w hw => ⟨fun heq => hout ⟨w, hw, heq⟩, hvs w hw⟩⟩
  · rintro ⟨hv, hnodup, hvs⟩
    refine ⟨⟨?_, hnodup⟩, hv, fun w hw => (hvs w hw).2⟩
    rintro ⟨w, hw, heq⟩
    exact (hvs w hw).1 heq

namespace InsertPhase

variable {ν : Type} (φ : InsertPhase ν)

theorem applyOps_iff (vs : List ν) (s s' : FlowGraphSchema) :
    s.applyOps (vs.map φ.op) = .ok s' ↔
      FreshKeys φ.key (φ.field s) vs ∧ s' = vs.foldl φ.put s := by
  induction vs generalizing s with
  | nil =>
      have hnil : FreshKeys φ.key (φ.field s) [] := ⟨List.nodup_nil, by simp⟩
      constructor
      · intro h
        exact ⟨hnil, (Except.ok.inj h).symm⟩
      · rintro ⟨-, rfl⟩
        rfl
  | cons v vs ih =>
      rw [List.map_cons, ← List.singleton_append, applyOps_append, freshKeys_cons,
        ← φ.field_put]
      have hone : ∀ m, s.applyOps [φ.op v] = .ok m ↔
          (φ.field s).contains (φ.key v) = false ∧ m = φ.put s v := by
        intro m
        rw [← φ.apply_iff, FlowGraphSchema.applyOps, List.foldlM_cons]
        cases s.applyOpToSchema (φ.op v) <;> rfl
      constructor
      · rintro ⟨m, hm, hrest⟩
        obtain ⟨hv, rfl⟩ := (hone m).mp hm
        obtain ⟨hfresh, rfl⟩ := (ih _).mp hrest
        exact ⟨⟨hv, hfresh⟩, rfl⟩
      · rintro ⟨⟨hv, hfresh⟩, rfl⟩
        exact ⟨φ.put s v, (hone _).mpr ⟨hv, rfl⟩, (ih _).mpr ⟨hfresh, rfl⟩⟩

theorem getElem?_foldl (vs : List ν) (s : FlowGraphSchema) (hnodup : (vs.map φ.key).Nodup)
    (k : Uuid) (v : ν) :
    (φ.field (vs.foldl φ.put s))[k]? = some v ↔
      (v ∈ vs ∧ φ.key v = k) ∨ (k ∉ vs.map φ.key ∧ (φ.field s)[k]? = some v) := by
  induction vs generalizing s with
  | nil => simp
  | cons w vs ih =>
      rw [List.map_cons, List.nodup_cons] at hnodup
      rw [List.foldl_cons, ih _ hnodup.2, φ.field_put, Maps.getElem?_insert_ite,
        List.map_cons, List.mem_cons, List.mem_cons]
      by_cases hk : k = φ.key w
      · subst hk
        rw [if_pos rfl]
        constructor
        · rintro (⟨hv, hkey⟩ | ⟨-, hw⟩)
          · exact .inl ⟨.inr hv, hkey⟩
          · exact .inl ⟨.inl (Option.some.inj hw).symm, by rw [Option.some.inj hw]⟩
        · rintro (⟨rfl | hv, hkey⟩ | ⟨hout, -⟩)
          · exact .inr ⟨hnodup.1, rfl⟩
          · exact .inl ⟨hv, hkey⟩
          · exact absurd (.inl rfl) hout
      · rw [if_neg hk]
        constructor
        · rintro (⟨hv, hkey⟩ | ⟨hout, hget⟩)
          · exact .inl ⟨.inr hv, hkey⟩
          · exact .inr ⟨by simp [hk, hout], hget⟩
        · rintro (⟨rfl | hv, hkey⟩ | ⟨hout, hget⟩)
          · exact absurd hkey.symm hk
          · exact .inl ⟨hv, hkey⟩
          · exact .inr ⟨fun hmem => hout (.inr hmem), hget⟩

end InsertPhase

namespace RemovePhase

variable {ν : Type} (φ : RemovePhase ν)

theorem applyOps_iff (ids : List Uuid) (s s' : FlowGraphSchema) (hnodup : ids.Nodup) :
    s.applyOps (ids.map φ.op) = .ok s' ↔
      (∀ id ∈ ids, (φ.field s).contains id = true) ∧ s' = ids.foldl φ.drop s := by
  induction ids generalizing s with
  | nil =>
      constructor
      · intro h
        exact ⟨by simp, (Except.ok.inj h).symm⟩
      · rintro ⟨-, rfl⟩
        rfl
  | cons id ids ih =>
      rw [List.nodup_cons] at hnodup
      have hkeep : (∀ i ∈ ids, (φ.field (φ.drop s id)).contains i = true) ↔
          ∀ i ∈ ids, (φ.field s).contains i = true := by
        refine forall₂_congr fun i hi => ?_
        have hne : id ≠ i := fun h => hnodup.1 (h ▸ hi)
        rw [φ.field_drop, Std.ExtTreeMap.contains_erase]
        simp [hne]
      have hone : ∀ m, s.applyOps [φ.op id] = .ok m ↔
          (φ.field s).contains id = true ∧ m = φ.drop s id := by
        intro m
        rw [← φ.apply_iff, FlowGraphSchema.applyOps, List.foldlM_cons]
        cases s.applyOpToSchema (φ.op id) <;> rfl
      rw [List.map_cons, ← List.singleton_append, applyOps_append, List.forall_mem_cons,
        ← hkeep]
      constructor
      · rintro ⟨m, hm, hrest⟩
        obtain ⟨hid, rfl⟩ := (hone m).mp hm
        obtain ⟨hall, rfl⟩ := (ih _ hnodup.2).mp hrest
        exact ⟨⟨hid, hall⟩, rfl⟩
      · rintro ⟨⟨hid, hall⟩, rfl⟩
        exact ⟨φ.drop s id, (hone _).mpr ⟨hid, rfl⟩, (ih _ hnodup.2).mpr ⟨hall, rfl⟩⟩

theorem getElem?_foldl (ids : List Uuid) (s : FlowGraphSchema) (k : Uuid) :
    (φ.field (ids.foldl φ.drop s))[k]? = if k ∈ ids then none else (φ.field s)[k]? := by
  induction ids generalizing s with
  | nil => rfl
  | cons id ids ih =>
      rw [List.foldl_cons, ih, φ.field_drop, Maps.getElem?_erase_ite]
      by_cases hk : k = id
      · simp [hk]
      · simp [hk]

end RemovePhase

theorem foldl_frame {α β : Type} (f : FlowGraphSchema → α → FlowGraphSchema)
    (read : FlowGraphSchema → β) (h : ∀ s v, read (f s v) = read s) (vs : List α)
    (s : FlowGraphSchema) : read (vs.foldl f s) = read s := by
  induction vs generalizing s with
  | nil => rfl
  | cons v vs ih => rw [List.foldl_cons, ih, h]

theorem links_dropNodes (ids : List Uuid) (s : FlowGraphSchema) (k : Uuid) (l : Link) :
    (ids.foldl FlowGraphSchema.dropNode s).links[k]? = some l ↔
      s.links[k]? = some l ∧ l.sourceNode ∉ ids ∧ l.targetNode ∉ ids := by
  induction ids generalizing s with
  | nil => simp
  | cons id ids ih =>
      rw [List.foldl_cons, ih, FlowGraphSchema.dropNode, FlowGraphSchema.detachLinks]
      simp only [Std.ExtTreeMap.getElem?_filter', Option.filter_eq_some_iff,
        Bool.and_eq_true, decide_eq_true_eq, List.mem_cons, not_or]
      constructor
      · rintro ⟨⟨hget, hsrc, htgt⟩, hsrc', htgt'⟩
        exact ⟨hget, ⟨hsrc, hsrc'⟩, htgt, htgt'⟩
      · rintro ⟨hget, ⟨hsrc, hsrc'⟩, htgt, htgt'⟩
        exact ⟨⟨hget, hsrc, htgt⟩, hsrc', htgt'⟩

/-! ## The phases of a diff -/

section Diff

variable {ν : Type} {a b : BTreeMap Uuid ν}

theorem mem_addedEntries {k : Uuid} {v : ν} :
    (k, v) ∈ addedEntries a b ↔ b[k]? = some v ∧ a[k]? = none := by
  rw [addedEntries, List.mem_filter, Maps.mem_toList, Bool.not_eq_true',
    Std.ExtTreeMap.contains_eq_isSome_getElem?, Option.isSome_eq_false_iff,
    Option.isNone_iff_eq_none]

theorem mem_removedKeys {k : Uuid} :
    k ∈ removedKeys a b ↔ (a[k]?).isSome ∧ b[k]? = none := by
  rw [removedKeys, List.mem_filter, Std.ExtTreeMap.mem_keys, Bool.not_eq_true',
    Std.ExtTreeMap.mem_iff_isSome_getElem?, Std.ExtTreeMap.contains_eq_isSome_getElem?,
    Option.isSome_eq_false_iff, Option.isNone_iff_eq_none]

theorem nodup_removedKeys (a b : BTreeMap Uuid ν) : (removedKeys a b).Nodup :=
  Std.ExtTreeMap.nodup_keys.filter _

/-- The values that a diff inserts. -/
def addedValues (a b : BTreeMap Uuid ν) : List ν :=
  (addedEntries a b).map Prod.snd

theorem freshKeys_of_keyed {key : ν → Uuid}
    (hkeyed : ∀ p ∈ addedEntries a b, key p.2 = p.1) : FreshKeys key a (addedValues a b) := by
  constructor
  · rw [addedValues, List.map_map]
    have hkeys : (addedEntries a b).map (key ∘ Prod.snd) = (addedEntries a b).map Prod.fst :=
      List.map_congr_left hkeyed
    have hnodup := Std.ExtTreeMap.nodup_keys (t := b)
    rw [← Std.ExtTreeMap.map_fst_toList_eq_keys] at hnodup
    rw [hkeys]
    exact hnodup.sublist (List.filter_sublist.map _)
  · intro v hv
    obtain ⟨⟨k, w⟩, hmem, rfl⟩ := List.mem_map.mp hv
    rw [hkeyed _ hmem, Std.ExtTreeMap.contains_eq_isSome_getElem?,
      (mem_addedEntries.mp hmem).2]
    rfl

/-- A map built from `a` by putting in what `b` adds, under the own keys of the
values, and taking out what `b` lacks. -/
def Patched (key : ν → Uuid) (a b m : BTreeMap Uuid ν) : Prop :=
  ∀ k v, m[k]? = some v ↔ k ∉ removedKeys a b ∧
    ((v ∈ addedValues a b ∧ key v = k) ∨
      (k ∉ (addedValues a b).map key ∧ a[k]? = some v))

theorem Patched.eq_iff {key : ν → Uuid} {m : BTreeMap Uuid ν} (h : Patched key a b m)
    (hcommon : ∀ (k : Uuid) v w, a[k]? = some v → b[k]? = some w → v = w) :
    m = b ↔ ∀ p ∈ addedEntries a b, key p.2 = p.1 := by
  constructor
  · rintro rfl ⟨k, v⟩ hmem
    obtain ⟨hb, ha⟩ := mem_addedEntries.mp hmem
    rcases ((h k v).mp hb).2 with ⟨-, hkey⟩ | ⟨-, hold⟩
    · exact hkey
    · rw [ha] at hold
      cases hold
  · intro hkeyed
    have hadded : ∀ k v, (v ∈ addedValues a b ∧ key v = k) ↔ (k, v) ∈ addedEntries a b := by
      intro k v
      constructor
      · rintro ⟨hv, rfl⟩
        obtain ⟨⟨j, w⟩, hmem, rfl⟩ := List.mem_map.mp hv
        have hj : key w = j := hkeyed _ hmem
        rwa [hj]
      · intro hmem
        exact ⟨List.mem_map.mpr ⟨(k, v), hmem, rfl⟩, hkeyed _ hmem⟩
    have hkeys : ∀ k, k ∈ (addedValues a b).map key ↔ ∃ v, (k, v) ∈ addedEntries a b := by
      intro k
      rw [List.mem_map]
      exact exists_congr fun v => hadded k v
    refine Std.ExtTreeMap.ext_getElem? fun k => Option.ext fun v => ?_
    rw [h k v, hadded, hkeys, mem_removedKeys]
    cases ha : a[k]? with
    | none => simp [mem_addedEntries, ha]
    | some w =>
        cases hb : b[k]? with
        | none => simp
        | some w' =>
            have hsame := hcommon k w w' ha hb
            simp [mem_addedEntries, ha, hb, hsame]

end Diff

theorem InsertPhase.contains_foldl {ν : Type} (φ : InsertPhase ν) {vs : List ν}
    {s : FlowGraphSchema} (hnodup : (vs.map φ.key).Nodup) (k : Uuid) :
    (φ.field (vs.foldl φ.put s)).contains k = true ↔
      k ∈ vs.map φ.key ∨ (φ.field s).contains k = true := by
  rw [Std.ExtTreeMap.contains_eq_isSome_getElem?, Std.ExtTreeMap.contains_eq_isSome_getElem?,
    Option.isSome_iff_exists, Option.isSome_iff_exists, List.mem_map]
  simp only [φ.getElem?_foldl vs s hnodup, List.mem_map]
  constructor
  · rintro ⟨v, hv | ⟨-, hv⟩⟩
    · exact .inl ⟨v, hv⟩
    · exact .inr ⟨v, hv⟩
  · intro h
    by_cases hnew : ∃ v ∈ vs, φ.key v = k
    · obtain ⟨v, hv⟩ := hnew
      exact ⟨v, .inl hv⟩
    · obtain ⟨v, hv⟩ := h.resolve_left hnew
      exact ⟨v, .inr ⟨hnew, hv⟩⟩

theorem insert_remove_iff {ν : Type} (φ : InsertPhase ν) (ψ : RemovePhase ν)
    (hfield : ψ.field = φ.field) (vs : List ν) {ids : List Uuid} (hids : ids.Nodup)
    (s m : FlowGraphSchema) :
    s.applyOps (vs.map φ.op ++ ids.map ψ.op) = .ok m ↔
      FreshKeys φ.key (φ.field s) vs ∧
        (∀ id ∈ ids, id ∈ vs.map φ.key ∨ (φ.field s).contains id = true) ∧
        m = ids.foldl ψ.drop (vs.foldl φ.put s) := by
  rw [applyOps_append]
  constructor
  · rintro ⟨n, hn, hm⟩
    obtain ⟨hfresh, rfl⟩ := (φ.applyOps_iff vs s n).mp hn
    obtain ⟨hall, rfl⟩ := (ψ.applyOps_iff ids _ m hids).mp hm
    refine ⟨hfresh, fun id hid => ?_, rfl⟩
    rw [← φ.contains_foldl hfresh.1, ← hfield]
    exact hall id hid
  · rintro ⟨hfresh, hall, rfl⟩
    refine ⟨_, (φ.applyOps_iff vs s _).mpr ⟨hfresh, rfl⟩,
      (ψ.applyOps_iff ids _ _ hids).mpr ⟨fun id hid => ?_, rfl⟩⟩
    rw [hfield, φ.contains_foldl hfresh.1]
    exact hall id hid

theorem getElem?_insert_remove {ν : Type} (φ : InsertPhase ν) (ψ : RemovePhase ν)
    (hfield : ψ.field = φ.field) (vs : List ν) (ids : List Uuid) (s : FlowGraphSchema)
    (hnodup : (vs.map φ.key).Nodup) (k : Uuid) (v : ν) :
    (φ.field (ids.foldl ψ.drop (vs.foldl φ.put s)))[k]? = some v ↔ k ∉ ids ∧
      ((v ∈ vs ∧ φ.key v = k) ∨ (k ∉ vs.map φ.key ∧ (φ.field s)[k]? = some v)) := by
  rw [← φ.getElem?_foldl vs s hnodup, ← hfield, ψ.getElem?_foldl]
  by_cases hk : k ∈ ids
  · simp [hk]
  · simp [hk]

theorem removable {ν : Type} {a b : BTreeMap Uuid ν} {vs : List Uuid} :
    ∀ id ∈ removedKeys a b, id ∈ vs ∨ a.contains id = true := by
  intro id hid
  rw [Std.ExtTreeMap.contains_eq_isSome_getElem?]
  exact .inr (mem_removedKeys.mp hid).1

def afterNodes (a b : FlowGraphSchema) : FlowGraphSchema :=
  (removedKeys a.nodes b.nodes).foldl FlowGraphSchema.dropNode
    ((addedValues a.nodes b.nodes).foldl FlowGraphSchema.putNode a)

def afterLinks (a b : FlowGraphSchema) : FlowGraphSchema :=
  (removedKeys a.links b.links).foldl FlowGraphSchema.dropLink
    ((addedValues a.links b.links).foldl FlowGraphSchema.putLink (afterNodes a b))

section Schemas

variable (a b : FlowGraphSchema)

theorem nodes_afterLinks : (afterLinks a b).nodes = (afterNodes a b).nodes := by
  rw [afterLinks, foldl_frame FlowGraphSchema.dropLink FlowGraphSchema.nodes fun _ _ => rfl,
    foldl_frame FlowGraphSchema.putLink FlowGraphSchema.nodes fun _ _ => rfl]

theorem subgraphs_afterLinks : (afterLinks a b).subgraphs = a.subgraphs := by
  rw [afterLinks,
    foldl_frame FlowGraphSchema.dropLink FlowGraphSchema.subgraphs fun _ _ => rfl,
    foldl_frame FlowGraphSchema.putLink FlowGraphSchema.subgraphs fun _ _ => rfl, afterNodes,
    foldl_frame FlowGraphSchema.dropNode FlowGraphSchema.subgraphs fun _ _ => rfl,
    foldl_frame FlowGraphSchema.putNode FlowGraphSchema.subgraphs fun _ _ => rfl]

theorem contains_groups_afterLinks (id : Uuid) :
    (afterLinks a b).groups.contains id = a.groups.contains id := by
  have hdrop : ∀ (s : FlowGraphSchema) (i : Uuid),
      (s.dropNode i).groups.contains id = s.groups.contains id := by
    intro s i
    rw [Std.ExtTreeMap.contains_eq_isSome_getElem?,
      Std.ExtTreeMap.contains_eq_isSome_getElem?, FlowGraphSchema.dropNode,
      FlowGraphSchema.detachGroups, Std.ExtTreeMap.getElem?_map, Option.isSome_map]
  rw [afterLinks, foldl_frame FlowGraphSchema.dropLink FlowGraphSchema.groups fun _ _ => rfl,
    foldl_frame FlowGraphSchema.putLink FlowGraphSchema.groups fun _ _ => rfl, afterNodes,
    foldl_frame FlowGraphSchema.dropNode (fun s => s.groups.contains id) hdrop,
    foldl_frame FlowGraphSchema.putNode (fun s => s.groups.contains id) fun _ _ => rfl]

theorem links_afterNodes (k : Uuid) (l : Link) :
    (afterNodes a b).links[k]? = some l ↔ a.links[k]? = some l ∧
      l.sourceNode ∉ removedKeys a.nodes b.nodes ∧
        l.targetNode ∉ removedKeys a.nodes b.nodes := by
  rw [afterNodes, links_dropNodes,
    foldl_frame FlowGraphSchema.putNode FlowGraphSchema.links fun _ _ => rfl]

theorem diffOps_eq :
    diffOps a b =
      ((addedValues a.nodes b.nodes).map nodeInsert.op ++
        (removedKeys a.nodes b.nodes).map nodeRemove.op) ++
      (((addedValues a.links b.links).map linkInsert.op ++
        (removedKeys a.links b.links).map linkRemove.op) ++
      (((addedValues a.groups b.groups).map groupInsert.op ++
        (removedKeys a.groups b.groups).map groupRemove.op) ++
      ((addedValues a.subgraphs b.subgraphs).map subgraphInsert.op ++
        (removedKeys a.subgraphs b.subgraphs).map subgraphRemove.op))) := by
  simp only [diffOps, addedValues, List.map_map, List.append_assoc]
  rfl

def LinksRemovable : Prop :=
  ∀ id ∈ removedKeys a.links b.links, id ∈ (addedValues a.links b.links).map Link.id ∨
    (afterNodes a b).links.contains id = true

/-- What every phase of a diff needs. -/
structure DiffRuns : Prop where
  nodes_fresh : FreshKeys GraphNode.id a.nodes (addedValues a.nodes b.nodes)
  links_fresh : FreshKeys Link.id (afterNodes a b).links (addedValues a.links b.links)
  links_removable : LinksRemovable a b
  groups_fresh : FreshKeys Group.id a.groups (addedValues a.groups b.groups)
  subgraphs_fresh :
    FreshKeys SubgraphOf.id a.subgraphs (addedValues a.subgraphs b.subgraphs)

def afterGroups : FlowGraphSchema :=
  (removedKeys a.groups b.groups).foldl groupRemove.drop
    ((addedValues a.groups b.groups).foldl FlowGraphSchema.putGroup (afterLinks a b))

def afterDiff : FlowGraphSchema :=
  (removedKeys a.subgraphs b.subgraphs).foldl subgraphRemove.drop
    ((addedValues a.subgraphs b.subgraphs).foldl FlowGraphSchema.putSubgraph
      (afterGroups a b))

theorem frame_afterDiff {β : Type} (read : FlowGraphSchema → β)
    (hgroups : ∀ (s : FlowGraphSchema) m, read { s with groups := m } = read s)
    (hsubgraphs : ∀ (s : FlowGraphSchema) m, read { s with subgraphs := m } = read s) :
    read (afterDiff a b) = read (afterLinks a b) := by
  rw [afterDiff, foldl_frame subgraphRemove.drop read fun _ _ => hsubgraphs _ _,
    foldl_frame FlowGraphSchema.putSubgraph read fun _ _ => hsubgraphs _ _, afterGroups,
    foldl_frame groupRemove.drop read fun _ _ => hgroups _ _,
    foldl_frame FlowGraphSchema.putGroup read fun _ _ => hgroups _ _]

theorem subgraphs_afterGroups : (afterGroups a b).subgraphs = a.subgraphs := by
  rw [afterGroups, foldl_frame groupRemove.drop FlowGraphSchema.subgraphs fun _ _ => rfl,
    foldl_frame FlowGraphSchema.putGroup FlowGraphSchema.subgraphs fun _ _ => rfl,
    subgraphs_afterLinks]

theorem applyOps_diffOps_iff (s' : FlowGraphSchema) :
    a.applyOps (diffOps a b) = .ok s' ↔ DiffRuns a b ∧ s' = afterDiff a b := by
  have hgroups : ∀ vs, FreshKeys Group.id (afterLinks a b).groups vs ↔
      FreshKeys Group.id a.groups vs := by
    intro vs
    unfold FreshKeys
    simp only [contains_groups_afterLinks]
  have hsubgraphs : ∀ vs, FreshKeys SubgraphOf.id (afterGroups a b).subgraphs vs ↔
      FreshKeys SubgraphOf.id a.subgraphs vs := by
    intro vs
    rw [subgraphs_afterGroups]
  rw [diffOps_eq, applyOps_append]
  constructor
  · rintro ⟨s₁, hnodes, hrest⟩
    obtain ⟨hn, -, rfl⟩ :=
      (insert_remove_iff nodeInsert nodeRemove rfl _ (nodup_removedKeys _ _) _ _).mp hnodes
    obtain ⟨s₂, hlinks, hrest⟩ := (applyOps_append _ _ _ _).mp hrest
    obtain ⟨hl, hremove, rfl⟩ :=
      (insert_remove_iff linkInsert linkRemove rfl _ (nodup_removedKeys _ _) _ _).mp hlinks
    obtain ⟨s₃, hgrp, hsub⟩ := (applyOps_append _ _ _ _).mp hrest
    obtain ⟨hg, -, rfl⟩ :=
      (insert_remove_iff groupInsert groupRemove rfl _ (nodup_removedKeys _ _) _ _).mp hgrp
    obtain ⟨hs, -, rfl⟩ :=
      (insert_remove_iff subgraphInsert subgraphRemove rfl _ (nodup_removedKeys _ _) _ _).mp
        hsub
    exact ⟨⟨hn, hl, hremove, (hgroups _).mp hg, (hsubgraphs _).mp hs⟩, rfl⟩
  · rintro ⟨⟨hn, hl, hremove, hg, hs⟩, rfl⟩
    refine ⟨afterNodes a b,
      (insert_remove_iff nodeInsert nodeRemove rfl _ (nodup_removedKeys _ _) _ _).mpr
        ⟨hn, removable, rfl⟩, ?_⟩
    rw [applyOps_append]
    refine ⟨afterLinks a b,
      (insert_remove_iff linkInsert linkRemove rfl _ (nodup_removedKeys _ _) _ _).mpr
        ⟨hl, hremove, rfl⟩, ?_⟩
    rw [applyOps_append]
    refine ⟨afterGroups a b,
      (insert_remove_iff groupInsert groupRemove rfl _ (nodup_removedKeys _ _) _ _).mpr
        ⟨(hgroups _).mpr hg, ?_, rfl⟩, ?_⟩
    · intro id hid
      change _ ∨ (afterLinks a b).groups.contains id = true
      rw [contains_groups_afterLinks]
      exact removable id hid
    · apply (insert_remove_iff subgraphInsert subgraphRemove rfl _
        (nodup_removedKeys _ _) _ _).mpr
      refine ⟨(hsubgraphs _).mpr hs, ?_, rfl⟩
      intro id hid
      change _ ∨ (afterGroups a b).subgraphs.contains id = true
      rw [subgraphs_afterGroups]
      exact removable id hid

end Schemas

/-! ## The round trip -/

/-- Applying the patch to the graph succeeds and leaves the nodes and links of `b`. -/
def RoundTrips (g : FlowGraph) (b : FlowGraphSchema) (patch : GraphPatch) : Prop :=
  (g.applyPatch patch).1 = .ok () ∧ (g.applyPatch patch).2.schema.nodes = b.nodes ∧
    (g.applyPatch patch).2.schema.links = b.links

/-- The condition under which a diff can be applied: no link of the old schema loses
an endpoint, and what the new schema adds is stored under its own id. -/
structure DiffApplies (a b : FlowGraphSchema) : Prop where
  links_stay : ∀ l ∈ a.linkList, EndpointsExist b l
  nodes_keyed : ∀ p ∈ addedEntries a.nodes b.nodes, p.2.id = p.1
  links_keyed : ∀ p ∈ addedEntries a.links b.links, p.2.id = p.1
  groups_fresh : FreshKeys Group.id a.groups (addedValues a.groups b.groups)
  subgraphs_fresh :
    FreshKeys SubgraphOf.id a.subgraphs (addedValues a.subgraphs b.subgraphs)

theorem roundTrips_iff (g : FlowGraph) (b : FlowGraphSchema) (patch : GraphPatch) :
    RoundTrips g b patch ↔ ∃ s, g.schema.applyOps patch.ops = .ok s ∧
      s.nodes = b.nodes ∧ s.links = b.links := by
  unfold RoundTrips FlowGraph.applyPatch
  cases g.schema.applyOps patch.ops with
  | error e => simp
  | ok s => simp

section Schemas

variable {a b : FlowGraphSchema}

theorem endpointsExist_iff {l : Link} (h : EndpointsExist a l) :
    EndpointsExist b l ↔ l.sourceNode ∉ removedKeys a.nodes b.nodes ∧
      l.targetNode ∉ removedKeys a.nodes b.nodes := by
  have hkept : ∀ v : Uuid, a.nodes.contains v = true →
      (b.nodes.contains v = true ↔ v ∉ removedKeys a.nodes b.nodes) := by
    intro v hv
    rw [mem_removedKeys, ← Std.ExtTreeMap.contains_eq_isSome_getElem?, hv,
      Std.ExtTreeMap.contains_eq_isSome_getElem?]
    cases b.nodes[v]? <;> simp
  rw [EndpointsExist, hkept _ h.1, hkept _ h.2]

theorem patched_nodes (h : FreshKeys GraphNode.id a.nodes (addedValues a.nodes b.nodes)) :
    Patched GraphNode.id a.nodes b.nodes (afterNodes a b).nodes := by
  intro k v
  exact getElem?_insert_remove nodeInsert nodeRemove rfl _ _ a h.1 k v

theorem getElem?_links_afterLinks
    (h : FreshKeys Link.id (afterNodes a b).links (addedValues a.links b.links)) (k : Uuid)
    (l : Link) :
    (afterLinks a b).links[k]? = some l ↔ k ∉ removedKeys a.links b.links ∧
      ((l ∈ addedValues a.links b.links ∧ l.id = k) ∨
        (k ∉ (addedValues a.links b.links).map Link.id ∧
          (afterNodes a b).links[k]? = some l)) :=
  getElem?_insert_remove linkInsert linkRemove rfl _ _ (afterNodes a b) h.1 k l

theorem links_afterNodes_eq (hfrom : LinksJoinNodes a)
    (hstay : ∀ l ∈ a.linkList, EndpointsExist b l) : (afterNodes a b).links = a.links := by
  refine Std.ExtTreeMap.ext_getElem? fun k => Option.ext fun l => ?_
  rw [links_afterNodes]
  constructor
  · intro h
    exact h.1
  · intro h
    have hl : l ∈ a.linkList := mem_linkList.mpr ⟨k, h⟩
    exact ⟨h, (endpointsExist_iff (hfrom l hl)).mp (hstay l hl)⟩

theorem DiffApplies.runs (h : DiffApplies a b) (hfrom : LinksJoinNodes a) : DiffRuns a b where
  nodes_fresh := freshKeys_of_keyed h.nodes_keyed
  links_fresh := by
    rw [links_afterNodes_eq hfrom h.links_stay]
    exact freshKeys_of_keyed h.links_keyed
  links_removable := by
    unfold LinksRemovable
    rw [links_afterNodes_eq hfrom h.links_stay]
    exact removable
  groups_fresh := h.groups_fresh
  subgraphs_fresh := h.subgraphs_fresh

theorem links_stay_of_runs (hfrom : LinksJoinNodes a) (hto : LinksJoinNodes b)
    (hcommon : ∀ (k : Uuid) l l', a.links[k]? = some l → b.links[k]? = some l' → l = l')
    (hkeyed : ∀ p ∈ addedEntries a.links b.links, p.2.id = p.1)
    (hremove : LinksRemovable a b) : ∀ l ∈ a.linkList, EndpointsExist b l := by
  intro l hl
  obtain ⟨k, hget⟩ := mem_linkList.mp hl
  cases hb : b.links[k]? with
  | some l' =>
      rw [hcommon k l l' hget hb]
      exact hto l' (mem_linkList.mpr ⟨k, hb⟩)
  | none =>
      have hk : k ∈ removedKeys a.links b.links := by
        rw [mem_removedKeys, hget]
        exact ⟨rfl, hb⟩
      rcases hremove k hk with hadded | hleft
      · -- no added link can stand under `k`
        obtain ⟨l', hl', rfl⟩ := List.mem_map.mp hadded
        obtain ⟨⟨j, w⟩, hmem, rfl⟩ := List.mem_map.mp hl'
        have hj : w.id = j := hkeyed _ hmem
        rw [← hj] at hmem
        rw [(mem_addedEntries.mp hmem).1] at hb
        cases hb
      · rw [Std.ExtTreeMap.contains_eq_isSome_getElem?, Option.isSome_iff_exists] at hleft
        obtain ⟨w, hw⟩ := hleft
        obtain ⟨hold, hends⟩ := (links_afterNodes a b k w).mp hw
        rw [hget] at hold
        cases hold
        exact (endpointsExist_iff (hfrom l hl)).mpr hends

end Schemas

/-- Exactly when the patch made from the difference of two schemas takes the first
to the second. -/
theorem diff_roundtrip_iff (g : FlowGraph) (b : FlowGraphSchema) (author : String)
    (patchId : Uuid) (nowMs : UInt64) (hfrom : LinksJoinNodes g.schema)
    (hto : LinksJoinNodes b)
    (hnodes : ∀ (k : Uuid) v w, g.schema.nodes[k]? = some v → b.nodes[k]? = some w → v = w)
    (hlinks : ∀ (k : Uuid) l l', g.schema.links[k]? = some l → b.links[k]? = some l' →
      l = l') :
    RoundTrips g b (computeDiff g.schema b author patchId nowMs) ↔
      DiffApplies g.schema b := by
  have hops : (computeDiff g.schema b author patchId nowMs).ops = diffOps g.schema b := rfl
  have hframe : (afterDiff g.schema b).nodes = (afterNodes g.schema b).nodes ∧
      (afterDiff g.schema b).links = (afterLinks g.schema b).links := by
    constructor
    · rw [frame_afterDiff _ _ FlowGraphSchema.nodes (fun _ _ => rfl) fun _ _ => rfl,
        nodes_afterLinks]
    · rw [frame_afterDiff _ _ FlowGraphSchema.links (fun _ _ => rfl) fun _ _ => rfl]
  rw [roundTrips_iff, hops]
  constructor
  · rintro ⟨s, happly, hn, hl⟩
    obtain ⟨hruns, rfl⟩ := (applyOps_diffOps_iff _ _ _).mp happly
    rw [hframe.1] at hn
    rw [hframe.2] at hl
    have hkeyed : ∀ p ∈ addedEntries g.schema.links b.links, p.2.id = p.1 := by
      rintro ⟨k, l⟩ hmem
      obtain ⟨hb, ha⟩ := mem_addedEntries.mp hmem
      rw [← hl] at hb
      rcases ((getElem?_links_afterLinks hruns.links_fresh k l).mp hb).2 with
        ⟨-, hid⟩ | ⟨-, hleft⟩
      · exact hid
      · rw [((links_afterNodes _ _ k l).mp hleft).1] at ha
        cases ha
    exact
      { links_stay := links_stay_of_runs hfrom hto hlinks hkeyed hruns.links_removable
        nodes_keyed := ((patched_nodes hruns.nodes_fresh).eq_iff hnodes).mp hn
        links_keyed := hkeyed
        groups_fresh := hruns.groups_fresh
        subgraphs_fresh := hruns.subgraphs_fresh }
  · intro h
    have hruns : DiffRuns g.schema b := h.runs hfrom
    refine ⟨afterDiff g.schema b, (applyOps_diffOps_iff _ _ _).mpr ⟨hruns, rfl⟩, ?_, ?_⟩
    · rw [hframe.1]
      exact ((patched_nodes hruns.nodes_fresh).eq_iff hnodes).mpr h.nodes_keyed
    · have hpatched : Patched Link.id g.schema.links b.links
          (afterLinks g.schema b).links := by
        intro k l
        rw [getElem?_links_afterLinks hruns.links_fresh,
          links_afterNodes_eq hfrom h.links_stay]
      rw [hframe.2]
      exact (hpatched.eq_iff hlinks).mpr h.links_keyed

/-- The nodes 2, 3 and `third`, and one link. -/
def threeNodes (third : Uuid) (link : Link) : FlowGraphSchema :=
  ((((FlowGraphSchema.new 1 7).putNode (sampleNode 2)).putNode (sampleNode 3)).putNode
    (sampleNode third)).putLink link

theorem node_of_threeNodes {third k : Uuid} {link : Link} {v : GraphNode}
    (h : (threeNodes third link).nodes[k]? = some v) : v = sampleNode k := by
  have hget : (threeNodes third link).nodes[k]? = if k = third then some (sampleNode third)
      else if k = 3 then some (sampleNode 3) else if k = 2 then some (sampleNode 2) else none := by
    change ((((∅ : BTreeMap Uuid GraphNode).insert 2 (sampleNode 2)).insert 3
      (sampleNode 3)).insert third (sampleNode third))[k]? = _
    rw [Maps.getElem?_insert_ite, Maps.getElem?_insert_ite, Maps.getElem?_insert_ite,
      Std.ExtTreeMap.getElem?_empty]
  rw [hget] at h
  split_ifs at h with hthird h3 h2
  · rw [hthird, Option.some.inj h]
  · rw [h3, Option.some.inj h]
  · rw [h2, Option.some.inj h]

theorem link_of_threeNodes {third k : Uuid} {link l : Link}
    (h : (threeNodes third link).links[k]? = some l) : k = link.id := by
  change ((∅ : BTreeMap Uuid Link).insert link.id link)[k]? = some l at h
  rw [Maps.getElem?_insert_ite, Std.ExtTreeMap.getElem?_empty] at h
  split_ifs at h with hk
  exact hk

/-- A node and a link give way to others, two nodes stay. -/
theorem diff_roundtrip_iff_sample :
    RoundTrips { schema := threeNodes 5 (Link.new 4 2 11 3 10), executionStates := ∅ }
      (threeNodes 6 (Link.new 8 2 11 6 10))
      (computeDiff (threeNodes 5 (Link.new 4 2 11 3 10)) (threeNodes 6 (Link.new 8 2 11 6 10))
        "test" 9 0) := by
  refine (diff_roundtrip_iff _ _ "test" 9 0 ?_ ?_ ?_ ?_).mpr ?_
  · unfold LinksJoinNodes
    decide
  · unfold LinksJoinNodes
    decide
  · intro k v w hv hw
    rw [node_of_threeNodes hv, node_of_threeNodes hw]
  · intro k l l' hl hl'
    have hk := (link_of_threeNodes hl).symm.trans (link_of_threeNodes hl')
    exact absurd hk (by decide)
  · exact
      { links_stay := by
          unfold EndpointsExist
          decide
        nodes_keyed := by decide
        links_keyed := by decide
        groups_fresh := by
          unfold FreshKeys
          decide
        subgraphs_fresh := by
          unfold FreshKeys
          decide }

/-- The schema left when the first node of `sampleSchema` and its link are gone. -/
def reducedSchema : FlowGraphSchema :=
  (FlowGraphSchema.new 1 7).putNode (sampleNode 3)

/-- Removing the node removes the link, and the operation that removes the link
fails. -/
theorem diff_removes_link_twice :
    let g : FlowGraph := { schema := sampleSchema, executionStates := ∅ }
    LinksJoinNodes g.schema ∧ LinksJoinNodes reducedSchema ∧
      (∀ (k : Uuid) v w, g.schema.nodes[k]? = some v → reducedSchema.nodes[k]? = some w →
        v = w) ∧
      (∀ (k : Uuid) l l', g.schema.links[k]? = some l → reducedSchema.links[k]? = some l' →
        l = l') ∧
      g.schema.relations = reducedSchema.relations ∧
      ¬ RoundTrips g reducedSchema (computeDiff g.schema reducedSchema "test" 9 0) := by
  intro g
  have hnew : ∀ k : Uuid, reducedSchema.nodes[k]? =
      if k = 3 then some (sampleNode 3) else none := by
    intro k
    exact Maps.getElem?_insert_ite _ _ _ _
  have hold : ∀ k : Uuid, sampleSchema.nodes[k]? = if k = 3 then some (sampleNode 3)
      else if k = 2 then some (sampleNode 2) else none := by
    intro k
    change ((_ : BTreeMap Uuid GraphNode).insert 3 (sampleNode 3))[k]? = _
    rw [Maps.getElem?_insert_ite]
    exact congrArg (ite _ _) (Maps.getElem?_insert_ite _ _ _ _)
  refine ⟨?_, ?_, ?_, ?_, rfl, ?_⟩
  · unfold LinksJoinNodes
    decide
  · unfold LinksJoinNodes
    decide
  · intro k v w hv hw
    rw [hnew] at hw
    change sampleSchema.nodes[k]? = some v at hv
    rw [hold] at hv
    split_ifs at hw with hk
    rw [if_pos hk] at hv
    exact Option.some.inj (hv.symm.trans hw)
  · intro k l l' _ hl'
    have hnone : reducedSchema.links[k]? = none := Std.ExtTreeMap.getElem?_empty
    rw [hnone] at hl'
    cases hl'
  · rintro ⟨hok, -⟩
    have hfail : (g.applyPatch (computeDiff g.schema reducedSchema "test" 9 0)).1.toBool =
        false := by
      decide +kernel
    rw [hok] at hfail
    cases hfail

end Graph

end InfinityOS
