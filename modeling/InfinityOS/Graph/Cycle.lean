import InfinityOS.Graph.Analysis

/-!
# Cycle detection

The invariant of the depth-first search: the grey ids are those on the stack,
the stack is a walk along the links that starts at a node, and every path from a
black id ends. A back edge therefore closes a walk, and when the search is over
no cycle can be reached from a node. Links that lead only among absent ids are
never visited.
-/

namespace InfinityOS

namespace Graph

open Paths Relation

structure Searching (s : FlowGraphSchema) (st : Search) : Prop where
  grey : ∀ v, colourOf st.1 v = .grey ↔ v ∈ st.2
  black : ∀ v, colourOf st.1 v = .black → Acc (fun y x => Joins s x y) v
  nodup : st.2.Nodup
  chain : st.2.IsChain (Joins s)
  root : ∀ a, st.2.head? = some a → s.nodes.contains a = true

def FoundCycle (s : FlowGraphSchema) (path : List Uuid) : Prop :=
  ClosedWalk (Joins s) path ∧
    ∃ a b, s.nodes.contains a = true ∧ ReflTransGen (Joins s) a b ∧ path.head? = some b

/-- What a part of the search from `st` comes to: the ids `done` are black and
the stack is back, or a cycle is found. -/
def Outcome (s : FlowGraphSchema) (st : Search) (done : List Uuid) :
    Except SearchHalt Search → Prop
  | .ok st' => Searching s st' ∧ st'.2 = st.2 ∧
      (∀ v, colourOf st.1 v = .black → colourOf st'.1 v = .black) ∧
      ∀ v ∈ done, colourOf st'.1 v = .black
  | .error (.cycle path) => FoundCycle s path
  | .error .outOfFuel => False

theorem colourOf_insert (colour : HashMap Uuid Colour) (id : Uuid) (c : Colour) (v : Uuid) :
    colourOf (colour.insert id c) v = if v = id then c else colourOf colour v := by
  rw [colourOf, Maps.getElem?_insert_ite]
  split <;> rfl

section Search

variable {s : FlowGraphSchema} {st : Search}

theorem Outcome.trans {st' : Search} {d e : List Uuid} {result : Except SearchHalt Search}
    (h : Outcome s st d (.ok st')) (h' : Outcome s st' e result) :
    Outcome s st (d ++ e) result := by
  obtain ⟨-, hstack, hkeep, hdone⟩ := h
  match result with
  | .ok st'' =>
      obtain ⟨hsearch, hstack', hkeep', hdone'⟩ := h'
      refine ⟨hsearch, hstack'.trans hstack, fun v hv => hkeep' v (hkeep v hv), ?_⟩
      intro v hv
      rcases List.mem_append.mp hv with hv | hv
      · exact hkeep' v (hdone v hv)
      · exact hdone' v hv
  | .error (.cycle path) => exact h'
  | .error .outOfFuel => exact h'

theorem outcome_foldlM {f : Search → Uuid → Except SearchHalt Search} (ids : List Uuid)
    (h : Searching s st)
    (hf : ∀ st' x, x ∈ ids → Searching s st' → st'.2 = st.2 → Outcome s st' [x] (f st' x)) :
    Outcome s st ids (ids.foldlM f st) := by
  induction ids generalizing st with
  | nil => exact ⟨h, rfl, fun _ hv => hv, by simp⟩
  | cons x ids ih =>
      have hx := hf st x (by simp) h rfl
      rw [List.foldlM_cons]
      cases hstep : f st x with
      | error e =>
          rw [hstep] at hx
          cases e with
          | cycle path => exact hx
          | outOfFuel => exact hx.elim
      | ok st' =>
          rw [hstep] at hx
          refine hx.trans (ih hx.1 fun st'' y hy hsearch hstack => ?_)
          exact hf st'' y (List.mem_cons_of_mem x hy) hsearch (hstack.trans hx.2.1)

/-! ## The back edge -/

theorem extractCycle_eq {stack : List Uuid} {next : Uuid} (hnext : next ∈ stack) :
    ∃ l₁ l₂, stack = l₁ ++ next :: l₂ ∧ extractCycle stack next = next :: l₂ ++ [next] := by
  have hsome : ∃ i, stack.findIdx? (fun n => n = next) = some i := by
    rw [← Option.isSome_iff_exists, List.findIdx?_isSome, List.any_eq_true]
    exact ⟨next, hnext, by simp⟩
  obtain ⟨i, hi⟩ := hsome
  obtain ⟨hlt, hget, -⟩ := List.findIdx?_eq_some_iff_getElem.mp hi
  rw [decide_eq_true_eq] at hget
  have hdrop : stack.drop i = next :: stack.drop (i + 1) := by
    rw [← hget]
    exact List.drop_eq_getElem_cons hlt
  refine ⟨stack.take i, stack.drop (i + 1), ?_, ?_⟩
  · rw [← hdrop, List.take_append_drop]
  · rw [extractCycle, hi, Option.getD_some, hdrop]

theorem Searching.foundCycle (h : Searching s st) {node next : Uuid}
    (hlast : st.2.getLast? = some node) (hjoin : Joins s node next) (hnext : next ∈ st.2) :
    FoundCycle s (extractCycle st.2 next) := by
  obtain ⟨l₁, l₂, hstack, hcycle⟩ := extractCycle_eq hnext
  have hwalk : (st.2 ++ [next]).IsChain (Joins s) := by
    rw [List.isChain_append]
    refine ⟨h.chain, List.isChain_singleton next, ?_⟩
    intro a ha b hb
    rw [hlast, Option.mem_some_iff] at ha
    rw [List.head?_singleton, Option.mem_some_iff] at hb
    rwa [← ha, ← hb]
  rw [hstack, List.append_assoc] at hwalk
  rw [hcycle]
  refine ⟨⟨(List.isChain_append.mp hwalk).2.1, by simp, ?_⟩, ?_⟩
  · rw [List.getLast?_concat]
    rfl
  -- the stack leads from a node to `next`
  cases hst : st.2 with
  | nil =>
      rw [hst] at hnext
      cases hnext
  | cons a rest =>
      refine ⟨a, next, h.root a (by rw [hst, List.head?_cons]), ?_, rfl⟩
      have hchain := h.chain
      rw [hst] at hchain hnext
      exact reflTransGen_of_isChain hchain next hnext

theorem dfsNeighbour_spec (h : Searching s st) {node next : Uuid}
    (hlast : st.2.getLast? = some node) (hjoin : Joins s node next)
    {visit : Uuid → Search → Except SearchHalt Search}
    (hvisit : colourOf st.1 next = .white → Outcome s st [next] (visit next st)) :
    Outcome s st [next] (dfsNeighbour visit st next) := by
  unfold dfsNeighbour
  cases hcolour : colourOf st.1 next with
  | grey => exact h.foundCycle hlast hjoin ((h.grey next).mp hcolour)
  | white => exact hvisit hcolour
  | black =>
      refine ⟨h, rfl, fun _ hv => hv, fun v hv => ?_⟩
      rw [List.mem_singleton.mp hv]
      exact hcolour

/-! ## The recursion -/

theorem length_le_of_walk {stack : List Uuid} (hnodup : stack.Nodup)
    (hchain : stack.IsChain (Joins s))
    (hroot : ∀ a, stack.head? = some a → s.nodes.contains a = true) :
    stack.length ≤ s.nodes.size + s.links.size := by
  have hsub : stack ⊆ s.nodes.keys ++ s.linkList.map Link.targetNode := by
    cases stack with
    | nil => simp
    | cons a rest =>
        intro b hb
        rw [List.mem_append, Std.ExtTreeMap.mem_keys, ← Std.ExtTreeMap.contains_iff_mem]
        rcases (ReflTransGen.cases_tail_iff _ _ _).mp
          (reflTransGen_of_isChain hchain b hb) with rfl | ⟨c, -, l, hl, -, rfl⟩
        · exact .inl (hroot _ rfl)
        · exact .inr (List.mem_map_of_mem hl)
  have hle := (List.subperm_of_subset hnodup hsub).length_le
  rwa [List.length_append, Std.ExtTreeMap.length_keys, List.length_map,
    FlowGraphSchema.linkList, List.length_map, Std.ExtTreeMap.length_toList] at hle

theorem Searching.push (h : Searching s st) {node : Uuid}
    (hwhite : colourOf st.1 node = .white) (hchain : (st.2 ++ [node]).IsChain (Joins s))
    (hroot : ∀ a, (st.2 ++ [node]).head? = some a → s.nodes.contains a = true) :
    Searching s (st.1.insert node .grey, st.2 ++ [node]) := by
  have hfresh : node ∉ st.2 := by
    rw [← h.grey, hwhite]
    simp
  refine ⟨fun v => ?_, fun v hv => ?_, ?_, hchain, hroot⟩
  · rw [colourOf_insert, List.mem_append, List.mem_singleton]
    by_cases hv : v = node
    · simp [hv]
    · simp [hv, h.grey]
  · rw [colourOf_insert] at hv
    split at hv
    · cases hv
    · exact h.black v hv
  · rw [List.nodup_append]
    refine ⟨h.nodup, List.nodup_singleton node, ?_⟩
    rintro a ha b hb rfl
    exact hfresh (List.mem_singleton.mp hb ▸ ha)

theorem Searching.finish (h : Searching s st) {node : Uuid}
    (hwhite : colourOf st.1 node = .white) {st' : Search}
    (hloop : Outcome s (st.1.insert node .grey, st.2 ++ [node]) (targetsOf s node) (.ok st')) :
    Outcome s st [node] (.ok (st'.1.insert node .black, st'.2.dropLast)) := by
  obtain ⟨hsearch, hstack, hkeep, hdone⟩ := hloop
  have hfresh : node ∉ st.2 := by
    rw [← h.grey, hwhite]
    simp
  have hpop : st'.2.dropLast = st.2 := by
    rw [hstack, List.dropLast_concat]
  have hcolour := colourOf_insert st'.1 node .black
  refine ⟨⟨fun v => ?_, fun v hv => ?_, ?_, ?_, ?_⟩, hpop, fun v hv => ?_, ?_⟩
  · rw [hpop, hcolour]
    by_cases hv : v = node
    · simp [hv, hfresh]
    · rw [if_neg hv, hsearch.grey, hstack]
      simp [hv]
  · rw [hcolour] at hv
    by_cases hnode : v = node
    · subst hnode
      exact ⟨v, fun y hy => hsearch.black y (hdone y (mem_targetsOf.mpr hy))⟩
    · rw [if_neg hnode] at hv
      exact hsearch.black v hv
  · rw [hpop]
    exact h.nodup
  · rw [hpop]
    exact h.chain
  · rw [hpop]
    exact h.root
  · rw [hcolour]
    split
    · rfl
    · next hnode =>
        apply hkeep
        rw [colourOf_insert, if_neg hnode]
        exact hv
  · intro v hv
    rw [hcolour, if_pos (List.mem_singleton.mp hv)]

/-- The search from a white id: it becomes black, or a cycle is found. -/
theorem dfsCycle_spec (fuel : ℕ) (h : Searching s st) {node : Uuid}
    (hwhite : colourOf st.1 node = .white) (hchain : (st.2 ++ [node]).IsChain (Joins s))
    (hroot : ∀ a, (st.2 ++ [node]).head? = some a → s.nodes.contains a = true)
    (hfuel : s.nodes.size + s.links.size < fuel + st.2.length) :
    Outcome s st [node] (dfsCycle (adjacencyList s) fuel node st) := by
  induction fuel generalizing st node with
  | zero =>
      have := length_le_of_walk h.nodup h.chain h.root
      omega
  | succ fuel ih =>
      set pushed : Search := (st.1.insert node .grey, st.2 ++ [node]) with hpushed
      have hloop : Outcome s pushed (targetsOf s node)
          ((targetsOf s node).foldlM (dfsNeighbour (dfsCycle (adjacencyList s) fuel))
            pushed) := by
        refine outcome_foldlM _ (h.push hwhite hchain hroot)
          fun st' next hnext hsearch' hstack => ?_
        have hjoin := mem_targetsOf.mp hnext
        have hlast : st'.2.getLast? = some node := by
          rw [hstack, hpushed, List.getLast?_concat]
        refine dfsNeighbour_spec hsearch' hlast hjoin fun hwhite' => ?_
        refine ih hsearch' hwhite' ?_ ?_ ?_
        · rw [List.isChain_append]
          refine ⟨hsearch'.chain, List.isChain_singleton next, ?_⟩
          intro a ha b hb
          rw [hlast, Option.mem_some_iff] at ha
          rw [List.head?_singleton, Option.mem_some_iff] at hb
          rwa [← ha, ← hb]
        · intro a ha
          apply hroot
          rw [hstack, hpushed] at ha
          rwa [List.head?_append_of_ne_nil _ (by simp)] at ha
        · rw [hstack, hpushed, List.length_append, List.length_singleton]
          omega
      rw [dfsCycle, getElem?_adjacencyList]
      cases hresult : (targetsOf s node).foldlM
          (dfsNeighbour (dfsCycle (adjacencyList s) fuel)) pushed with
      | error e =>
          rw [hresult] at hloop
          cases e with
          | cycle path => exact hloop
          | outOfFuel => exact hloop.elim
      | ok st' =>
          rw [hresult] at hloop
          exact h.finish hwhite hloop

end Search

/-! ## Correctness -/

theorem searching_initial (s : FlowGraphSchema) :
    Searching s (s.nodes.keys.foldl (fun c id => c.insert id Colour.white) ∅, []) := by
  have hwhite : ∀ v, colourOf (s.nodes.keys.foldl (fun c id => c.insert id Colour.white) ∅) v =
      .white := getD_foldl_insert _ _ _ (by simp)
  refine ⟨fun v => ?_, fun v hv => ?_, List.nodup_nil, List.isChain_nil, by simp⟩
  · rw [hwhite]
    simp
  · rw [hwhite] at hv
    cases hv

theorem detectCycle_spec (s : FlowGraphSchema) :
    (detectCycle s = .ok (.ok ()) ∧
        ∀ a, s.nodes.contains a = true → Acc (fun y x => Joins s x y) a) ∨
      ∃ path, detectCycle s = .ok (.error (.cycleDetected path)) ∧ FoundCycle s path := by
  have hloop := outcome_foldlM (f := dfsFrom (adjacencyList s) (searchFuel s)) s.nodes.keys
    (searching_initial s) fun st start hstart hsearch hstack => by
      have hnode : s.nodes.contains start = true := by
        rwa [Std.ExtTreeMap.contains_iff_mem, ← Std.ExtTreeMap.mem_keys]
      unfold dfsFrom
      split
      · next hwhite =>
          refine dfsCycle_spec _ hsearch hwhite ?_ ?_ ?_
          · rw [hstack]
            exact List.isChain_singleton start
          · intro a ha
            rw [hstack] at ha
            cases ha
            exact hnode
          · rw [searchFuel]
            omega
      · next hseen =>
          refine ⟨hsearch, rfl, fun _ hv => hv, fun v hv => ?_⟩
          rw [List.mem_singleton.mp hv]
          have hgrey : colourOf st.1 start ≠ .grey := by
            rw [ne_eq, hsearch.grey, hstack]
            simp
          cases hcolour : colourOf st.1 start with
          | white => exact absurd hcolour hseen
          | grey => exact absurd hcolour hgrey
          | black => rfl
  unfold detectCycle
  dsimp only
  cases hresult : s.nodes.keys.foldlM (dfsFrom (adjacencyList s) (searchFuel s))
      (s.nodes.keys.foldl (fun c id => c.insert id Colour.white) ∅, []) with
  | error e =>
      rw [hresult] at hloop
      cases e with
      | cycle path => exact .inr ⟨path, rfl, hloop⟩
      | outOfFuel => exact hloop.elim
  | ok st =>
      rw [hresult] at hloop
      refine .inl ⟨rfl, fun a ha => hloop.1.black a (hloop.2.2.2 a ?_)⟩
      rwa [Std.ExtTreeMap.mem_keys, ← Std.ExtTreeMap.contains_iff_mem]

theorem detectCycle_ok_iff_reach (s : FlowGraphSchema) :
    detectCycle s = .ok (.ok ()) ↔
      ∀ a b, s.nodes.contains a = true → ReflTransGen (Joins s) a b →
        ¬ TransGen (Joins s) b b := by
  rcases detectCycle_spec s with ⟨hok, hacc⟩ | ⟨path, herr, hwalk, a, b, ha, hab, hhead⟩
  · exact ⟨fun _ a b ha hab => not_transGen_of_acc (hacc a ha) hab, fun _ => hok⟩
  · obtain ⟨c, hc, hcycle⟩ := hwalk.exists_transGen
    rw [hhead] at hc
    cases hc
    rw [herr]
    constructor
    · intro h
      cases h
    · intro h
      exact absurd hcycle (h a b ha hab)

theorem detectCycle_ok_iff (s : FlowGraphSchema)
    (hsources : ∀ l ∈ s.linkList, s.nodes.contains l.sourceNode = true) :
    detectCycle s = .ok (.ok ()) ↔ Acyclic (Joins s) := by
  rw [detectCycle_ok_iff_reach]
  constructor
  · intro h a hcycle
    obtain ⟨b, ⟨l, hl, rfl, rfl⟩, -⟩ := TransGen.head'_iff.mp hcycle
    exact h _ _ (hsources l hl) .refl hcycle
  · intro h a b _ _
    exact h b

/-- `detect_cycle` always returns; it returns `Ok` exactly when no cycle of links
can be reached from a node, which is acyclicity where every link starts at a
node; and a reported sequence is a closed walk along the links. -/
theorem detectCycle_correct (s : FlowGraphSchema) :
    (∀ e, detectCycle s ≠ .error e) ∧
      (detectCycle s = .ok (.ok ()) ↔
        ∀ a b, s.nodes.contains a = true → ReflTransGen (Joins s) a b →
          ¬ TransGen (Joins s) b b) ∧
      ((∀ l ∈ s.linkList, s.nodes.contains l.sourceNode = true) →
        (detectCycle s = .ok (.ok ()) ↔ Acyclic (Joins s))) ∧
      ∀ err, detectCycle s = .ok (.error err) →
        ∃ path, err = .cycleDetected path ∧ ClosedWalk (Joins s) path := by
  refine ⟨fun e he => ?_, detectCycle_ok_iff_reach s, detectCycle_ok_iff s,
    fun err herr => ?_⟩
  · rcases detectCycle_spec s with ⟨hok, -⟩ | ⟨path, hcycle, -⟩
    · rw [hok] at he
      cases he
    · rw [hcycle] at he
      cases he
  · rcases detectCycle_spec s with ⟨hok, -⟩ | ⟨path, hcycle, hwalk, -⟩
    · rw [hok] at herr
      cases herr
    · rw [hcycle] at herr
      cases herr
      exact ⟨path, rfl, hwalk⟩

/-- A link from an absent id to itself. -/
def strayLoop : FlowGraphSchema :=
  (FlowGraphSchema.new 1 7).putLink (Link.new 4 9 11 9 10)

theorem detectCycle_strayLoop :
    ¬ (detectCycle strayLoop = .ok (.ok ()) ↔ Acyclic (Joins strayLoop)) := by
  intro h
  have hok : detectCycle strayLoop = .ok (.ok ()) := by decide
  have hjoin : Joins strayLoop 9 9 := by
    unfold Joins
    decide
  exact h.mp hok 9 (.single hjoin)

end Graph

end InfinityOS
