import InfinityOS.Core.Maps
import InfinityOS.Paths.Acyclic
import InfinityOS.Graph.Operation

/-!
# The link graph and its two analyses

`adjacencyList` gives the targets of every node, `topologicalOrder` is Kahn's
algorithm and `detectCycle` the depth-first search. A loop of the source whose
length is not bounded by its input runs on fuel here, and an unsigned decrement
checks for zero; `Abort` records either failure, and neither occurs.
`Joins s` is the relation that the links of a schema describe.
-/

namespace InfinityOS

namespace Graph

/-- The links in the order of `links.values()`. -/
def FlowGraphSchema.linkList (s : FlowGraphSchema) : List Link :=
  s.links.toList.map Prod.snd

/-- Some link leads from `a` to `b`. -/
def Joins (s : FlowGraphSchema) (a b : Uuid) : Prop :=
  ∃ l ∈ s.linkList, l.sourceNode = a ∧ l.targetNode = b

/-- `adj.entry(link.source_node).or_default().push(link.target_node)`. -/
def addEdge (adj : HashMap Uuid (List Uuid)) (link : Link) : HashMap Uuid (List Uuid) :=
  adj.insert link.sourceNode (adj[link.sourceNode]?.getD [] ++ [link.targetNode])

def adjacencyList (s : FlowGraphSchema) : HashMap Uuid (List Uuid) :=
  s.linkList.foldl addEdge (s.nodes.keys.foldl (fun adj id => adj.insert id []) ∅)

inductive Abort where
  | underflow
  | outOfFuel
  deriving DecidableEq

/-! ## Topological order -/

/-- `*in_degree.entry(tgt).or_insert(0) += 1`. -/
def raiseDegree (inDegree : BTreeMap Uuid ℕ) (tgt : Uuid) : BTreeMap Uuid ℕ :=
  inDegree.insert tgt (inDegree[tgt]?.getD 0 + 1)

/-- The in-degree of every node and of every target. The order in which the
lists of targets are visited does not matter. -/
def inDegrees (s : FlowGraphSchema) (adj : HashMap Uuid (List Uuid)) : BTreeMap Uuid ℕ :=
  (adj.toList.map Prod.snd).foldl (fun inDegree targets => targets.foldl raiseDegree inDegree)
    (s.nodes.keys.foldl (fun inDegree id => inDegree.insert id 0) ∅)

/-- The loop over the neighbours of an emitted node: each loses one incoming
link, and those without any other join the batch. -/
def relax (inDegree : BTreeMap Uuid ℕ) (batch : List Uuid) :
    List Uuid → Except Abort (BTreeMap Uuid ℕ × List Uuid)
  | [] => .ok (inDegree, batch)
  | next :: rest =>
      let deg := inDegree[next]?.getD 0
      if deg = 0 then
        .error .underflow
      else
        relax (inDegree.insert next (deg - 1))
          (if deg - 1 = 0 then batch ++ [next] else batch) rest

def kahnLoop (adj : HashMap Uuid (List Uuid)) :
    ℕ → BTreeMap Uuid ℕ → List Uuid → List Uuid → Except Abort (List Uuid)
  | _, _, [], order => .ok order
  | 0, _, _ :: _, _ => .error .outOfFuel
  | fuel + 1, inDegree, node :: queue, order =>
      match relax inDegree [] (adj[node]?.getD []) with
      | .error e => .error e
      | .ok (inDegree, batch) =>
          kahnLoop adj fuel inDegree (queue ++ batch.insertionSort (· ≤ ·)) (order ++ [node])

/-- The queue before the loop: the ids without incoming links, sorted. -/
def initialQueue (inDegree : BTreeMap Uuid ℕ) : List Uuid :=
  ((inDegree.toList.filter fun p => p.2 = 0).map Prod.fst).insertionSort (· ≤ ·)

def topologicalOrder (s : FlowGraphSchema) : Except Abort (Except FlowGraphError (List Uuid)) :=
  let adj := adjacencyList s
  let inDegree := inDegrees s adj
  match kahnLoop adj inDegree.size inDegree (initialQueue inDegree) [] with
  | .error e => .error e
  | .ok order =>
      if order.length ≠ s.nodes.size then
        .ok (.error (.cycleDetected (s.nodes.keys.filter fun id => id ∉ order)))
      else
        .ok (.ok order)

/-! ## Cycle detection -/

/-- The colours 0 (unvisited), 1 (in the stack) and 2 (done). -/
inductive Colour where
  | white
  | grey
  | black
  deriving DecidableEq

def colourOf (colour : HashMap Uuid Colour) (id : Uuid) : Colour :=
  colour[id]?.getD .white

/-- How a search ends early: with the extracted cycle, or out of fuel. -/
inductive SearchHalt where
  | cycle (nodes : List Uuid)
  | outOfFuel
  deriving DecidableEq

/-- The slice of the stack from the back edge's target on, closed by it. -/
def extractCycle (stack : List Uuid) (next : Uuid) : List Uuid :=
  stack.drop ((stack.findIdx? fun n => n = next).getD 0) ++ [next]

abbrev Search := HashMap Uuid Colour × List Uuid

def dfsNeighbour (visit : Uuid → Search → Except SearchHalt Search) (st : Search)
    (next : Uuid) : Except SearchHalt Search :=
  match colourOf st.1 next with
  | .grey => .error (.cycle (extractCycle st.2 next))
  | .white => visit next st
  | .black => .ok st

def dfsCycle (adj : HashMap Uuid (List Uuid)) :
    ℕ → Uuid → Search → Except SearchHalt Search
  | 0, _, _ => .error .outOfFuel
  | fuel + 1, node, (colour, stack) => do
      let (colour, stack) ← (adj[node]?.getD []).foldlM (dfsNeighbour (dfsCycle adj fuel))
        (colour.insert node .grey, stack ++ [node])
      .ok (colour.insert node .black, stack.dropLast)

/-- The loop of `detect_cycle` over the starting nodes. -/
def dfsFrom (adj : HashMap Uuid (List Uuid)) (fuel : ℕ) (st : Search) (start : Uuid) :
    Except SearchHalt Search :=
  if colourOf st.1 start = .white then dfsCycle adj fuel start st else .ok st

/-- More than the number of ids that a path can visit. -/
def searchFuel (s : FlowGraphSchema) : ℕ :=
  s.nodes.size + s.links.size + 1

def detectCycle (s : FlowGraphSchema) : Except Abort (Except FlowGraphError Unit) :=
  let ids := s.nodes.keys
  let colour := ids.foldl (fun c id => c.insert id Colour.white) ∅
  match ids.foldlM (dfsFrom (adjacencyList s) (searchFuel s)) (colour, []) with
  | .error (.cycle nodes) => .ok (.error (.cycleDetected nodes))
  | .error .outOfFuel => .error .outOfFuel
  | .ok _ => .ok (.ok ())

/-! ## The adjacency list -/

/-- The targets of the links of `v`, in link order. -/
def targetsOf (s : FlowGraphSchema) (v : Uuid) : List Uuid :=
  (s.linkList.filter fun l => l.sourceNode = v).map Link.targetNode

theorem mem_targetsOf {s : FlowGraphSchema} {a b : Uuid} :
    b ∈ targetsOf s a ↔ Joins s a b := by
  simp [targetsOf, Joins, and_assoc]

theorem count_targetsOf (s : FlowGraphSchema) (a b : Uuid) :
    (targetsOf s a).count b =
      s.linkList.countP fun l => l.sourceNode = a ∧ l.targetNode = b := by
  rw [targetsOf, List.count, List.countP_map, List.countP_filter]
  refine List.countP_congr fun l _ => ?_
  simp [and_comm]

theorem getElem?_addEdge (adj : HashMap Uuid (List Uuid)) (link : Link) (v : Uuid) :
    (addEdge adj link)[v]?.getD [] =
      adj[v]?.getD [] ++ if link.sourceNode = v then [link.targetNode] else [] := by
  rw [addEdge, Maps.getElem?_insert_ite]
  by_cases h : v = link.sourceNode
  · rw [if_pos h, if_pos h.symm, h]
    rfl
  · rw [if_neg h, if_neg (Ne.symm h), List.append_nil]

theorem getD_foldl_insert {ν : Type} (d : ν) (ids : List Uuid) (m : BTreeMap Uuid ν)
    (hm : ∀ v : Uuid, m[v]?.getD d = d) (v : Uuid) :
    (ids.foldl (fun m id => m.insert id d) m)[v]?.getD d = d := by
  induction ids generalizing m with
  | nil => exact hm v
  | cons id ids ih =>
      apply ih
      intro w
      rw [Maps.getElem?_insert_ite]
      split
      · rfl
      · exact hm w

theorem mem_foldl_insert {ν : Type} (d : ν) (ids : List Uuid) (m : BTreeMap Uuid ν)
    (v : Uuid) :
    (ids.foldl (fun m id => m.insert id d) m)[v]?.isSome ↔ v ∈ ids ∨ m[v]?.isSome := by
  induction ids generalizing m with
  | nil => simp
  | cons id ids ih =>
      rw [List.foldl_cons, ih, Maps.getElem?_insert_ite, List.mem_cons]
      by_cases h : v = id
      · simp [h]
      · simp [h]

theorem getElem?_adjacencyList (s : FlowGraphSchema) (v : Uuid) :
    (adjacencyList s)[v]?.getD [] = targetsOf s v := by
  have hfold : ∀ (links : List Link) (adj : HashMap Uuid (List Uuid)),
      (links.foldl addEdge adj)[v]?.getD [] =
        adj[v]?.getD [] ++ (links.filter fun l => l.sourceNode = v).map Link.targetNode := by
    intro links
    induction links with
    | nil => simp
    | cons l links ih =>
        intro adj
        rw [List.foldl_cons, ih, getElem?_addEdge, List.filter_cons]
        by_cases h : l.sourceNode = v <;> simp [h]
  rw [adjacencyList, hfold, getD_foldl_insert [] _ _ (by simp), List.nil_append]
  rfl

/-- The number of occurrences of `v` in the lists of a map. -/
def occurrences (adj : HashMap Uuid (List Uuid)) (v : Uuid) : ℕ :=
  (adj.toList.map fun p => p.2.count v).sum

theorem occurrences_addEdge (adj : HashMap Uuid (List Uuid)) (link : Link) (v : Uuid) :
    occurrences (addEdge adj link) v =
      occurrences adj v + if link.targetNode = v then 1 else 0 := by
  have hsum := Maps.sum_toList_insert adj link.sourceNode
    (adj[link.sourceNode]?.getD [] ++ [link.targetNode]) fun p => p.2.count v
  have hold : (adj[link.sourceNode]?.map fun w => w.count v).getD 0 =
      (adj[link.sourceNode]?.getD []).count v := by
    cases adj[link.sourceNode]? <;> rfl
  dsimp only at hsum
  rw [hold, List.count_append, List.count_singleton] at hsum
  unfold occurrences addEdge
  simp only [beq_iff_eq] at hsum
  omega

theorem occurrences_adjacencyList (s : FlowGraphSchema) (v : Uuid) :
    occurrences (adjacencyList s) v = s.linkList.countP fun l => l.targetNode = v := by
  have hbase : ∀ (ids : List Uuid) (m : HashMap Uuid (List Uuid)), occurrences m v = 0 →
      occurrences (ids.foldl (fun m id => m.insert id []) m) v = 0 := by
    intro ids
    induction ids with
    | nil => intro m h; exact h
    | cons id ids ih =>
        intro m hm
        have hsum := Maps.sum_toList_insert m id [] fun p => p.2.count v
        apply ih
        change ((m.insert id []).toList.map _).sum = 0
        change (m.toList.map fun p => p.2.count v).sum = 0 at hm
        simp only [List.count_nil] at hsum
        omega
  have hfold : ∀ (links : List Link) (adj : HashMap Uuid (List Uuid)),
      occurrences (links.foldl addEdge adj) v =
        occurrences adj v + links.countP fun l => l.targetNode = v := by
    intro links
    induction links with
    | nil => simp
    | cons l links ih =>
        intro adj
        rw [List.foldl_cons, ih, occurrences_addEdge, List.countP_cons]
        simp only [decide_eq_true_eq]
        omega
  have hempty : occurrences ∅ v = 0 := by
    rw [occurrences, Std.ExtTreeMap.toList_eq_nil_iff.mpr rfl]
    rfl
  rw [adjacencyList, hfold, hbase _ _ hempty, Nat.zero_add]

end Graph

end InfinityOS
