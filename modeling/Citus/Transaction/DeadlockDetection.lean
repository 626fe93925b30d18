import Citus.Lib.ChainPath
import Mathlib

/-!
# Distributed deadlock detection

`CheckForDistributedDeadlocks` builds the wait graph of the distributed transactions,
turns its edges into adjacency lists (`BuildAdjacencyListsForWaitGraph`), and for each
transaction looks for a cycle back to it with `CheckDeadlockForTransactionNode`: a
depth-first search over a worklist that new nodes are prepended to, a visited flag that
the starting node never gets, and a stack of the nodes on the current path that is
written by depth rather than pushed and popped.

The search returns a deadlock exactly when the starting node lies on a cycle of the
wait graph, its path then starts at that node, follows edges and ends at a node
waiting for it, and no node is put on the stack at a depth of `edgeCount + 1` or
more (`checkDeadlockForTransactionNode_spec`). The search keeps an invariant
(`SearchInvariant`): every queued node has, below its depth on the stack, a path of
distinct nodes from the starting node to a node waiting for it, and the queued depths
never grow towards the queue's end, so writing a node at its depth never touches the
path of a node still queued.

## Implementation notes

* A `DistributedTransactionId` is an element of a type with decidable equality, the
  key equality of the adjacency hash; the hash is a list of nodes in insertion order.
* The loop runs on fuel: every round takes an entry off the queue, and every entry of
  a `waitsFor` list is queued at most once, so their total plus one is enough
  (`pendingEntries_step`, `deadlockSearchLoop_correct`).
* `Assert(currentStackDepth < maxStackDepth)` is a result of its own,
  `stackDepthExceeded`.
* Choosing and cancelling the youngest transaction of a deadlock is not modelled.
-/

namespace Citus.Transaction

variable {α : Type} [DecidableEq α]

/-- A `WaitEdge`, by the distributed transaction ids it joins: the waiting
transaction waits for the blocking one. -/
structure WaitEdge (α : Type) where
  waitingId : α
  blockingId : α
  deriving DecidableEq, Repr

/-- The `TransactionNode`s of the adjacency hash in insertion order, each with its
`waitsFor` list. -/
abbrev AdjacencyLists (α : Type) := List (α × List α)

section AdjacencyLists

/-- `GetOrCreateTransactionNode`: a new node waits for nothing. -/
def getOrCreateTransactionNode (adjacencyLists : AdjacencyLists α) (transactionId : α) :
    AdjacencyLists α :=
  if transactionId ∈ adjacencyLists.map Prod.fst then adjacencyLists
  else adjacencyLists ++ [(transactionId, [])]

/-- The node `waitingId` gets `blockingId` at the end of its `waitsFor` list. -/
def appendWaitsFor (adjacencyLists : AdjacencyLists α) (waitingId blockingId : α) :
    AdjacencyLists α :=
  adjacencyLists.map fun node =>
    if node.1 = waitingId then (node.1, node.2 ++ [blockingId]) else node

/-- One edge of `BuildAdjacencyListsForWaitGraph`. -/
def addWaitEdge (adjacencyLists : AdjacencyLists α) (edge : WaitEdge α) : AdjacencyLists α :=
  let adjacencyLists := getOrCreateTransactionNode adjacencyLists edge.waitingId
  let adjacencyLists := getOrCreateTransactionNode adjacencyLists edge.blockingId
  appendWaitsFor adjacencyLists edge.waitingId edge.blockingId

/-- `BuildAdjacencyListsForWaitGraph`. -/
def buildAdjacencyListsForWaitGraph (edges : List (WaitEdge α)) : AdjacencyLists α :=
  edges.foldl addWaitEdge []

/-- The `waitsFor` list of a transaction's node; a transaction without a node waits for
nothing. -/
def waitsFor (adjacencyLists : AdjacencyLists α) (transactionNode : α) : List α :=
  ((adjacencyLists.find? (·.1 == transactionNode)).map Prod.snd).getD []

/-- The wait graph's edge relation. -/
def WaitsForEdge (edges : List (WaitEdge α)) (waiting blocking : α) : Prop :=
  ⟨waiting, blocking⟩ ∈ edges

theorem waitsFor_cons (entry : α × List α) (adjacencyLists : AdjacencyLists α)
    (transactionNode : α) :
    waitsFor (entry :: adjacencyLists) transactionNode =
      if entry.1 = transactionNode then entry.2 else waitsFor adjacencyLists transactionNode := by
  unfold waitsFor
  by_cases hkey : entry.1 = transactionNode <;> simp [hkey]

theorem waitsFor_getOrCreateTransactionNode (adjacencyLists : AdjacencyLists α)
    (transactionId transactionNode : α) :
    waitsFor (getOrCreateTransactionNode adjacencyLists transactionId) transactionNode =
      waitsFor adjacencyLists transactionNode := by
  unfold getOrCreateTransactionNode
  split_ifs with hmem
  · rfl
  · unfold waitsFor
    rw [List.find?_append]
    cases hfind : adjacencyLists.find? (·.1 == transactionNode) with
    | some node => rfl
    | none =>
        -- the new node is the transaction's only when it had none
        by_cases heq : transactionId = transactionNode
        · subst heq
          simp
        · simp [heq]

theorem waitsFor_appendWaitsFor {adjacencyLists : AdjacencyLists α} {waitingId : α}
    (hmem : waitingId ∈ adjacencyLists.map Prod.fst) (blockingId transactionNode : α) :
    waitsFor (appendWaitsFor adjacencyLists waitingId blockingId) transactionNode =
      if transactionNode = waitingId then waitsFor adjacencyLists transactionNode ++ [blockingId]
      else waitsFor adjacencyLists transactionNode := by
  unfold waitsFor appendWaitsFor
  rw [List.find?_map]
  -- appending keeps every node's id, so the same node is found
  have hkey : ((fun node : α × List α => node.1 == transactionNode) ∘ fun node : α × List α =>
      if node.1 = waitingId then (node.1, node.2 ++ [blockingId]) else node) =
        fun node => node.1 == transactionNode := by
    funext node
    simp only [Function.comp]
    split_ifs <;> rfl
  rw [hkey]
  cases hfind : adjacencyLists.find? (fun node => node.1 == transactionNode) with
  | none =>
      have hne : transactionNode ≠ waitingId := by
        rintro rfl
        obtain ⟨node, hnode, hid⟩ := List.mem_map.mp hmem
        have := List.find?_eq_none.mp hfind node hnode
        simp [hid] at this
      simp [hne]
  | some node =>
      have hid : node.1 = transactionNode := by
        simpa using List.find?_some hfind
      by_cases heq : transactionNode = waitingId
      · simp [heq, hid ▸ heq]
      · simp [heq, hid]

theorem map_fst_appendWaitsFor (adjacencyLists : AdjacencyLists α) (waitingId blockingId : α) :
    (appendWaitsFor adjacencyLists waitingId blockingId).map Prod.fst =
      adjacencyLists.map Prod.fst := by
  unfold appendWaitsFor
  rw [List.map_map]
  congr 1
  funext node
  simp only [Function.comp]
  split_ifs <;> rfl

theorem map_fst_getOrCreateTransactionNode (adjacencyLists : AdjacencyLists α)
    (transactionId : α) :
    (getOrCreateTransactionNode adjacencyLists transactionId).map Prod.fst =
      if transactionId ∈ adjacencyLists.map Prod.fst then adjacencyLists.map Prod.fst
      else adjacencyLists.map Prod.fst ++ [transactionId] := by
  unfold getOrCreateTransactionNode
  split_ifs <;> simp

/-- Both transactions of an edge have a node afterwards, the waiting one among them. -/
theorem mem_map_fst_addWaitEdge_getOrCreate (adjacencyLists : AdjacencyLists α)
    (edge : WaitEdge α) :
    edge.waitingId ∈ (getOrCreateTransactionNode (getOrCreateTransactionNode adjacencyLists
      edge.waitingId) edge.blockingId).map Prod.fst := by
  rw [map_fst_getOrCreateTransactionNode, map_fst_getOrCreateTransactionNode]
  split_ifs <;> simp_all

theorem nodup_map_fst_getOrCreateTransactionNode {adjacencyLists : AdjacencyLists α}
    (hnodup : (adjacencyLists.map Prod.fst).Nodup) (transactionId : α) :
    ((getOrCreateTransactionNode adjacencyLists transactionId).map Prod.fst).Nodup := by
  rw [map_fst_getOrCreateTransactionNode]
  split_ifs with hmem
  · exact hnodup
  · rw [List.nodup_append]
    refine ⟨hnodup, List.nodup_singleton _, ?_⟩
    intro a ha b hb
    rw [List.mem_singleton] at hb
    rintro rfl
    exact hmem (hb ▸ ha)

theorem waitsFor_addWaitEdge (adjacencyLists : AdjacencyLists α) (edge : WaitEdge α)
    (transactionNode : α) :
    waitsFor (addWaitEdge adjacencyLists edge) transactionNode =
      if transactionNode = edge.waitingId then
        waitsFor adjacencyLists transactionNode ++ [edge.blockingId]
      else waitsFor adjacencyLists transactionNode := by
  unfold addWaitEdge
  dsimp only
  rw [waitsFor_appendWaitsFor (mem_map_fst_addWaitEdge_getOrCreate adjacencyLists edge),
    waitsFor_getOrCreateTransactionNode, waitsFor_getOrCreateTransactionNode]

/-- Each node's `waitsFor` list holds the blocking transactions of its edges, in edge
order. -/
theorem waitsFor_buildAdjacencyListsForWaitGraph (edges : List (WaitEdge α))
    (transactionNode : α) :
    waitsFor (buildAdjacencyListsForWaitGraph edges) transactionNode =
      (edges.filter (·.waitingId == transactionNode)).map (·.blockingId) := by
  suffices h : ∀ adjacencyLists : AdjacencyLists α,
      waitsFor (edges.foldl addWaitEdge adjacencyLists) transactionNode =
        waitsFor adjacencyLists transactionNode ++
          (edges.filter (·.waitingId == transactionNode)).map (·.blockingId) by
    unfold buildAdjacencyListsForWaitGraph
    simpa [waitsFor] using h []
  induction edges with
  | nil => simp
  | cons edge edges ih =>
      intro adjacencyLists
      rw [List.foldl_cons, ih, waitsFor_addWaitEdge]
      by_cases heq : transactionNode = edge.waitingId
      · simp [heq]
      · simp [heq, Ne.symm heq]

theorem mem_waitsFor_buildAdjacencyListsForWaitGraph {edges : List (WaitEdge α)}
    {waiting blocking : α} :
    blocking ∈ waitsFor (buildAdjacencyListsForWaitGraph edges) waiting ↔
      WaitsForEdge edges waiting blocking := by
  rw [waitsFor_buildAdjacencyListsForWaitGraph]
  constructor
  · rintro hmem
    obtain ⟨edge, hedge, rfl⟩ := List.mem_map.mp hmem
    obtain ⟨hedge, hid⟩ := List.mem_filter.mp hedge
    have : edge.waitingId = waiting := by simpa using hid
    rw [← this]
    exact hedge
  · intro hedge
    exact List.mem_map.mpr ⟨_, List.mem_filter.mpr ⟨hedge, by simp⟩, rfl⟩

theorem appendWaitsFor_cons (node : α × List α) (adjacencyLists : AdjacencyLists α)
    (waitingId blockingId : α) :
    appendWaitsFor (node :: adjacencyLists) waitingId blockingId =
      (if node.1 = waitingId then (node.1, node.2 ++ [blockingId]) else node) ::
        appendWaitsFor adjacencyLists waitingId blockingId := rfl

theorem appendWaitsFor_of_not_mem {adjacencyLists : AdjacencyLists α} {waitingId : α}
    (hmem : waitingId ∉ adjacencyLists.map Prod.fst) (blockingId : α) :
    appendWaitsFor adjacencyLists waitingId blockingId = adjacencyLists := by
  unfold appendWaitsFor
  conv_rhs => rw [← List.map_id adjacencyLists]
  apply List.map_congr_left
  intro node hnode
  have hne : node.1 ≠ waitingId := fun heq => hmem (List.mem_map.mpr ⟨node, hnode, heq⟩)
  simp [hne]

/-- With distinct nodes, appending to a node's list adds one entry in all. -/
theorem sum_length_appendWaitsFor : ∀ {adjacencyLists : AdjacencyLists α} {waitingId : α},
    (adjacencyLists.map Prod.fst).Nodup → waitingId ∈ adjacencyLists.map Prod.fst →
      ∀ blockingId, ((appendWaitsFor adjacencyLists waitingId blockingId).map (·.2.length)).sum =
        (adjacencyLists.map (·.2.length)).sum + 1
  | [], _, _, hmem, _ => by simp at hmem
  | node :: rest, waitingId, hnodup, hmem, blockingId => by
      rw [List.map_cons, List.nodup_cons] at hnodup
      rw [appendWaitsFor_cons]
      by_cases heq : node.1 = waitingId
      · rw [if_pos heq, appendWaitsFor_of_not_mem (heq ▸ hnodup.1)]
        simp only [List.map_cons, List.sum_cons, List.length_append, List.length_singleton]
        omega
      · have hrest : waitingId ∈ rest.map Prod.fst := by
          rw [List.map_cons, List.mem_cons] at hmem
          exact hmem.resolve_left (Ne.symm heq)
        rw [if_neg heq, List.map_cons, List.sum_cons,
          sum_length_appendWaitsFor hnodup.2 hrest blockingId]
        simp only [List.map_cons, List.sum_cons]
        omega

theorem sum_length_getOrCreateTransactionNode (adjacencyLists : AdjacencyLists α)
    (transactionId : α) :
    ((getOrCreateTransactionNode adjacencyLists transactionId).map (·.2.length)).sum =
      (adjacencyLists.map (·.2.length)).sum := by
  unfold getOrCreateTransactionNode
  split_ifs <;> simp

/-- The nodes of the adjacency lists are distinct, and their `waitsFor` lists hold one
entry per edge. -/
theorem buildAdjacencyListsForWaitGraph_total (edges : List (WaitEdge α)) :
    ((buildAdjacencyListsForWaitGraph edges).map Prod.fst).Nodup ∧
      ((buildAdjacencyListsForWaitGraph edges).map (·.2.length)).sum = edges.length := by
  suffices h : ∀ adjacencyLists : AdjacencyLists α, (adjacencyLists.map Prod.fst).Nodup →
      ((edges.foldl addWaitEdge adjacencyLists).map Prod.fst).Nodup ∧
        ((edges.foldl addWaitEdge adjacencyLists).map (·.2.length)).sum =
          (adjacencyLists.map (·.2.length)).sum + edges.length by
    unfold buildAdjacencyListsForWaitGraph
    simpa using h [] List.nodup_nil
  induction edges with
  | nil => simp
  | cons edge edges ih =>
      intro adjacencyLists hnodup
      have hnodup' := nodup_map_fst_getOrCreateTransactionNode
        (nodup_map_fst_getOrCreateTransactionNode hnodup edge.waitingId) edge.blockingId
      have hstep : ((addWaitEdge adjacencyLists edge).map Prod.fst).Nodup ∧
          ((addWaitEdge adjacencyLists edge).map (·.2.length)).sum =
            (adjacencyLists.map (·.2.length)).sum + 1 := by
        unfold addWaitEdge
        dsimp only
        rw [map_fst_appendWaitsFor, sum_length_appendWaitsFor hnodup'
          (mem_map_fst_addWaitEdge_getOrCreate adjacencyLists edge),
          sum_length_getOrCreateTransactionNode, sum_length_getOrCreateTransactionNode]
        exact ⟨hnodup', rfl⟩
      obtain ⟨hnodupAll, hsum⟩ := ih (addWaitEdge adjacencyLists edge) hstep.1
      rw [List.foldl_cons, hsum, hstep.2, List.length_cons]
      exact ⟨hnodupAll, by omega⟩

end AdjacencyLists

section Search

/-- `QueuedTransactionNode`: a node to visit and the stack depth to visit it at. -/
structure QueuedTransactionNode (α : Type) where
  transactionNode : α
  currentStackDepth : Nat
  deriving DecidableEq, Repr

/-- The state of `CheckDeadlockForTransactionNode`'s loop: the worklist, the nodes whose
`transactionVisited` flag is set, and `transactionNodeStack`, `none` where a slot was
never written. -/
structure DeadlockSearch (α : Type) where
  toBeVisitedNodes : List (QueuedTransactionNode α)
  visitedNodes : List α
  transactionNodeStack : Nat → Option α

/-- How `CheckDeadlockForTransactionNode` ends: with the deadlock path it builds, with no
deadlock, or at the failed `Assert` on the stack depth. -/
inductive DeadlockSearchResult (α : Type)
  | deadlockFound (deadlockPath : List (Option α))
  | noDeadlock
  | stackDepthExceeded
  deriving DecidableEq, Repr

/-- `PrependOutgoingNodesToQueue`: the nodes the given one waits for, each prepended in
turn at the next depth. -/
def prependOutgoingNodesToQueue (adjacencyLists : AdjacencyLists α) (transactionNode : α)
    (currentStackDepth : Nat) (toBeVisitedNodes : List (QueuedTransactionNode α)) :
    List (QueuedTransactionNode α) :=
  (waitsFor adjacencyLists transactionNode).foldl
    (fun queue waitForTransaction => ⟨waitForTransaction, currentStackDepth + 1⟩ :: queue)
    toBeVisitedNodes

/-- `BuildDeadlockPathList`: the stack below the depth of the node that closed the
cycle. -/
def buildDeadlockPathList (cycledTransactionNode : QueuedTransactionNode α)
    (transactionNodeStack : Nat → Option α) : List (Option α) :=
  (List.range cycledTransactionNode.currentStackDepth).map transactionNodeStack

/-- One round of `CheckDeadlockForTransactionNode`'s loop: take the first queued node;
the starting node closes a cycle, a visited node is skipped, and any other node is
marked visited, put on the stack at its depth, and has its waits-for nodes queued. -/
def deadlockSearchStep (adjacencyLists : AdjacencyLists α) (startingTransactionNode : α)
    (maxStackDepth : Nat) (search : DeadlockSearch α) :
    DeadlockSearchResult α ⊕ DeadlockSearch α :=
  match search.toBeVisitedNodes with
  | [] => .inl .noDeadlock
  | queuedTransactionNode :: toBeVisitedNodes =>
      let currentTransactionNode := queuedTransactionNode.transactionNode
      if currentTransactionNode = startingTransactionNode then
        .inl (.deadlockFound
          (buildDeadlockPathList queuedTransactionNode search.transactionNodeStack))
      else if currentTransactionNode ∈ search.visitedNodes then
        .inr { search with toBeVisitedNodes }
      else
        let currentStackDepth := queuedTransactionNode.currentStackDepth
        if currentStackDepth < maxStackDepth then
          .inr ⟨prependOutgoingNodesToQueue adjacencyLists currentTransactionNode
              currentStackDepth toBeVisitedNodes,
            currentTransactionNode :: search.visitedNodes,
            Function.update search.transactionNodeStack currentStackDepth
              (some currentTransactionNode)⟩
        else .inl .stackDepthExceeded

/-- The loop of `CheckDeadlockForTransactionNode`, on fuel. -/
def deadlockSearchLoop (adjacencyLists : AdjacencyLists α) (startingTransactionNode : α)
    (maxStackDepth : Nat) : Nat → DeadlockSearch α → Option (DeadlockSearchResult α)
  | 0, _ => none
  | fuel + 1, search =>
      match deadlockSearchStep adjacencyLists startingTransactionNode maxStackDepth search with
      | .inl result => some result
      | .inr next => deadlockSearchLoop adjacencyLists startingTransactionNode maxStackDepth fuel next

/-- Enough rounds for the loop: one per entry of a `waitsFor` list, and the last. -/
def deadlockSearchFuel (adjacencyLists : AdjacencyLists α) : Nat :=
  (adjacencyLists.map (·.2.length)).sum + 1

/-- `CheckDeadlockForTransactionNode`, with every visited flag cleared by
`ResetVisitedFields`. -/
def checkDeadlockForTransactionNode (adjacencyLists : AdjacencyLists α)
    (startingTransactionNode : α) (maxStackDepth : Nat) : Option (DeadlockSearchResult α) :=
  deadlockSearchLoop adjacencyLists startingTransactionNode maxStackDepth
    (deadlockSearchFuel adjacencyLists)
    ⟨prependOutgoingNodesToQueue adjacencyLists startingTransactionNode 0 [], [],
      Function.update (fun _ => none) 0 (some startingTransactionNode)⟩

theorem prependOutgoingNodesToQueue_eq (adjacencyLists : AdjacencyLists α) (transactionNode : α)
    (currentStackDepth : Nat) (toBeVisitedNodes : List (QueuedTransactionNode α)) :
    prependOutgoingNodesToQueue adjacencyLists transactionNode currentStackDepth
        toBeVisitedNodes =
      (waitsFor adjacencyLists transactionNode).reverse.map
        (⟨·, currentStackDepth + 1⟩) ++ toBeVisitedNodes := by
  unfold prependOutgoingNodesToQueue
  induction waitsFor adjacencyLists transactionNode generalizing toBeVisitedNodes with
  | nil => rfl
  | cons waitForTransaction rest ih => simp [ih]

theorem mem_prependOutgoingNodesToQueue {adjacencyLists : AdjacencyLists α}
    {transactionNode : α} {currentStackDepth : Nat}
    {toBeVisitedNodes : List (QueuedTransactionNode α)} {queued : QueuedTransactionNode α} :
    queued ∈ prependOutgoingNodesToQueue adjacencyLists transactionNode currentStackDepth
        toBeVisitedNodes ↔
      (queued.transactionNode ∈ waitsFor adjacencyLists transactionNode ∧
        queued.currentStackDepth = currentStackDepth + 1) ∨ queued ∈ toBeVisitedNodes := by
  obtain ⟨node, depth⟩ := queued
  rw [prependOutgoingNodesToQueue_eq]
  simp [eq_comm]

variable {adjacencyLists : AdjacencyLists α} {startingTransactionNode : α} {maxStackDepth : Nat}
  {search next : DeadlockSearch α} {result : DeadlockSearchResult α}

/-- What a round that goes on can do: skip a visited node, or expand an unvisited one
below the depth bound. -/
theorem deadlockSearchStep_eq_inr
    (h : deadlockSearchStep adjacencyLists startingTransactionNode maxStackDepth search =
      .inr next) :
    ∃ queued rest, search.toBeVisitedNodes = queued :: rest ∧
      queued.transactionNode ≠ startingTransactionNode ∧
      ((queued.transactionNode ∈ search.visitedNodes ∧ next = { search with toBeVisitedNodes := rest }) ∨
        (queued.transactionNode ∉ search.visitedNodes ∧ queued.currentStackDepth < maxStackDepth ∧
          next = ⟨prependOutgoingNodesToQueue adjacencyLists queued.transactionNode
              queued.currentStackDepth rest,
            queued.transactionNode :: search.visitedNodes,
            Function.update search.transactionNodeStack queued.currentStackDepth
              (some queued.transactionNode)⟩)) := by
  unfold deadlockSearchStep at h
  split at h
  · cases h
  · rename_i queued rest hqueue
    dsimp only at h
    split_ifs at h with hstart hvisited hdepth
    · cases h
      exact ⟨queued, rest, hqueue, hstart, .inl ⟨hvisited, rfl⟩⟩
    · cases h
      exact ⟨queued, rest, hqueue, hstart, .inr ⟨hvisited, hdepth, rfl⟩⟩

/-- What a round that ends can do: find the queue empty, close a cycle at the starting
node, or fail the depth `Assert`. -/
theorem deadlockSearchStep_eq_inl
    (h : deadlockSearchStep adjacencyLists startingTransactionNode maxStackDepth search =
      .inl result) :
    (search.toBeVisitedNodes = [] ∧ result = .noDeadlock) ∨
      (∃ queued rest, search.toBeVisitedNodes = queued :: rest ∧
        queued.transactionNode = startingTransactionNode ∧
        result = .deadlockFound (buildDeadlockPathList queued search.transactionNodeStack)) ∨
      (∃ queued rest, search.toBeVisitedNodes = queued :: rest ∧
        queued.transactionNode ≠ startingTransactionNode ∧
        queued.transactionNode ∉ search.visitedNodes ∧ maxStackDepth ≤ queued.currentStackDepth ∧
        result = .stackDepthExceeded) := by
  unfold deadlockSearchStep at h
  split at h
  · cases h
    exact .inl ⟨‹_›, rfl⟩
  · rename_i queued rest hqueue
    dsimp only at h
    split_ifs at h with hstart hvisited hdepth
    · cases h
      exact .inr (.inl ⟨queued, rest, hqueue, hstart, rfl⟩)
    · cases h
      exact .inr (.inr ⟨queued, rest, hqueue, hstart, hvisited, Nat.le_of_not_lt hdepth, rfl⟩)

end Search

section Invariant

/-- `waiting` waits for `blocking` in the adjacency lists. -/
def AdjacencyEdge (adjacencyLists : AdjacencyLists α) (waiting blocking : α) : Prop :=
  blocking ∈ waitsFor adjacencyLists waiting

/-- Below `depth` the search's stack holds distinct nodes from the starting node on,
each waiting for the next, all visited but the first; the last of them is `last`. -/
def StackPath (adjacencyLists : AdjacencyLists α) (startingTransactionNode : α)
    (search : DeadlockSearch α) (depth : Nat) (last : α) : Prop :=
  ∃ nodes : List α, (List.range depth).map search.transactionNodeStack = nodes.map some ∧
    nodes.head? = some startingTransactionNode ∧ nodes.getLast? = some last ∧
    nodes.IsChain (AdjacencyEdge adjacencyLists) ∧ nodes.Nodup ∧
    ∀ node ∈ nodes.tail, node ∈ search.visitedNodes

/-- The invariant of the search: the starting node is never visited, queued depths
never grow towards the queue's end, every queued node waits on the stack path below
its depth, and every successor of the starting node or of a visited node is visited
or queued. -/
structure SearchInvariant (adjacencyLists : AdjacencyLists α) (startingTransactionNode : α)
    (search : DeadlockSearch α) : Prop where
  start_not_visited : startingTransactionNode ∉ search.visitedNodes
  depths_antitone : search.toBeVisitedNodes.Pairwise
    fun a b => b.currentStackDepth ≤ a.currentStackDepth
  queued_path : ∀ queued ∈ search.toBeVisitedNodes, ∃ parent,
    StackPath adjacencyLists startingTransactionNode search queued.currentStackDepth parent ∧
      AdjacencyEdge adjacencyLists parent queued.transactionNode
  closed : ∀ node, (node = startingTransactionNode ∨ node ∈ search.visitedNodes) →
    ∀ blocking, AdjacencyEdge adjacencyLists node blocking →
      blocking ∈ search.visitedNodes ∨
        ∃ queued ∈ search.toBeVisitedNodes, queued.transactionNode = blocking

variable {adjacencyLists : AdjacencyLists α} {startingTransactionNode : α}
  {search next : DeadlockSearch α}

theorem StackPath.length_eq {depth : Nat} {last : α}
    (hpath : StackPath adjacencyLists startingTransactionNode search depth last) :
    ∃ nodes : List α, nodes.length = depth ∧ nodes.Nodup ∧ nodes.getLast? = some last ∧
      nodes.IsChain (AdjacencyEdge adjacencyLists) := by
  obtain ⟨nodes, hmap, -, hlast, hchain, hnodup, -⟩ := hpath
  refine ⟨nodes, ?_, hnodup, hlast, hchain⟩
  simpa using (congrArg List.length hmap).symm

/-- A stack path survives writes at or above its depth and more visited nodes. -/
theorem StackPath.mono {depth : Nat} {last : α}
    (hpath : StackPath adjacencyLists startingTransactionNode search depth last)
    (hstack : ∀ i < depth, next.transactionNodeStack i = search.transactionNodeStack i)
    (hvisited : ∀ node ∈ search.visitedNodes, node ∈ next.visitedNodes) :
    StackPath adjacencyLists startingTransactionNode next depth last := by
  obtain ⟨nodes, hmap, hhead, hlast, hchain, hnodup, htail⟩ := hpath
  refine ⟨nodes, ?_, hhead, hlast, hchain, hnodup, fun node hnode => hvisited node (htail node hnode)⟩
  rw [← hmap]
  apply List.map_congr_left
  intro i hi
  exact hstack i (List.mem_range.mp hi)

/-- Writing a new node at the depth of a stack path extends it by that node. -/
theorem StackPath.extend {depth : Nat} {parent blocking : α}
    (hpath : StackPath adjacencyLists startingTransactionNode search depth parent)
    (hedge : AdjacencyEdge adjacencyLists parent blocking)
    (hstart : blocking ≠ startingTransactionNode) (hvisited : blocking ∉ search.visitedNodes)
    (toBeVisitedNodes : List (QueuedTransactionNode α)) :
    StackPath adjacencyLists startingTransactionNode
      ⟨toBeVisitedNodes, blocking :: search.visitedNodes,
        Function.update search.transactionNodeStack depth (some blocking)⟩ (depth + 1) blocking := by
  obtain ⟨nodes, hmap, hhead, hlast, hchain, hnodup, htail⟩ := hpath
  have hne : nodes ≠ [] := by
    rintro rfl
    cases hhead
  -- the new node is neither the starting node nor a visited one, so not on the path
  have hfresh : blocking ∉ nodes := by
    obtain ⟨first, rest, rfl⟩ := List.exists_cons_of_ne_nil hne
    rintro (hfirst | ⟨_, hrest⟩)
    · exact hstart (Option.some.inj hhead)
    · exact hvisited (htail blocking hrest)
  refine ⟨nodes ++ [blocking], ?_, ?_, ?_, ?_, ?_, ?_⟩
  · have hbelow : (List.range depth).map (Function.update search.transactionNodeStack depth
        (some blocking)) = (List.range depth).map search.transactionNodeStack := by
      apply List.map_congr_left
      intro i hi
      exact Function.update_of_ne (Nat.ne_of_lt (List.mem_range.mp hi)) _ _
    simp [List.range_succ, hbelow, hmap]
  · rw [List.head?_append_of_ne_nil nodes hne]
    exact hhead
  · simp
  · apply List.IsChain.append hchain (List.isChain_singleton blocking)
    intro x hx y hy
    rw [hlast, Option.mem_some_iff] at hx
    rw [List.head?_singleton, Option.mem_some_iff] at hy
    rw [← hx, ← hy]
    exact hedge
  · rw [List.nodup_append]
    refine ⟨hnodup, List.nodup_singleton blocking, ?_⟩
    intro x hx y hy
    rw [List.mem_singleton] at hy
    rintro rfl
    exact hfresh (hy ▸ hx)
  · intro node hnode
    rw [List.tail_append_of_ne_nil hne, List.mem_append, List.mem_singleton] at hnode
    rcases hnode with hnode | rfl
    · exact List.mem_cons_of_mem blocking (htail node hnode)
    · exact List.mem_cons_self

/-- The search starts with the invariant: only the starting node is on the stack, and
the nodes it waits for are queued at depth one. -/
theorem SearchInvariant.initial (adjacencyLists : AdjacencyLists α) (startingTransactionNode : α) :
    SearchInvariant adjacencyLists startingTransactionNode
      ⟨prependOutgoingNodesToQueue adjacencyLists startingTransactionNode 0 [], [],
        Function.update (fun _ => none) 0 (some startingTransactionNode)⟩ := by
  constructor
  · exact List.not_mem_nil
  · rw [prependOutgoingNodesToQueue_eq, List.append_nil, List.pairwise_map]
    exact List.pairwise_of_forall_sublist fun _ => Nat.le_refl _
  · intro queued hqueued
    rcases mem_prependOutgoingNodesToQueue.mp hqueued with ⟨hwaits, hdepth⟩ | hnil
    · refine ⟨startingTransactionNode, ⟨[startingTransactionNode], ?_, rfl, rfl,
        List.isChain_singleton _, List.nodup_singleton _, by simp⟩, hwaits⟩
      rw [hdepth]
      simp
    · exact absurd hnil List.not_mem_nil
  · rintro node (rfl | hvisited) blocking hedge
    · exact .inr ⟨⟨blocking, 1⟩, mem_prependOutgoingNodesToQueue.mpr (.inl ⟨hedge, rfl⟩), rfl⟩
    · exact absurd hvisited List.not_mem_nil

section Round

variable {queued : QueuedTransactionNode α} {rest : List (QueuedTransactionNode α)}

/-- A round that skips a visited node keeps the invariant. -/
theorem SearchInvariant.skip (hinv : SearchInvariant adjacencyLists startingTransactionNode search)
    (hqueue : search.toBeVisitedNodes = queued :: rest)
    (hvisited : queued.transactionNode ∈ search.visitedNodes) :
    SearchInvariant adjacencyLists startingTransactionNode
      { search with toBeVisitedNodes := rest } := by
  have hmem : ∀ q ∈ rest, q ∈ search.toBeVisitedNodes := by
    intro q hq
    rw [hqueue]
    exact List.mem_cons_of_mem queued hq
  have hpairwise := hinv.depths_antitone
  rw [hqueue] at hpairwise
  constructor
  · exact hinv.start_not_visited
  · exact hpairwise.of_cons
  · intro q hq
    exact hinv.queued_path q (hmem q hq)
  · intro node hnode blocking hedge
    rcases hinv.closed node hnode blocking hedge with hdone | ⟨q, hq, rfl⟩
    · exact .inl hdone
    · rw [hqueue, List.mem_cons] at hq
      rcases hq with rfl | hq
      · exact .inl hvisited
      · exact .inr ⟨q, hq, rfl⟩

/-- A round that expands an unvisited node other than the starting one keeps the
invariant. The nodes it waits for are queued one deeper than it, where the stack path
through it ends; the nodes still queued lie no deeper than it, so their paths are below
the slot it is written to. -/
theorem SearchInvariant.expand (hinv : SearchInvariant adjacencyLists startingTransactionNode search)
    (hqueue : search.toBeVisitedNodes = queued :: rest)
    (hstart : queued.transactionNode ≠ startingTransactionNode)
    (hvisited : queued.transactionNode ∉ search.visitedNodes) :
    SearchInvariant adjacencyLists startingTransactionNode
      ⟨prependOutgoingNodesToQueue adjacencyLists queued.transactionNode
          queued.currentStackDepth rest,
        queued.transactionNode :: search.visitedNodes,
        Function.update search.transactionNodeStack queued.currentStackDepth
          (some queued.transactionNode)⟩ := by
  have hpairwise := hinv.depths_antitone
  rw [hqueue, List.pairwise_cons] at hpairwise
  obtain ⟨hshallower, hrestAntitone⟩ := hpairwise
  obtain ⟨parent, hpath, hedge⟩ := hinv.queued_path queued (hqueue ▸ List.mem_cons_self)
  constructor
  · rw [List.mem_cons, not_or]
    exact ⟨Ne.symm hstart, hinv.start_not_visited⟩
  · rw [prependOutgoingNodesToQueue_eq, List.pairwise_append, List.pairwise_map]
    refine ⟨List.pairwise_of_forall_sublist fun _ => Nat.le_refl _, hrestAntitone, ?_⟩
    intro a ha b hb
    obtain ⟨_, _, rfl⟩ := List.mem_map.mp ha
    have := hshallower b hb
    dsimp only
    omega
  · intro q hq
    rcases mem_prependOutgoingNodesToQueue.mp hq with ⟨hwaits, hdepth⟩ | hrest
    · refine ⟨queued.transactionNode, ?_, hwaits⟩
      rw [hdepth]
      exact hpath.extend hedge hstart hvisited _
    · obtain ⟨parent', hpath', hedge'⟩ :=
        hinv.queued_path q (hqueue ▸ List.mem_cons_of_mem queued hrest)
      refine ⟨parent', hpath'.mono ?_ ?_, hedge'⟩
      · intro i hi
        have := hshallower q hrest
        exact Function.update_of_ne (by omega) _ _
      · intro node hnode
        exact List.mem_cons_of_mem _ hnode
  · intro node hnode blocking hblocking
    by_cases hexpanded : node = queued.transactionNode
    · subst hexpanded
      exact .inr ⟨⟨blocking, queued.currentStackDepth + 1⟩,
        mem_prependOutgoingNodesToQueue.mpr (.inl ⟨hblocking, rfl⟩), rfl⟩
    · have hbefore : node = startingTransactionNode ∨ node ∈ search.visitedNodes := by
        rcases hnode with hnode | hnode
        · exact .inl hnode
        · exact .inr ((List.mem_cons.mp hnode).resolve_left hexpanded)
      rcases hinv.closed node hbefore blocking hblocking with hdone | ⟨q, hq, rfl⟩
      · exact .inl (List.mem_cons_of_mem _ hdone)
      · rw [hqueue, List.mem_cons] at hq
        rcases hq with rfl | hq
        · exact .inl List.mem_cons_self
        · exact .inr ⟨q, mem_prependOutgoingNodesToQueue.mpr (.inr hq), rfl⟩

end Round

variable {maxStackDepth : Nat}

/-- Every round that goes on keeps the invariant. -/
theorem SearchInvariant.step (hinv : SearchInvariant adjacencyLists startingTransactionNode search)
    (hstep : deadlockSearchStep adjacencyLists startingTransactionNode maxStackDepth search =
      .inr next) :
    SearchInvariant adjacencyLists startingTransactionNode next := by
  obtain ⟨queued, rest, hqueue, hstart, ⟨hvisited, rfl⟩ | ⟨hvisited, -, rfl⟩⟩ :=
    deadlockSearchStep_eq_inr hstep
  · exact hinv.skip hqueue hvisited
  · exact hinv.expand hqueue hstart hvisited

end Invariant

section Result

variable {adjacencyLists : AdjacencyLists α} {startingTransactionNode : α} {maxStackDepth : Nat}
  {search next : DeadlockSearch α} {result : DeadlockSearchResult α}

/-- What a result says about the adjacency lists: a deadlock path is a path from the
starting node to a node waiting for it, no deadlock means that the starting node lies on
no cycle, and the depth `Assert` does not fail. -/
def SearchResultCorrect (adjacencyLists : AdjacencyLists α) (startingTransactionNode : α) :
    DeadlockSearchResult α → Prop
  | .deadlockFound deadlockPath => ∃ nodes : List α, deadlockPath = nodes.map some ∧
      nodes.head? = some startingTransactionNode ∧ nodes.IsChain (AdjacencyEdge adjacencyLists) ∧
      ∃ last, nodes.getLast? = some last ∧ AdjacencyEdge adjacencyLists last startingTransactionNode
  | .noDeadlock =>
      ¬ Relation.TransGen (AdjacencyEdge adjacencyLists) startingTransactionNode
        startingTransactionNode
  | .stackDepthExceeded => False

/-- Once the queue is empty, every node reachable from the starting node is visited. -/
theorem SearchInvariant.mem_visited_of_transGen
    (hinv : SearchInvariant adjacencyLists startingTransactionNode search)
    (hempty : search.toBeVisitedNodes = []) {node : α}
    (hreach : Relation.TransGen (AdjacencyEdge adjacencyLists) startingTransactionNode node) :
    node ∈ search.visitedNodes := by
  have hclosed : ∀ done, (done = startingTransactionNode ∨ done ∈ search.visitedNodes) →
      ∀ blocking, AdjacencyEdge adjacencyLists done blocking → blocking ∈ search.visitedNodes := by
    intro done hdone blocking hedge
    rcases hinv.closed done hdone blocking hedge with hvisited | ⟨q, hq, -⟩
    · exact hvisited
    · rw [hempty] at hq
      exact absurd hq List.not_mem_nil
  induction hreach with
  | single hedge => exact hclosed _ (.inl rfl) _ hedge
  | tail _ hedge ih => exact hclosed _ (.inr ih) _ hedge

/-- A round that ends gives a correct result when every list of distinct nodes that all
wait for some node is shorter than the depth bound. -/
theorem SearchInvariant.finish (hinv : SearchInvariant adjacencyLists startingTransactionNode search)
    (hbound : ∀ nodes : List α, nodes.Nodup →
      (∀ node ∈ nodes, ∃ next, AdjacencyEdge adjacencyLists node next) →
        nodes.length < maxStackDepth)
    (hstep : deadlockSearchStep adjacencyLists startingTransactionNode maxStackDepth search =
      .inl result) :
    SearchResultCorrect adjacencyLists startingTransactionNode result := by
  rcases deadlockSearchStep_eq_inl hstep with
    ⟨hempty, rfl⟩ | ⟨queued, rest, hqueue, hstart, rfl⟩ | ⟨queued, rest, hqueue, -, -, hdepth, rfl⟩
  · intro hcycle
    exact hinv.start_not_visited (hinv.mem_visited_of_transGen hempty hcycle)
  · -- the stack below the starting node's depth is the path that led back to it
    obtain ⟨parent, ⟨nodes, hmap, hhead, hlast, hchain, -, -⟩, hedge⟩ :=
      hinv.queued_path queued (hqueue ▸ List.mem_cons_self)
    exact ⟨nodes, hmap, hhead, hchain, parent, hlast, hstart ▸ hedge⟩
  · -- the path below the node's depth is as long as that depth, and within the bound
    obtain ⟨parent, hpath, hedge⟩ := hinv.queued_path queued (hqueue ▸ List.mem_cons_self)
    obtain ⟨nodes, hlength, hnodup, hlast, hchain⟩ := hpath.length_eq
    have := hbound nodes hnodup (ChainPath.exists_succ_of_mem hchain hlast ⟨_, hedge⟩)
    omega

end Result

section Fuel

/-- The `waitsFor` entries of the nodes that are not `done`. -/
def unvisitedWaits (adjacencyLists : AdjacencyLists α) (done : α → Prop) [DecidablePred done] :
    Nat :=
  (adjacencyLists.map fun entry => if done entry.1 then 0 else entry.2.length).sum

/-- Marking one more node done drops at least its `waitsFor` entries from the count. -/
theorem unvisitedWaits_add_le (done done' : α → Prop) [DecidablePred done]
    [DecidablePred done'] (node : α) (hnode : ¬ done node)
    (hdone : ∀ other, done' other ↔ other = node ∨ done other) :
    ∀ adjacencyLists : AdjacencyLists α,
      unvisitedWaits adjacencyLists done' + (waitsFor adjacencyLists node).length ≤
        unvisitedWaits adjacencyLists done
  | [] => by simp [unvisitedWaits, waitsFor]
  | entry :: rest => by
      have ih := unvisitedWaits_add_le done done' node hnode hdone rest
      simp only [unvisitedWaits, List.map_cons, List.sum_cons] at ih ⊢
      rw [waitsFor_cons]
      by_cases hkey : entry.1 = node
      · -- the node's own entry leaves the count, and its list is the node's waitsFor
        have hentry : ¬ done entry.1 := by
          rw [hkey]
          exact hnode
        rw [if_pos ((hdone _).mpr (.inl hkey)), if_neg hentry, if_pos hkey]
        omega
      · rw [if_neg hkey]
        by_cases hentry : done entry.1
        · rw [if_pos ((hdone _).mpr (.inr hentry)), if_pos hentry]
          omega
        · rw [if_neg (fun h => ((hdone _).mp h).elim hkey hentry), if_neg hentry]
          omega

/-- What the search may still take off its queue: the queued entries, and the
`waitsFor` entries of the nodes other than the starting one that are not visited. -/
def pendingEntries (adjacencyLists : AdjacencyLists α) (startingTransactionNode : α)
    (search : DeadlockSearch α) : Nat :=
  search.toBeVisitedNodes.length +
    unvisitedWaits adjacencyLists
      fun node => node = startingTransactionNode ∨ node ∈ search.visitedNodes

variable {adjacencyLists : AdjacencyLists α} {startingTransactionNode : α} {maxStackDepth : Nat}
  {search next : DeadlockSearch α}

/-- Every round that goes on takes one pending entry: a skip drops a queued entry, and
an expansion queues no more entries than its node drops from the count. -/
theorem pendingEntries_step
    (hstep : deadlockSearchStep adjacencyLists startingTransactionNode maxStackDepth search =
      .inr next) :
    pendingEntries adjacencyLists startingTransactionNode next <
      pendingEntries adjacencyLists startingTransactionNode search := by
  obtain ⟨queued, rest, hqueue, hstart, ⟨hvisited, rfl⟩ | ⟨hvisited, -, rfl⟩⟩ :=
    deadlockSearchStep_eq_inr hstep
  · simp only [pendingEntries, hqueue, List.length_cons]
    omega
  · have hdrop := unvisitedWaits_add_le
      (fun node => node = startingTransactionNode ∨ node ∈ search.visitedNodes)
      (fun node => node = startingTransactionNode ∨
        node ∈ queued.transactionNode :: search.visitedNodes)
      queued.transactionNode (not_or.mpr ⟨hstart, hvisited⟩) (by simp [or_left_comm])
      adjacencyLists
    simp only [pendingEntries, hqueue, prependOutgoingNodesToQueue_eq, List.length_append,
      List.length_map, List.length_reverse, List.length_cons]
    omega

theorem pendingEntries_initial_lt (adjacencyLists : AdjacencyLists α)
    (startingTransactionNode : α) :
    pendingEntries adjacencyLists startingTransactionNode
        ⟨prependOutgoingNodesToQueue adjacencyLists startingTransactionNode 0 [], [],
          Function.update (fun _ => none) 0 (some startingTransactionNode)⟩ <
      deadlockSearchFuel adjacencyLists := by
  have hdrop := unvisitedWaits_add_le (fun _ => False)
    (fun node => node = startingTransactionNode ∨ node ∈ ([] : List α))
    startingTransactionNode not_false
    (by simp) adjacencyLists
  have hall : unvisitedWaits adjacencyLists (fun _ => False) =
      (adjacencyLists.map (·.2.length)).sum := by
    simp [unvisitedWaits]
  simp only [pendingEntries, deadlockSearchFuel, prependOutgoingNodesToQueue_eq,
    List.length_append, List.length_map, List.length_reverse, List.length_nil]
  omega

/-- From a state with the invariant and fewer pending entries than rounds, the loop
returns a correct result. -/
theorem deadlockSearchLoop_correct
    (hbound : ∀ nodes : List α, nodes.Nodup →
      (∀ node ∈ nodes, ∃ next, AdjacencyEdge adjacencyLists node next) →
        nodes.length < maxStackDepth) :
    ∀ (fuel : Nat) (search : DeadlockSearch α),
      SearchInvariant adjacencyLists startingTransactionNode search →
      pendingEntries adjacencyLists startingTransactionNode search < fuel →
      ∃ result, deadlockSearchLoop adjacencyLists startingTransactionNode maxStackDepth fuel
          search = some result ∧ SearchResultCorrect adjacencyLists startingTransactionNode result
  | 0, _, _, hfuel => absurd hfuel (Nat.not_lt_zero _)
  | fuel + 1, search, hinv, hfuel => by
      simp only [deadlockSearchLoop]
      cases hstep : deadlockSearchStep adjacencyLists startingTransactionNode maxStackDepth
          search with
      | inl result => exact ⟨result, rfl, hinv.finish hbound hstep⟩
      | inr next =>
          have := pendingEntries_step hstep
          exact deadlockSearchLoop_correct hbound fuel next (hinv.step hstep) (by omega)

end Fuel

theorem adjacencyEdge_buildAdjacencyListsForWaitGraph (edges : List (WaitEdge α)) :
    AdjacencyEdge (buildAdjacencyListsForWaitGraph edges) = WaitsForEdge edges := by
  funext waiting blocking
  exact propext mem_waitsFor_buildAdjacencyListsForWaitGraph

/-- A path of distinct nodes of the wait graph that all wait for some node has fewer
nodes than the depth bound `edgeCount + 1`: each of them is the waiting end of an edge. -/
theorem length_lt_of_waiting (edges : List (WaitEdge α)) (nodes : List α) (hnodup : nodes.Nodup)
    (hwaiting : ∀ node ∈ nodes,
      ∃ next, AdjacencyEdge (buildAdjacencyListsForWaitGraph edges) node next) :
    nodes.length < edges.length + 1 := by
  have hsources : ∀ node next, AdjacencyEdge (buildAdjacencyListsForWaitGraph edges) node next →
      node ∈ edges.map WaitEdge.waitingId := by
    intro node next hedge
    rw [adjacencyEdge_buildAdjacencyListsForWaitGraph] at hedge
    exact List.mem_map.mpr ⟨_, hedge, rfl⟩
  have hle := ChainPath.length_le_of_nodup hnodup hwaiting hsources
  rw [List.length_map] at hle
  omega

/-- `CheckDeadlockForTransactionNode` on the adjacency lists of a wait graph, with the
depth bound `edgeCount + 1` of `CheckForDistributedDeadlocks`: it returns without failing
its depth `Assert`, finds a deadlock exactly when the starting node lies on a cycle of
the graph, and then the deadlock path starts at that node, follows edges, and ends at a
node waiting for it. -/
theorem checkDeadlockForTransactionNode_spec (edges : List (WaitEdge α))
    (startingTransactionNode : α) :
    ∃ result, checkDeadlockForTransactionNode (buildAdjacencyListsForWaitGraph edges)
        startingTransactionNode (edges.length + 1) = some result ∧
      result ≠ .stackDepthExceeded ∧
      ((∃ deadlockPath, result = .deadlockFound deadlockPath) ↔
        Relation.TransGen (WaitsForEdge edges) startingTransactionNode startingTransactionNode) ∧
      ∀ deadlockPath, result = .deadlockFound deadlockPath →
        ∃ nodes : List α, deadlockPath = nodes.map some ∧
          nodes.head? = some startingTransactionNode ∧ nodes.IsChain (WaitsForEdge edges) ∧
          ∃ last, nodes.getLast? = some last ∧ WaitsForEdge edges last startingTransactionNode := by
  obtain ⟨result, hresult, hcorrect⟩ := deadlockSearchLoop_correct
    (length_lt_of_waiting edges) _ _
    (SearchInvariant.initial (buildAdjacencyListsForWaitGraph edges) startingTransactionNode)
    (pendingEntries_initial_lt _ _)
  refine ⟨result, hresult, ?_⟩
  cases result with
  | deadlockFound deadlockPath =>
      simp only [SearchResultCorrect, adjacencyEdge_buildAdjacencyListsForWaitGraph] at hcorrect
      obtain ⟨nodes, hmap, hhead, hchain, last, hlast, hback⟩ := hcorrect
      refine ⟨nofun, ⟨fun _ => ?_, fun _ => ⟨deadlockPath, rfl⟩⟩, ?_⟩
      · exact ChainPath.transGen_of_cycle hchain hhead hlast hback
      · rintro _ ⟨⟩
        exact ⟨nodes, hmap, hhead, hchain, last, hlast, hback⟩
  | noDeadlock =>
      simp only [SearchResultCorrect, adjacencyEdge_buildAdjacencyListsForWaitGraph] at hcorrect
      refine ⟨nofun, ⟨?_, fun hcycle => absurd hcycle hcorrect⟩, ?_⟩
      · rintro ⟨_, ⟨⟩⟩
      · rintro _ ⟨⟩
  | stackDepthExceeded => exact hcorrect.elim

example : checkDeadlockForTransactionNode
    (buildAdjacencyListsForWaitGraph [⟨1, 2⟩, ⟨2, 3⟩, ⟨3, 1⟩, ⟨2, 4⟩]) 1 5 =
      some (.deadlockFound [some 1, some 2, some 3]) := by decide

example : checkDeadlockForTransactionNode
    (buildAdjacencyListsForWaitGraph [⟨1, 2⟩, ⟨2, 3⟩, ⟨3, 2⟩]) 1 4 = some .noDeadlock := by
  decide

end Citus.Transaction

