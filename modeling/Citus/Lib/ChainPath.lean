import Mathlib

/-!
# Paths of a relation as chains

A list of nodes each related to the next is a path of the relation. A path from `a`
to `b` relates them by the reflexive transitive closure, and with a step back from
`b` to `a` it is a cycle through `a` (`transGen_of_cycle`). When the last node has a
successor so has every node of the path (`exists_succ_of_mem`), so a path of distinct
nodes is no longer than any list holding every node with a successor
(`length_le_of_nodup`).
-/

namespace ChainPath

variable {α : Type} {R : α → α → Prop}

theorem reflTransGen_of_isChain {nodes : List α} {first last : α}
    (hchain : nodes.IsChain R) (hhead : nodes.head? = some first)
    (hlast : nodes.getLast? = some last) : Relation.ReflTransGen R first last := by
  obtain ⟨rest, rfl⟩ : ∃ rest, nodes = first :: rest := by
    cases nodes with
    | nil => cases hhead
    | cons node rest =>
        rw [List.head?_cons, Option.some.injEq] at hhead
        exact ⟨rest, by rw [hhead]⟩
  apply List.relationReflTransGen_of_exists_isChain_cons rest hchain
  rw [List.getLast?_eq_some_getLast (List.cons_ne_nil first rest), Option.some.injEq] at hlast
  exact hlast

/-- A path from `first` to a node related back to `first` is a cycle through it. -/
theorem transGen_of_cycle {nodes : List α} {first last : α}
    (hchain : nodes.IsChain R) (hhead : nodes.head? = some first)
    (hlast : nodes.getLast? = some last) (hback : R last first) :
    Relation.TransGen R first first :=
  Relation.TransGen.tail' (reflTransGen_of_isChain hchain hhead hlast) hback

/-- Every node of a path whose last node has a successor has a successor. -/
theorem exists_succ_of_mem : ∀ {nodes : List α} {last : α}, nodes.IsChain R →
    nodes.getLast? = some last → (∃ next, R last next) → ∀ node ∈ nodes, ∃ next, R node next
  | [], _, _, _, _, _, hnode => absurd hnode List.not_mem_nil
  | [single], _, _, hlast, hsucc, _, hnode => by
      rw [List.getLast?_singleton, Option.some.injEq] at hlast
      rw [List.mem_singleton.mp hnode, hlast]
      exact hsucc
  | first :: second :: rest, _, hchain, hlast, hsucc, node, hnode => by
      rw [List.isChain_cons_cons] at hchain
      rcases List.mem_cons.mp hnode with rfl | hrest
      · exact ⟨second, hchain.1⟩
      · rw [List.getLast?_cons_cons] at hlast
        exact exists_succ_of_mem hchain.2 hlast hsucc node hrest

/-- Distinct nodes that all have a successor are no more than the list of sources. -/
theorem length_le_of_nodup {nodes sources : List α} (hnodup : nodes.Nodup)
    (hsucc : ∀ node ∈ nodes, ∃ next, R node next)
    (hsources : ∀ node next, R node next → node ∈ sources) :
    nodes.length ≤ sources.length := by
  apply List.Subperm.length_le
  apply hnodup.subperm
  intro node hnode
  obtain ⟨next, hnext⟩ := hsucc node hnode
  exact hsources node next hnext

end ChainPath
