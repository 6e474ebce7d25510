/-
Circular doubly linked lists whose head is a link of its own, as in the kernel's `list.h`.

The links are two maps over the head and the nodes.  They represent a list of nodes when a
walk along `next` from the head meets those nodes in that order and returns to the head, with
`prev` going the other way.
-/
import Mathlib.Logic.Function.Basic
import Mathlib.Data.List.Basic
import Mathlib.Data.List.Nodup

set_option autoImplicit false

namespace CircularList

/-- A pointer to a node, or `none` for the head. -/
abbrev Link (Node : Type) := Option Node

structure Links (Node : Type) where
  next : Link Node → Link Node
  prev : Link Node → Link Node

variable {Node : Type}

def init : Links Node := { next := id, prev := id }

/-- The nodes are chained up from a link and close at the head. -/
def Chain (links : Links Node) : Link Node → List Node → Prop
  | start, [] => links.next start = none ∧ links.prev none = start
  | start, node :: rest =>
      links.next start = some node ∧ links.prev (some node) = start ∧
        Chain links (some node) rest

structure Represents (links : Links Node) (nodes : List Node) : Prop where
  chain : Chain links none nodes
  distinct : nodes.Nodup

theorem represents_init : Represents (init : Links Node) [] :=
  ⟨⟨rfl, rfl⟩, List.nodup_nil⟩

theorem Represents.next_head {links : Links Node} {nodes : List Node}
    (represents : Represents links nodes) : links.next none = nodes.head? := by
  cases nodes with
  | nil => exact represents.chain.1
  | cons first rest => exact represents.chain.1

theorem Represents.next_first {links : Links Node} {first : Node} {rest : List Node}
    (represents : Represents links (first :: rest)) :
    links.next (some first) = rest.head? := by
  have chain := represents.chain.2.2
  cases rest with
  | nil => exact chain.1
  | cons second others => exact chain.1

theorem Chain.last {links : Links Node} {start : Link Node} {nodes : List Node}
    (chain : Chain links start nodes) :
    (nodes = [] ∧ links.prev none = start) ∨ ∃ node ∈ nodes, links.prev none = some node := by
  induction nodes generalizing start with
  | nil => exact Or.inl ⟨rfl, chain.2⟩
  | cons first rest ih =>
      right
      rcases ih chain.2.2 with ⟨_, back⟩ | ⟨node, member, back⟩
      · exact ⟨first, List.mem_cons_self, back⟩
      · exact ⟨node, List.mem_cons_of_mem first member, back⟩

/-- A chain reads `next` at its start and its nodes, and `prev` at its nodes and the head. -/
theorem Chain.congr {links other : Links Node} {start : Link Node} {nodes : List Node}
    (chain : Chain links start nodes) (startSame : other.next start = links.next start)
    (nextSame : ∀ node ∈ nodes, other.next (some node) = links.next (some node))
    (prevSame : ∀ node ∈ nodes, other.prev (some node) = links.prev (some node))
    (backSame : other.prev none = links.prev none) : Chain other start nodes := by
  induction nodes generalizing start with
  | nil => exact ⟨startSame.trans chain.1, backSame.trans chain.2⟩
  | cons first rest ih =>
      obtain ⟨forward, back, tail⟩ := chain
      refine ⟨startSame.trans forward, (prevSame first List.mem_cons_self).trans back, ?_⟩
      exact ih tail (nextSame first List.mem_cons_self)
        (fun node member => nextSame node (List.mem_cons_of_mem first member))
        (fun node member => prevSame node (List.mem_cons_of_mem first member))

variable [DecidableEq Node]

def addTail (links : Links Node) (new : Node) : Links Node :=
  let last := links.prev none
  { prev := Function.update (Function.update links.prev none (some new)) (some new) last
    next := Function.update (Function.update links.next (some new) none) last (some new) }

def delInit (links : Links Node) (node : Node) : Links Node :=
  let next := links.next (some node)
  let prev := links.prev (some node)
  { prev := Function.update (Function.update links.prev next prev) (some node) (some node)
    next := Function.update (Function.update links.next prev next) (some node) (some node) }

theorem Chain.addTail {links : Links Node} {start : Link Node} {nodes : List Node} {new : Node}
    (chain : Chain links start nodes) (outside : start ≠ some new) (fresh : new ∉ nodes)
    (apart : ∀ node ∈ nodes, start ≠ some node) (distinct : nodes.Nodup) :
    Chain (CircularList.addTail links new) start (nodes ++ [new]) := by
  induction nodes generalizing start with
  | nil =>
      obtain ⟨_, back⟩ := chain
      refine ⟨?_, ?_, ?_, ?_⟩
      · simp only [CircularList.addTail, back, Function.update_self]
      · simp only [CircularList.addTail, back, Function.update_self]
      · simp only [CircularList.addTail, back]
        rw [Function.update_of_ne (Ne.symm outside), Function.update_self]
      · simp only [CircularList.addTail]
        rw [Function.update_of_ne (Option.some_ne_none new).symm, Function.update_self]
  | cons first rest ih =>
      obtain ⟨forward, back, tail⟩ := chain
      have unequal : some first ≠ some new := by
        intro same
        cases same
        exact fresh List.mem_cons_self
      have elsewhere : start ≠ links.prev none := by
        rcases tail.last with ⟨_, last⟩ | ⟨node, member, last⟩
        · rw [last]
          exact apart first List.mem_cons_self
        · rw [last]
          exact apart node (List.mem_cons_of_mem first member)
      obtain ⟨notIn, distinctRest⟩ := List.nodup_cons.mp distinct
      refine ⟨?_, ?_, ?_⟩
      · simp only [CircularList.addTail]
        rw [Function.update_of_ne elsewhere, Function.update_of_ne outside, forward]
      · simp only [CircularList.addTail]
        rw [Function.update_of_ne unequal, Function.update_of_ne (Option.some_ne_none first),
          back]
      · refine ih tail unequal (fun member => fresh (List.mem_cons_of_mem first member)) ?_
          distinctRest
        intro node member same
        cases same
        exact notIn member

theorem Represents.addTail {links : Links Node} {nodes : List Node} {new : Node}
    (represents : Represents links nodes) (fresh : new ∉ nodes) :
    Represents (CircularList.addTail links new) (nodes ++ [new]) where
  chain := represents.chain.addTail (Option.some_ne_none new).symm fresh
    (fun node _ => (Option.some_ne_none node).symm) represents.distinct
  distinct := by
    rw [List.nodup_append]
    refine ⟨represents.distinct, List.nodup_singleton new, ?_⟩
    intro node member other isNew same
    rw [List.mem_singleton.mp isNew] at same
    exact fresh (same ▸ member)

theorem Represents.delInit_first {links : Links Node} {first : Node} {rest : List Node}
    (represents : Represents links (first :: rest)) :
    Represents (delInit links first) rest := by
  obtain ⟨notIn, distinct⟩ := List.nodup_cons.mp represents.distinct
  obtain ⟨_, back, tail⟩ := represents.chain
  refine ⟨?_, distinct⟩
  cases rest with
  | nil =>
      obtain ⟨forward, _⟩ := tail
      constructor
      · simp only [delInit, back, forward]
        rw [Function.update_of_ne (Option.some_ne_none first).symm, Function.update_self]
      · simp only [delInit, back, forward]
        rw [Function.update_of_ne (Option.some_ne_none first).symm, Function.update_self]
  | cons second others =>
      obtain ⟨forward, _, tail⟩ := tail
      have different {node : Node} (member : node ∈ second :: others) :
          some node ≠ some first := by
        intro same
        cases same
        exact notIn member
      obtain ⟨secondOut, _⟩ := List.nodup_cons.mp distinct
      refine ⟨?_, ?_, ?_⟩
      · simp only [delInit, back, forward]
        rw [Function.update_of_ne (Option.some_ne_none first).symm, Function.update_self]
      · simp only [delInit, back, forward]
        rw [Function.update_of_ne (different List.mem_cons_self), Function.update_self]
      · apply tail.congr
        · simp only [delInit, back, forward]
          rw [Function.update_of_ne (different List.mem_cons_self),
            Function.update_of_ne (Option.some_ne_none second)]
        · intro node member
          simp only [delInit, back, forward]
          rw [Function.update_of_ne (different (List.mem_cons_of_mem second member)),
            Function.update_of_ne (Option.some_ne_none node)]
        · intro node member
          have notSecond : some node ≠ some second := by
            intro same
            cases same
            exact secondOut member
          simp only [delInit, back, forward]
          rw [Function.update_of_ne (different (List.mem_cons_of_mem second member)),
            Function.update_of_ne notSecond]
        · simp only [delInit, back, forward]
          rw [Function.update_of_ne (Option.some_ne_none first).symm,
            Function.update_of_ne (Option.some_ne_none second).symm]

end CircularList
