import Mathlib.Data.List.Sort
import Agenterm.Lib.Walks

/-!
# The inventory of processes

What the platform lists of the machine's processes, and `process.tree` of the door to the host
(`agenterm-qjswasm`, `tool.rs`): the processes that descend from one of them.
-/

namespace Agenterm

/-- A row of the inventory. -/
structure ProcessRow where
  id : Nat
  parentId : Nat
  executableName : String
deriving DecidableEq

/-- `process.tree`: the root and what descends from it, by id. `none` does not occur
(`processTree_isSome`). -/
def processTree (processes : List ProcessRow) (root : Nat) : Option (List ProcessRow) :=
  (Lib.grow ProcessRow.parentId ProcessRow.id processes (processes.length + 1) {root}).map
    fun owned =>
      (processes.filter fun process => process.id ∈ owned).insertionSort fun a b => a.id ≤ b.id

/-- `child` is the id of a process whose parent is `parent`. -/
def ParentOf (rows : List ProcessRow) (parent child : Nat) : Prop :=
  ∃ row ∈ rows, row.parentId = parent ∧ row.id = child

theorem processTree_isSome (processes : List ProcessRow) (root : Nat) :
    (processTree processes root).isSome := by
  obtain ⟨owned, howned⟩ := Lib.grow_eq_some ProcessRow.parentId ProcessRow.id processes root
    (Nat.lt_succ_self _)
  rw [processTree, howned]
  rfl

/-- `process.tree` lists the rows of the processes that can be reached from the root. -/
theorem mem_processTree {processes tree : List ProcessRow} {root : Nat}
    (h : processTree processes root = some tree) (row : ProcessRow) :
    row ∈ tree ↔ row ∈ processes ∧ ∃ n, Lib.Walk (ParentOf processes) root n row.id := by
  obtain ⟨owned, howned, rfl⟩ := Option.map_eq_some_iff.mp h
  rw [List.mem_insertionSort, List.mem_filter, decide_eq_true_eq, Lib.mem_grow howned]
  rfl

end Agenterm
