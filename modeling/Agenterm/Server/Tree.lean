import Agenterm.Lib.Keyed
import Agenterm.Terminal.Tab

/-!
# The tab tree

The tabs of the server form a forest through `parentId` (`tab_tree.rs`). This module has the
cycle check that guards a new parent link, and the index that a new tab gets.
-/

namespace Agenterm

structure TabTreeNode where
  id : Nat
  parentId : Option Nat
  sortKey : Nat
deriving DecidableEq

def TerminalTab.treeNode (tab : TerminalTab) : TabTreeNode :=
  { id := tab.id, parentId := tab.parentId, sortKey := tab.index }

/-- Gives the tab another parent. -/
def TerminalTab.setParent (parentId : Option Nat) (tab : TerminalTab) : TerminalTab :=
  { tab with parentId }

/-- What the closing of tab `id` does to another tab: a child of it moves up to its parent. -/
def TerminalTab.promote (id : Nat) (parentId : Option Nat) (tab : TerminalTab) : TerminalTab :=
  if tab.parentId = some id then tab.setParent parentId else tab

/-- The parent of the first node with this id. -/
def parentOf (nodes : List TabTreeNode) (id : Nat) : Option Nat :=
  (nodes.find? fun node => node.id = id).bind TabTreeNode.parentId

/-- The loop of `would_create_cycle`: follows the parents from `current` for at most `rounds`
rounds, and gives up with `true`. -/
def climbMeets (nodes : List TabTreeNode) (childId : Nat) : Nat → Option Nat → Bool
  | 0, _ => true
  | _ + 1, none => false
  | rounds + 1, some id =>
    if id = childId then true else climbMeets nodes childId rounds (parentOf nodes id)

def wouldCreateCycle (nodes : List TabTreeNode) (childId parentId : Nat) : Bool :=
  if childId = parentId then
    true
  else
    climbMeets nodes childId (nodes.length + 1) (some parentId)

/-- The least index no tab has. -/
def leastFreeIndex (tabs : List TerminalTab) : Nat :=
  ((List.range (tabs.length + 1)).find? fun candidate =>
    !tabs.any fun tab => tab.index = candidate).getD tabs.length

/-- `sort_by_key(|tab| tab.index)`, a stable sort. -/
def sortByIndex (tabs : List TerminalTab) : List TerminalTab :=
  tabs.insertionSort fun a b => a.index ≤ b.index

end Agenterm
