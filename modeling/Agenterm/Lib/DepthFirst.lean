import Mathlib.Data.List.Basic
import Mathlib.Logic.Relation

/-!
# Depth-first search for a cycle

A graph is a list of nodes with their successors; the last entry of a node is the one that counts.
`visit` goes down from a node, with the nodes it is below (`visiting`) and those it has finished
(`visited`), and stops at the first node that it is below. It ends, as it goes below each node of the
list once at most. `visit_spec`: it tells whether a cycle is reached.
-/

namespace Agenterm.Lib.DepthFirst

open Relation List

section
variable {α : Type} [DecidableEq α] (graph : List (α × List α))

/-- The successors of a node, if it is in the graph. -/
def successors (a : α) : Option (List α) :=
  (graph.reverse.find? fun entry => entry.1 = a).map Prod.snd

/-- The entries whose node has not been gone below. -/
def above (visiting : List α) : Nat := graph.countP fun entry => entry.1 ∉ visiting

variable {graph}

lemma mem_of_successors {a : α} {next : List α} (h : successors graph a = some next) :
    (a, next) ∈ graph := by
  unfold successors at h
  obtain ⟨entry, hfind, hnext⟩ := Option.map_eq_some_iff.mp h
  have hkey : entry.1 = a := by simpa using List.find?_some hfind
  have hmem := mem_reverse.mp (mem_of_find?_eq_some hfind)
  rwa [← hkey, ← hnext]

lemma above_le (entries : List (α × List α)) (a : α) (visiting : List α) :
    above entries (a :: visiting) ≤ above entries visiting := by
  apply countP_mono_left
  intro entry _ hentry
  simp only [mem_cons, not_or, decide_eq_true_eq] at hentry ⊢
  exact hentry.2

lemma above_lt {a : α} {next : List α} {visiting : List α} (h : successors graph a = some next)
    (hnot : a ∉ visiting) : above graph (a :: visiting) < above graph visiting := by
  obtain ⟨front, back, hsplit⟩ := append_of_mem (mem_of_successors h)
  have hfront := above_le front a visiting
  have hback := above_le back a visiting
  unfold above at *
  rw [hsplit, countP_append, countP_append, countP_cons_of_neg (by simp),
    countP_cons_of_pos (by simpa using hnot)]
  omega

variable (graph)

mutual

/-- Goes down from a node: whether a cycle was met, and the nodes that are finished. -/
def visit (a : α) (visiting visited : List α) : Bool × List α :=
  if _hnot : a ∈ visiting then
    (true, visited)
  else if a ∈ visited then
    (false, visited)
  else
    match _hnext : successors graph a with
    | none => (false, a :: visited)
    | some next =>
      let (cyclic, visited) := visitAny next (a :: visiting) visited
      (cyclic, a :: visited)
termination_by (above graph visiting, 0)
decreasing_by exact Prod.Lex.left _ _ (above_lt _hnext _hnot)

/-- Goes down from the nodes of a list, up to the first that meets a cycle. -/
def visitAny (nodes visiting visited : List α) : Bool × List α :=
  match nodes with
  | [] => (false, visited)
  | a :: rest =>
    let (cyclic, visited) := visit a visiting visited
    if cyclic then (true, visited) else visitAny rest visiting visited
termination_by (above graph visiting, nodes.length + 1)

end

/-- There is a step from a node to one of its successors. -/
def Edge (a b : α) : Prop := ∃ next, successors graph a = some next ∧ b ∈ next

/-- A node from which a cycle is reached. -/
def LeadsToCycle (a : α) : Prop := ∃ b, ReflTransGen (Edge graph) a b ∧ TransGen (Edge graph) b b

variable {graph}

lemma LeadsToCycle.of_edge {a b : α} (hedge : Edge graph a b) (h : LeadsToCycle graph b) :
    LeadsToCycle graph a := by
  obtain ⟨c, hreach, hcycle⟩ := h
  exact ⟨c, hreach.head hedge, hcycle⟩

/-- A cycle is reached through a successor: from a node on it, through the next one. -/
lemma LeadsToCycle.exists_edge {a : α} (h : LeadsToCycle graph a) :
    ∃ b, Edge graph a b ∧ LeadsToCycle graph b := by
  obtain ⟨c, hreach, hcycle⟩ := h
  rcases ReflTransGen.cases_head hreach with rfl | ⟨b, hedge, hrest⟩
  · obtain ⟨b, hedge, hback⟩ := TransGen.head'_iff.mp hcycle
    exact ⟨b, hedge, b, .refl, TransGen.tail' hback hedge⟩
  · exact ⟨b, hedge, c, hrest, hcycle⟩

/-- Every node that is finished leads to no cycle. -/
def Finished (graph : List (α × List α)) (visited : List α) : Prop :=
  ∀ a ∈ visited, ¬ LeadsToCycle graph a

/-- What a search below some nodes tells of a node. -/
def Tells (graph : List (α × List α)) (leads : Prop) (result : Bool × List α) : Prop :=
  (result.1 = true → leads) ∧ (result.1 = false → ¬ leads ∧ Finished graph result.2)

/-- A node below which the search goes on is reached from all that it is below. -/
def Below (graph : List (α × List α)) (visiting : List α) (a : α) : Prop :=
  ∀ b ∈ visiting, TransGen (Edge graph) b a

lemma visitAny_spec {nodes visiting visited : List α}
    (hvisit : ∀ a ∈ nodes, ∀ visited, Finished graph visited →
      Tells graph (LeadsToCycle graph a) (visit graph a visiting visited))
    (hvisited : Finished graph visited) :
    Tells graph (∃ a ∈ nodes, LeadsToCycle graph a) (visitAny graph nodes visiting visited) := by
  induction nodes generalizing visited with
  | nil =>
    rw [visitAny]
    refine ⟨fun h => (nomatch h), fun _ => ⟨?_, hvisited⟩⟩
    simp
  | cons a rest ih =>
    have hfirst := hvisit a (mem_cons_self ..) visited hvisited
    rw [visitAny]
    cases hcyclic : (visit graph a visiting visited).1 with
    | true =>
      simp only [hcyclic, if_true]
      exact ⟨fun _ => ⟨a, mem_cons_self .., hfirst.1 hcyclic⟩, fun h => (nomatch h)⟩
    | false =>
      obtain ⟨hnot, hfinished⟩ := hfirst.2 hcyclic
      have hrest := ih (fun b hb => hvisit b (mem_cons_of_mem _ hb)) hfinished
      simp only [hcyclic, Bool.false_eq_true, if_false]
      constructor
      · intro h
        obtain ⟨b, hb, hleads⟩ := hrest.1 h
        exact ⟨b, mem_cons_of_mem _ hb, hleads⟩
      · intro h
        obtain ⟨hnone, hvisited'⟩ := hrest.2 h
        refine ⟨?_, hvisited'⟩
        intro ⟨b, hb, hleads⟩
        rcases mem_cons.mp hb with rfl | hb
        · exact hnot hleads
        · exact hnone ⟨b, hb, hleads⟩

/-- The step of the search: a node that is not finished leads to a cycle as one below it does. -/
lemma visit_step {a : α} {next visiting visited : List α} (hnext : successors graph a = some next)
    (hany : Tells graph (∃ b ∈ next, LeadsToCycle graph b)
      (visitAny graph next (a :: visiting) visited)) :
    Tells graph (LeadsToCycle graph a)
      ((visitAny graph next (a :: visiting) visited).1,
        a :: (visitAny graph next (a :: visiting) visited).2) := by
  constructor
  · intro h
    obtain ⟨b, hb, hleads⟩ := hany.1 h
    exact .of_edge ⟨next, hnext, hb⟩ hleads
  · intro h
    obtain ⟨hnone, hfinished⟩ := hany.2 h
    have hnot : ¬ LeadsToCycle graph a := by
      intro hleads
      obtain ⟨b, ⟨next', hnext', hb⟩, hleads⟩ := hleads.exists_edge
      obtain rfl : next = next' := Option.some.inj (hnext.symm.trans hnext')
      exact hnone ⟨b, hb, hleads⟩
    refine ⟨hnot, ?_⟩
    intro b hb
    rcases mem_cons.mp hb with rfl | hb
    · exact hnot
    · exact hfinished b hb

/-- The search below some nodes, by induction on the nodes that it can still go below. -/
theorem visit_spec {a : α} {visiting visited : List α} (hbelow : Below graph visiting a)
    (hvisited : Finished graph visited) :
    Tells graph (LeadsToCycle graph a) (visit graph a visiting visited) := by
  induction hn : above graph visiting using Nat.strongRecOn
    generalizing a visiting visited with
  | ind n ih =>
    subst hn
    rw [visit]
    split
    · next hvisiting => exact ⟨fun _ => ⟨a, .refl, hbelow a hvisiting⟩, fun h => (nomatch h)⟩
    · next hnot =>
      split
      · next hdone => exact ⟨fun h => (nomatch h), fun _ => ⟨hvisited a hdone, hvisited⟩⟩
      · split
        · next hnone =>
          have hend : ¬ LeadsToCycle graph a := by
            intro hleads
            obtain ⟨b, ⟨next, hnext, _⟩, _⟩ := hleads.exists_edge
            exact nomatch hnone.symm.trans hnext
          refine ⟨fun h => (nomatch h), fun _ => ⟨hend, ?_⟩⟩
          intro b hb
          rcases mem_cons.mp hb with rfl | hb
          · exact hend
          · exact hvisited b hb
        · next next hnext =>
          apply visit_step hnext
          apply visitAny_spec _ hvisited
          intro b hb visited hvisited
          have hedge : Edge graph a b := ⟨next, hnext, hb⟩
          apply ih _ (above_lt hnext hnot) _ hvisited rfl
          -- the node itself is one that the search is below now
          intro c hc
          rcases mem_cons.mp hc with rfl | hc
          · exact .single hedge
          · exact (hbelow c hc).tail hedge

/-- A search from a node finds a cycle exactly if one is reached. -/
theorem visit_iff (graph : List (α × List α)) (a : α) :
    (visit graph a [] []).1 = true ↔ LeadsToCycle graph a := by
  have hbelow : Below graph [] a := fun b hb => nomatch hb
  have hvisited : Finished graph [] := fun b hb => nomatch hb
  have hspec := visit_spec hbelow hvisited
  constructor
  · exact hspec.1
  · intro hleads
    by_contra hcyclic
    exact (hspec.2 (Bool.eq_false_iff.mpr hcyclic)).1 hleads

end

end Agenterm.Lib.DepthFirst
