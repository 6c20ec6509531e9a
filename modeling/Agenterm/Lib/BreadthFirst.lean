import Agenterm.Lib.Walks

/-!
# Breadth-first search with a limit

A queue of nodes with their depths, the nodes seen so far and the list of what was found, in the
order it was found. The search gives up when there are more than `limit` nodes besides the root.

The list that was found is what was taken from the queue, followed by the queue (`Stage`). The
depths in the queue do not decrease, and nothing found is deeper than one below its head; so a
child of a node that was taken has been found at most one below it, and the depths are distances.

* `search_found`: when the search ends with a list, this is the reachable nodes, each once, with
  its distance and a parent one level above (`Tree`);
* `search_tooLarge`: when it gives up, there are too many;
* `search_ends`: it ends when the nodes it can meet are no more than its fuel.
-/

namespace Agenterm.Lib.BreadthFirst

open List

variable {α : Type}

/-- A node, its depth, and the node it was found from. -/
structure Found (α : Type) where
  node : α
  depth : Nat
  parent : Option α
deriving DecidableEq

structure Search (α : Type) where
  seen : List α
  queue : List (α × Nat)
  found : List (Found α)

inductive Outcome (α : Type) where
  | found (entries : List (Found α))
  | tooLarge
  | unfinished
deriving DecidableEq

def rootEntry (root : α) : Found α := ⟨root, 0, none⟩

def start (root : α) : Search α := ⟨[root], [(root, 0)], [rootEntry root]⟩

section
variable [DecidableEq α] (children : α → List α) (limit : Nat)

/-- Meets a child of a node that was taken from the queue. -/
def discover (parent : α) (depth : Nat) (s : Search α) (child : α) : Option (Search α) :=
  if child ∈ s.seen then some s
  else if (child :: s.seen).length - 1 > limit then none
  else some {
    seen := child :: s.seen
    queue := s.queue ++ [(child, depth + 1)]
    found := s.found ++ [⟨child, depth + 1, some parent⟩] }

/-- Takes nodes from the queue until it is empty. -/
def search : Nat → Search α → Outcome α
  | fuel, s =>
    match s.queue with
    | [] => .found s.found
    | (parent, depth) :: queue =>
      match fuel with
      | 0 => .unfinished
      | fuel + 1 =>
        match (children parent).foldlM (discover limit parent depth) { s with queue } with
        | none => .tooLarge
        | some s' => search fuel s'

end

/-! ## The result -/

/-- `y` is a child of `x`. -/
def Child (children : α → List α) (x y : α) : Prop := y ∈ children x

/-- The nodes that can be reached, each once, with their distances and parents. -/
structure Tree (children : α → List α) (root : α) (limit : Nat) (entries : List (Found α)) :
    Prop where
  nodup : (entries.map Found.node).Nodup
  mem_iff : ∀ x, x ∈ entries.map Found.node ↔ ∃ n, Walk (Child children) root n x
  distance : ∀ e ∈ entries, Distance (Child children) root e.node e.depth
  /-- Every entry but the root's has a parent one level above. -/
  parents : ∀ e ∈ entries, e = rootEntry root ∨ ∃ f ∈ entries, e.parent = some f.node ∧
    e.depth = f.depth + 1 ∧ e.node ∈ children f.node
  root_mem : rootEntry root ∈ entries
  size : entries.length ≤ limit + 1
  depth_lt : ∀ e ∈ entries, e.depth < entries.length

/-- More than `limit` nodes besides the root can be reached. -/
def TooMany (children : α → List α) (root : α) (limit : Nat) : Prop :=
  ∃ l : List α, l.Nodup ∧ limit < l.length ∧
    ∀ x ∈ l, x ≠ root ∧ ∃ n, Walk (Child children) root n x

/-- A tree within the limit has all that can be reached, so this is not too much. -/
theorem Tree.not_tooMany {children : α → List α} {root : α} {limit : Nat}
    {entries : List (Found α)} (h : Tree children root limit entries) :
    ¬ TooMany children root limit := by
  rintro ⟨l, hnodup, hlen, hl⟩
  have hsub : root :: l ⊆ entries.map Found.node := by
    intro x hx
    rcases mem_cons.mp hx with rfl | hx
    · exact (h.mem_iff x).mpr ⟨0, Walk.zero⟩
    · exact (h.mem_iff x).mpr (hl x hx).2
  have hnodup' : (root :: l).Nodup :=
    nodup_cons.mpr ⟨fun hmem => (hl root hmem).1 rfl, hnodup⟩
  have hle := (hnodup'.subperm hsub).length_le
  rw [length_cons, length_map] at hle
  have hsize := h.size
  omega

/-! ## A stage of the search -/

section
variable {children : α → List α} {limit : Nat} {root : α}

/-- The search has taken `done` and is to take `rest`. -/
structure Stage (children : α → List α) (root : α) (limit : Nat) (s : Search α)
    (done rest : List (Found α)) (level : Nat) : Prop where
  found_eq : s.found = done ++ rest
  queue_eq : s.queue = rest.map fun e => (e.node, e.depth)
  seen_eq : s.seen = (s.found.map Found.node).reverse
  nodup : (s.found.map Found.node).Nodup
  root_mem : rootEntry root ∈ s.found
  parents : ∀ e ∈ s.found, e = rootEntry root ∨ ∃ f ∈ done, e.parent = some f.node ∧
    e.depth = f.depth + 1 ∧ e.node ∈ children f.node
  walks : ∀ e ∈ s.found, Walk (Child children) root e.depth e.node
  sorted : (rest.map Found.depth).Pairwise (· ≤ ·)
  low : ∀ e ∈ rest, level ≤ e.depth
  near : ∀ e ∈ s.found, e.depth ≤ level + 1
  size : s.found.length ≤ limit + 1
  depth_lt : ∀ e ∈ s.found, e.depth < s.found.length

/-- A child was found at most one below its parent. -/
def Covered (s : Search α) (f : Found α) (c : α) : Prop :=
  ∃ e ∈ s.found, e.node = c ∧ e.depth ≤ f.depth + 1

/-- Every child of what was taken was found. -/
def Closed (children : α → List α) (s : Search α) (done : List (Found α)) : Prop :=
  ∀ f ∈ done, ∀ c ∈ children f.node, Covered s f c

lemma Covered.mono {s s' : Search α} (hsub : s.found ⊆ s'.found) {f : Found α} {c : α}
    (h : Covered s f c) : Covered s' f c := by
  obtain ⟨e, he, hnode, hdepth⟩ := h
  exact ⟨e, hsub he, hnode, hdepth⟩

lemma stage_start : Stage children root limit (start root) [] [rootEntry root] 0 where
  found_eq := rfl
  queue_eq := rfl
  seen_eq := rfl
  nodup := nodup_singleton root
  root_mem := mem_singleton_self _
  parents e he := .inl (mem_singleton.mp he)
  walks e he := by
    rw [mem_singleton.mp he]
    exact Walk.zero
  sorted := pairwise_singleton _ _
  low _ _ := Nat.zero_le _
  near e he := by
    rw [mem_singleton.mp he]
    exact Nat.zero_le _
  size := Nat.le_add_left _ _
  depth_lt e he := by
    rw [mem_singleton.mp he]
    exact Nat.one_pos

namespace Stage

variable {s s' : Search α} {done rest : List (Found α)} {h : Found α} {level : Nat}

lemma mem_seen_iff (hs : Stage children root limit s done rest level) (x : α) :
    x ∈ s.seen ↔ ∃ e ∈ s.found, e.node = x := by
  rw [hs.seen_eq, mem_reverse, mem_map]

/-- Taking the head of the queue moves on to its level. -/
lemma pop (hs : Stage children root limit s done (h :: rest) level) :
    Stage children root limit { s with queue := rest.map fun e => (e.node, e.depth) }
      (done ++ [h]) rest h.depth where
  found_eq := by
    rw [append_assoc, singleton_append]
    exact hs.found_eq
  queue_eq := rfl
  seen_eq := hs.seen_eq
  nodup := hs.nodup
  root_mem := hs.root_mem
  parents e he := by
    rcases hs.parents e he with hroot | ⟨f, hf, hparent⟩
    · exact .inl hroot
    · exact .inr ⟨f, mem_append_left _ hf, hparent⟩
  walks := hs.walks
  sorted := (pairwise_cons.mp hs.sorted).2
  low e he := (pairwise_cons.mp hs.sorted).1 _ (mem_map_of_mem he)
  near e he := by
    have hlow := hs.low h mem_cons_self
    have hnear := hs.near e he
    omega
  size := hs.size
  depth_lt := hs.depth_lt

/-- With nothing left to take, what was found is the tree. -/
lemma tree (hs : Stage children root limit s done [] level) (hclosed : Closed children s done) :
    Tree children root limit s.found := by
  have hdone : s.found = done := by rw [hs.found_eq, append_nil]
  -- a walk leads to something that was found, not deeper than its length
  have hreached : ∀ n x, Walk (Child children) root n x →
      ∃ e ∈ s.found, e.node = x ∧ e.depth ≤ n := by
    intro n
    induction n with
    | zero =>
      intro x hx
      exact ⟨rootEntry root, hs.root_mem, hx.symm, Nat.le_refl 0⟩
    | succ n ih =>
      rintro x ⟨y, hy, hedge⟩
      obtain ⟨f, hf, rfl, hdepth⟩ := ih y hy
      obtain ⟨e, he, hnode, hle⟩ := hclosed f (hdone ▸ hf) x hedge
      exact ⟨e, he, hnode, by omega⟩
  have hinj : ∀ e ∈ s.found, ∀ f ∈ s.found, e.node = f.node → e = f := by
    intro e he f hf heq
    exact inj_on_of_nodup_map hs.nodup he hf heq
  exact {
    nodup := hs.nodup
    mem_iff := fun x => by
      rw [mem_map]
      constructor
      · rintro ⟨e, he, rfl⟩
        exact ⟨e.depth, hs.walks e he⟩
      · rintro ⟨n, hn⟩
        obtain ⟨e, he, hnode, -⟩ := hreached n x hn
        exact ⟨e, he, hnode⟩
    distance := fun e he => {
      walk := hs.walks e he
      shortest := fun m hm => by
        obtain ⟨f, hf, hnode, hle⟩ := hreached m e.node hm
        rwa [hinj f hf e he hnode] at hle }
    parents := fun e he => by
      rcases hs.parents e he with hroot | ⟨f, hf, hparent⟩
      · exact .inl hroot
      · exact .inr ⟨f, hdone ▸ hf, hparent⟩
    root_mem := hs.root_mem
    size := hs.size
    depth_lt := hs.depth_lt }

section
variable [DecidableEq α]

/-- A child of a node that was taken is found now or was before. -/
lemma discover_some (hs : Stage children root limit s done rest h.depth) (hh : h ∈ done) {c : α}
    (hc : c ∈ children h.node) (hstep : discover limit h.node h.depth s c = some s') :
    ∃ rest', Stage children root limit s' done rest' h.depth ∧ s.found ⊆ s'.found ∧
      Covered s' h c := by
  have hmem : h ∈ s.found := by
    rw [hs.found_eq]
    exact mem_append_left _ hh
  unfold discover at hstep
  split at hstep
  · rename_i hseen
    rw [Option.some.injEq] at hstep
    subst hstep
    obtain ⟨e, he, hnode⟩ := (hs.mem_seen_iff c).mp hseen
    exact ⟨rest, hs, fun _ => id, e, he, hnode, hs.near e he⟩
  · rename_i hseen
    split at hstep
    · cases hstep
    · rename_i hlimit
      rw [Option.some.injEq] at hstep
      subst hstep
      have hlen : s.seen.length = s.found.length := by
        rw [hs.seen_eq, length_reverse, length_map]
      rw [length_cons, hlen] at hlimit
      refine ⟨rest ++ [⟨c, h.depth + 1, some h.node⟩], ?_, subset_append_left _ _, ?_⟩
      · exact {
          found_eq := by rw [hs.found_eq, append_assoc]
          queue_eq := by rw [hs.queue_eq, map_append, map_singleton]
          seen_eq := by
            rw [hs.seen_eq, map_append, reverse_append, map_singleton,
              reverse_singleton, singleton_append]
          nodup := by
            rw [map_append, map_singleton, nodup_append]
            refine ⟨hs.nodup, nodup_singleton c, fun x hx y hy => ?_⟩
            rw [mem_singleton] at hy
            subst hy
            rintro rfl
            exact hseen ((hs.mem_seen_iff x).mpr (mem_map.mp hx))
          root_mem := mem_append_left _ hs.root_mem
          parents := by
            intro e he
            rcases mem_append.mp he with he | he
            · exact hs.parents e he
            · rw [mem_singleton.mp he]
              exact .inr ⟨h, hh, rfl, rfl, hc⟩
          walks := by
            intro e he
            rcases mem_append.mp he with he | he
            · exact hs.walks e he
            · rw [mem_singleton.mp he]
              exact (hs.walks h hmem).step hc
          sorted := by
            rw [map_append, map_singleton, pairwise_append]
            refine ⟨hs.sorted, pairwise_singleton _ _, fun d hd d' hd' => ?_⟩
            obtain ⟨e, he, rfl⟩ := mem_map.mp hd
            rw [mem_singleton.mp hd']
            exact hs.near e (by rw [hs.found_eq]; exact mem_append_right _ he)
          low := by
            intro e he
            rcases mem_append.mp he with he | he
            · exact hs.low e he
            · rw [mem_singleton.mp he]
              exact Nat.le_succ _
          near := by
            intro e he
            rcases mem_append.mp he with he | he
            · exact hs.near e he
            · rw [mem_singleton.mp he]
          size := by
            rw [length_append, length_singleton]
            omega
          depth_lt := by
            intro e he
            rw [length_append, length_singleton]
            rcases mem_append.mp he with he | he
            · have hlt := hs.depth_lt e he
              omega
            · rw [mem_singleton.mp he]
              have hlt := hs.depth_lt h hmem
              show h.depth + 1 < s.found.length + 1
              omega }
      · exact ⟨_, mem_append_right _ (mem_singleton_self _), rfl, Nat.le_refl _⟩

/-- The search gives up on a node that makes too many. -/
lemma discover_none (hs : Stage children root limit s done rest h.depth) (hh : h ∈ done) {c : α}
    (hc : c ∈ children h.node) (hstep : discover limit h.node h.depth s c = none) :
    TooMany children root limit := by
  have hmem : h ∈ s.found := by
    rw [hs.found_eq]
    exact mem_append_left _ hh
  unfold discover at hstep
  split at hstep
  · cases hstep
  · rename_i hseen
    split at hstep
    · rename_i hlimit
      have hlen : s.seen.length = s.found.length := by
        rw [hs.seen_eq, length_reverse, length_map]
      rw [length_cons, hlen] at hlimit
      have hfresh : c ∉ s.found.map Found.node := by
        intro hc'
        exact hseen ((hs.mem_seen_iff c).mpr (mem_map.mp hc'))
      have hroot : root ∈ s.found.map Found.node :=
        mem_map.mpr ⟨rootEntry root, hs.root_mem, rfl⟩
      -- all nodes that were found and the new one, without the root
      refine ⟨c :: (s.found.map Found.node).erase root, ?_, ?_, fun x hx => ?_⟩
      · rw [nodup_cons]
        exact ⟨fun hc' => hfresh (mem_of_mem_erase hc'), hs.nodup.erase root⟩
      · rw [length_cons, length_erase_of_mem hroot, length_map]
        have hpos := length_pos_of_mem hs.root_mem
        omega
      · rcases mem_cons.mp hx with rfl | hx
        · refine ⟨?_, h.depth + 1, (hs.walks h hmem).step hc⟩
          rintro rfl
          exact hfresh hroot
        · rw [hs.nodup.mem_erase_iff] at hx
          obtain ⟨e, he, rfl⟩ := mem_map.mp hx.2
          exact ⟨hx.1, e.depth, hs.walks e he⟩
    · cases hstep

/-- All children of a node that was taken, in turn. -/
lemma discover_all {cs : List α} (hs : Stage children root limit s done rest h.depth)
    (hh : h ∈ done) (hcs : ∀ c ∈ cs, c ∈ children h.node) :
    (cs.foldlM (discover limit h.node h.depth) s = none → TooMany children root limit) ∧
      ∀ s', cs.foldlM (discover limit h.node h.depth) s = some s' →
        ∃ rest', Stage children root limit s' done rest' h.depth ∧ s.found ⊆ s'.found ∧
          ∀ c ∈ cs, Covered s' h c := by
  induction cs generalizing s rest with
  | nil =>
    refine ⟨fun hnone => (by cases hnone), fun s' hs' => ?_⟩
    cases hs'
    exact ⟨rest, hs, fun _ => id, fun c hc => by cases hc⟩
  | cons c cs ih =>
    have hc := hcs c mem_cons_self
    have hcs' : ∀ c ∈ cs, c ∈ children h.node := fun c hc => hcs c (mem_cons_of_mem _ hc)
    rw [foldlM_cons]
    cases hstep : discover limit h.node h.depth s c with
    | none =>
      exact ⟨fun _ => hs.discover_none hh hc hstep, fun s' hs' => by cases hs'⟩
    | some mid =>
      obtain ⟨rest', hmid, hsub, hcovered⟩ := hs.discover_some hh hc hstep
      obtain ⟨hnone, hsome⟩ := ih hmid hcs'
      refine ⟨hnone, fun s' hs' => ?_⟩
      obtain ⟨rest'', hs'', hsub', hcovered'⟩ := hsome s' hs'
      refine ⟨rest'', hs'', List.Subset.trans hsub hsub', fun c' hc' => ?_⟩
      rcases mem_cons.mp hc' with rfl | hc'
      · exact hcovered.mono hsub'
      · exact hcovered' c' hc'

end

end Stage

section
variable [DecidableEq α]

/-- What a search comes to, from any stage. -/
theorem search_spec {all : List α} (hroot : root ∈ all)
    (hall : ∀ x ∈ all, ∀ y ∈ children x, y ∈ all) {fuel : Nat} {s : Search α}
    {done rest : List (Found α)} {level : Nat} (hs : Stage children root limit s done rest level)
    (hclosed : Closed children s done) (hfuel : all.length ≤ done.length + fuel) :
    (∃ entries, search children limit fuel s = .found entries ∧
        Tree children root limit entries) ∨
      search children limit fuel s = .tooLarge ∧ TooMany children root limit := by
  induction fuel generalizing s done rest level with
  | zero =>
    unfold search
    cases rest with
    | nil =>
      rw [hs.queue_eq, map_nil]
      exact .inl ⟨_, rfl, hs.tree hclosed⟩
    | cons h rest =>
      -- more was found than there is
      exfalso
      have hsub : s.found.map Found.node ⊆ all := by
        intro x hx
        obtain ⟨e, he, rfl⟩ := mem_map.mp hx
        exact (hs.walks e he).mem_of_closed (s := (· ∈ all)) hroot fun x y hx hy => hall x hx y hy
      have hle := (hs.nodup.subperm hsub).length_le
      rw [length_map, hs.found_eq, length_append, length_cons] at hle
      omega
  | succ fuel ih =>
    unfold search
    cases rest with
    | nil =>
      rw [hs.queue_eq, map_nil]
      exact .inl ⟨_, rfl, hs.tree hclosed⟩
    | cons h rest =>
      rw [hs.queue_eq, map_cons]
      dsimp only
      have hpop := hs.pop
      have hh : h ∈ done ++ [h] := mem_append_right _ (mem_singleton_self h)
      obtain ⟨hnone, hsome⟩ := hpop.discover_all hh fun c hc => hc
      cases hstep : (children h.node).foldlM (discover limit h.node h.depth)
          { s with queue := rest.map fun e => (e.node, e.depth) } with
      | none => exact .inr ⟨rfl, hnone hstep⟩
      | some s' =>
        obtain ⟨rest', hs', hsub, hcovered⟩ := hsome s' hstep
        refine ih hs' (fun f hf c hc => ?_) ?_
        · rcases mem_append.mp hf with hf | hf
          · exact (hclosed f hf c hc).mono hsub
          · rw [mem_singleton.mp hf] at hc ⊢
            exact hcovered c hc
        · rw [length_append, length_singleton]
          omega

/-- A search from the root finds its tree or gives up for a reason, if there is fuel for all the
nodes it can meet. -/
theorem search_start (limit : Nat) {all : List α} (hroot : root ∈ all)
    (hall : ∀ x ∈ all, ∀ y ∈ children x, y ∈ all) :
    (∃ entries, search children limit all.length (start root) = .found entries ∧
        Tree children root limit entries) ∨
      search children limit all.length (start root) = .tooLarge ∧ TooMany children root limit :=
  search_spec hroot hall stage_start (fun f hf => by cases hf) (by simp)

end

end

end Agenterm.Lib.BreadthFirst
