import Agenterm.Control.SelectorTheorems

/-!
# What a projection keeps

A projection only removes members of objects (`reduced_project`), keeps whole what a path leads to
(`at_project_of_covers`), and is the same when it is done again (`project_project`). What it keeps
lies on a path or below one, or below a place on a path where the document has an object although
every path there goes on to elements, or an array although none does (`kept_project`).
-/

namespace Agenterm.JsonSelect

open List
open Option hiding map_map any_eq_true

variable {σ : Type} {node : Node}

/-- The second document is the first one without some members of its objects. -/
inductive Reduced : Document σ → Document σ → Prop
  | scalar (s : σ) : Reduced (.scalar s) (.scalar s)
  | array {items items' : List (Document σ)} (hlength : items'.length = items.length)
    (hitems : ∀ pair ∈ items.zip items', Reduced pair.1 pair.2) :
    Reduced (.array items) (.array items')
  | object {fields kept fields' : List (String × Document σ)} (hkept : kept.Sublist fields)
    (hnames : fields'.map Prod.fst = kept.map Prod.fst)
    (hvalues : ∀ pair ∈ kept.zip fields', Reduced pair.1.2 pair.2.2) :
    Reduced (.object fields) (.object fields')

lemma Reduced.refl (v : Document σ) : Reduced v v := by
  induction v using Document.rec_on_parts with
  | scalar s => exact .scalar s
  | array items ih =>
    refine .array rfl fun pair hpair => ?_
    obtain ⟨i, hi, rfl⟩ := getElem_of_mem hpair
    rw [getElem_zip]
    exact ih _ (getElem_mem _)
  | object fields ih =>
    refine .object (List.Sublist.refl _) rfl fun pair hpair => ?_
    obtain ⟨i, hi, rfl⟩ := getElem_of_mem hpair
    rw [getElem_zip]
    exact ih _ (getElem_mem _)

/-- The fields whose names the trie has. -/
def keptFields (node : Node) (fields : List (String × Document σ)) : List (String × Document σ) :=
  fields.filter fun field => (node.member field.1).isSome

lemma projectFields_kept (node : Node) (fields : List (String × Document σ)) :
    projectFields node fields = (keptFields node fields).map fun field =>
      (field.1, project ((node.member field.1).getD .default) field.2) := by
  rw [projectFields_eq]
  induction fields with
  | nil => rfl
  | cons field fields ih =>
    rw [filterMap_cons, keptFields, filter_cons, projectField_eq]
    cases hmember : node.member field.1 with
    | none =>
      rw [map_none, isSome_none, if_neg Bool.false_ne_true]
      exact ih
    | some inner =>
      rw [map_some, isSome_some, if_pos rfl, map_cons, hmember]
      exact congrArg _ ih

/-- A projection removes members, and nothing else. -/
theorem reduced_project (node : Node) (v : Document σ) : Reduced v (project node v) := by
  induction v using Document.rec_on_parts generalizing node with
  | scalar s =>
    rw [project]
    exact .scalar s
  | array items ih =>
    rw [project]
    split
    · exact Reduced.refl _
    · split
      · rename_i inner _
        rw [projectItems_eq]
        refine .array (length_map _) fun pair hpair => ?_
        obtain ⟨i, hi, rfl⟩ := getElem_of_mem hpair
        rw [getElem_zip, getElem_map]
        exact ih _ (getElem_mem _) inner
      · exact Reduced.refl _
  | object fields ih =>
    rw [project]
    split
    · exact Reduced.refl _
    · rw [projectFields_kept]
      have hkept : (keptFields node fields).Sublist fields := filter_sublist
      refine .object hkept ?_ fun pair hpair => ?_
      · rw [map_map]
        rfl
      · obtain ⟨i, hi, rfl⟩ := getElem_of_mem hpair
        rw [getElem_zip, getElem_map]
        exact ih _ (mem_of_mem_filter (getElem_mem _)) _

/-- Projecting again changes nothing. -/
theorem project_project (node : Node) (v : Document σ) :
    project node (project node v) = project node v := by
  induction v using Document.rec_on_parts generalizing node with
  | scalar s => rw [project, project]
  | array items ih =>
    rw [project]
    split
    · rename_i hleaf
      rw [project, if_pos hleaf]
    · rename_i hleaf
      cases helements : node.elements with
      | none =>
        dsimp only
        rw [project, if_neg hleaf, helements]
      | some inner =>
        dsimp only
        rw [project, if_neg hleaf, helements]
        dsimp only
        rw [projectItems_eq, projectItems_eq, map_map]
        congr 1
        exact map_congr_left fun item hitem => ih item hitem inner
  | object fields ih =>
    rw [project]
    split
    · rename_i hwhole
      rw [project, if_pos hwhole]
    · rename_i hparts
      rw [project, if_neg hparts]
      congr 1
      rw [projectFields_eq, projectFields_eq, filterMap_filterMap]
      apply filterMap_congr
      intro field hfield
      rw [projectField_eq]
      cases hmember : node.member field.1 with
      | none => rfl
      | some inner =>
        rw [map_some, bind_some, projectField_eq, hmember, map_some,
          ih field hfield inner]

/-! ## Positions -/

/-- One step to a part of a given document. -/
inductive Place where
  | field (name : String)
  | index (i : Nat)
deriving DecidableEq

/-- The step of a path that this is an instance of. -/
def Place.step : Place → Step
  | .field name => .member name
  | .index _ => .element

/-- The value at a position. -/
def Document.at : Document σ → List Place → Option (Document σ)
  | v, [] => some v
  | .object fields, .field name :: q => (fields.lookup name).bind fun v => v.at q
  | .array items, .index i :: q => items[i]?.bind fun v => v.at q
  | _, _ :: _ => none

lemma lookup_projectFields (node : Node) (fields : List (String × Document σ)) (name : String) :
    (projectFields node fields).lookup name =
      (node.member name).bind fun inner => (fields.lookup name).map (project inner) := by
  rw [projectFields_eq]
  induction fields with
  | nil => cases node.member name <;> rfl
  | cons field fields ih =>
    obtain ⟨key, value⟩ := field
    rw [filterMap_cons, projectField_eq]
    cases hkey : name == key with
    | true =>
      have hname : name = key := eq_of_beq hkey
      subst hname
      rw [lookup_cons_self]
      cases hmember : node.member name with
      | none =>
        rw [map_none, ih, hmember]
        rfl
      | some inner =>
        rw [map_some, bind_some, map_some]
        exact lookup_cons_self
    | false =>
      rw [lookup_cons, hkey]
      cases hmember : node.member key with
      | none =>
        rw [map_none]
        exact ih
      | some inner =>
        rw [map_some]
        dsimp only
        rw [lookup_cons, hkey]
        exact ih

/-- The value that a path leads to is kept whole. -/
theorem at_project_of_covers {v w : Document σ} {q : List Place}
    (hcovers : node.covers (q.map Place.step) = true) (h : v.at q = some w) :
    (project node v).at q = some w := by
  induction q generalizing node v with
  | nil =>
    have hleaf : node.leaf = true := hcovers
    rw [Document.at] at h
    rw [← h, Document.at, some.injEq]
    cases v with
    | scalar s => rw [project]
    | array items => rw [project, if_pos hleaf]
    | object fields => rw [project, if_pos (by rw [hleaf]; rfl)]
  | cons place q ih =>
    rw [map_cons, Node.covers, Bool.or_eq_true] at hcovers
    by_cases hleaf : node.leaf = true
    · cases v with
      | scalar s => rwa [project]
      | array items => rwa [project, if_pos hleaf]
      | object fields => rwa [project, if_pos (by rw [hleaf]; rfl)]
    · have hany := hcovers.resolve_left hleaf
      rw [Option.any_eq_true] at hany
      obtain ⟨inner, hchild, hinner⟩ := hany
      cases v with
      | scalar s => cases place <;> cases h
      | array items =>
        cases place with
        | field name => cases h
        | index i =>
          have helements : node.elements = some inner := hchild
          rw [project, if_neg hleaf, helements]
          dsimp only
          rw [Document.at] at h ⊢
          obtain ⟨item, hitem, hat⟩ := bind_eq_some_iff.mp h
          rw [projectItems_eq, List.getElem?_map, hitem, map_some, bind_some]
          exact ih hinner hat
      | object fields =>
        cases place with
        | index i => cases h
        | field name =>
          have hmember : node.member name = some inner := hchild
          have hmembers : ¬ (node.leaf || node.members.isEmpty) = true := by
            rw [Bool.or_eq_true, not_or]
            refine ⟨hleaf, fun hempty => ?_⟩
            rw [Node.member, isEmpty_iff.mp hempty] at hmember
            cases hmember
          rw [project, if_neg hmembers]
          rw [Document.at] at h ⊢
          obtain ⟨value, hvalue, hat⟩ := bind_eq_some_iff.mp h
          rw [lookup_projectFields, hmember, bind_some, hvalue, map_some,
            bind_some]
          exact ih hinner hat

/-- A place that the trie reaches, where the document is of a kind for which it has no step. -/
def StopsAt (node : Node) (v : Document σ) (r : List Place) : Prop :=
  (∃ fields, v.at r = some (.object fields) ∧
      ∀ name, node.reaches (r.map Place.step ++ [.member name]) = false) ∨
    ∃ items, v.at r = some (.array items) ∧
      node.reaches (r.map Place.step ++ [.element]) = false

/-- What is kept is reached, or below a place where the trie stops. -/
theorem kept_project {v w : Document σ} {q : List Place} (h : (project node v).at q = some w) :
    node.reaches (q.map Place.step) = true ∨
      ∃ r, r <+: q ∧ r ≠ q ∧ node.reaches (r.map Place.step) = true ∧ StopsAt node v r := by
  induction q generalizing node v with
  | nil => exact .inl rfl
  | cons place q ih =>
    by_cases hleaf : node.leaf = true
    · left
      rw [map_cons, Node.reaches, hleaf, Bool.true_or]
    have hfalse : node.leaf = false := Bool.eq_false_iff.mpr hleaf
    -- what holds of a part holds of the whole
    have hpart (inner : Node) (part : Document σ) (hchild : node.child place.step = some inner)
        (hat : ∀ r, v.at (place :: r) = part.at r)
        (h : (project inner part).at q = some w) :
        node.reaches ((place :: q).map Place.step) = true ∨
          ∃ r, r <+: place :: q ∧ r ≠ place :: q ∧ node.reaches (r.map Place.step) = true ∧
            StopsAt node v r := by
      have hreaches (p : List Step) : node.reaches (place.step :: p) = inner.reaches p := by
        rw [Node.reaches, hchild, any_some, hfalse, Bool.false_or]
      rcases ih h with hreached | ⟨r, hunder, hne, hreached, hstops⟩
      · exact .inl ((hreaches _).trans hreached)
      · refine .inr ⟨place :: r, ?_, ?_, (hreaches _).trans hreached, ?_⟩
        · exact cons_prefix_cons.mpr ⟨rfl, hunder⟩
        · exact fun heq => hne (List.cons.inj heq).2
        · rcases hstops with ⟨fields, hfields, hnone⟩ | ⟨items, hitems, hnone⟩
          · exact .inl
              ⟨fields, (hat r).trans hfields, fun name => (hreaches _).trans (hnone name)⟩
          · exact .inr ⟨items, (hat r).trans hitems, (hreaches _).trans hnone⟩
    have hstop (hstops : StopsAt node v []) : ∃ r, r <+: place :: q ∧ r ≠ place :: q ∧
        node.reaches (r.map Place.step) = true ∧ StopsAt node v r :=
      ⟨[], nil_prefix, (cons_ne_nil _ _).symm, rfl, hstops⟩
    cases v with
    | scalar s =>
      rw [project] at h
      cases place <;> cases h
    | array items =>
      cases helements : node.elements with
      | none =>
        refine .inr (hstop (.inr ⟨items, rfl, ?_⟩))
        rw [map_nil, nil_append, Node.reaches, hfalse, Bool.false_or]
        show node.elements.any _ = false
        rw [helements, any_none]
      | some inner =>
        rw [project, if_neg hleaf, helements] at h
        cases place with
        | field name => cases h
        | index i =>
          dsimp only at h
          rw [Document.at, projectItems_eq, List.getElem?_map] at h
          obtain ⟨projected, hprojected, hat⟩ := bind_eq_some_iff.mp h
          obtain ⟨item, hitem, rfl⟩ := map_eq_some_iff.mp hprojected
          refine hpart inner item (show node.elements = some inner from helements) (fun r => ?_) hat
          rw [Document.at, hitem, bind_some]
    | object fields =>
      by_cases hempty : node.members.isEmpty = true
      · refine .inr (hstop (.inl ⟨fields, rfl, fun name => ?_⟩))
        rw [map_nil, nil_append, Node.reaches, hfalse, Bool.false_or]
        show (node.member name).any _ = false
        rw [Node.member, isEmpty_iff.mp hempty]
        rfl
      · have hmembers : ¬ (node.leaf || node.members.isEmpty) = true := by
          rw [Bool.or_eq_true, not_or]
          exact ⟨hleaf, hempty⟩
        rw [project, if_neg hmembers] at h
        cases place with
        | index i => cases h
        | field name =>
          rw [Document.at, lookup_projectFields] at h
          obtain ⟨projected, hprojected, hat⟩ := bind_eq_some_iff.mp h
          obtain ⟨inner, hmember, hprojected⟩ := bind_eq_some_iff.mp hprojected
          obtain ⟨value, hvalue, rfl⟩ := map_eq_some_iff.mp hprojected
          have hinner : node.member name = some inner := hmember
          refine hpart inner value hinner (fun r => ?_) hat
          rw [Document.at, hvalue, bind_some]

/-! ## Projections of selectors -/

/-- A position on a path or below one. -/
def OnOrBelow (paths : List (List Segment)) (q : List Place) : Prop :=
  q = [] ∨ ∃ path ∈ paths, pathSteps path <+: q.map Place.step ∨ q.map Place.step <+: pathSteps path

/-- A position below a place on a path at which the document has an object although no path there
goes on to a member, or an array although none goes on to elements. -/
def BelowMismatch (paths : List (List Segment)) (v : Document σ) (q : List Place) : Prop :=
  ∃ r, r <+: q ∧ r ≠ q ∧ (r = [] ∨ ∃ path ∈ paths, r.map Place.step <+: pathSteps path) ∧
    ((∃ fields, v.at r = some (.object fields) ∧ ∀ path ∈ paths, ∀ name,
        ¬ r.map Place.step ++ [.member name] <+: pathSteps path) ∨
      ∃ items, v.at r = some (.array items) ∧ ∀ path ∈ paths,
        ¬ r.map Place.step ++ [.element] <+: pathSteps path)

/-- **Projections** of a parsed selector: members are removed and nothing else, what a path leads
to is kept whole, what is kept is on or below a path or below a mismatch, and projecting again
changes nothing. -/
theorem projection_faithful {text : String} {selector : Selector}
    (h : Selector.parse text = .ok selector) (v : Document σ) :
    ∃ paths, parsePaths text = .ok paths ∧
      Reduced v (selector.project v) ∧
      (∀ path ∈ paths, ∀ q w, q.map Place.step = pathSteps path → v.at q = some w →
        (selector.project v).at q = some w) ∧
      (∀ q w, (selector.project v).at q = some w → OnOrBelow paths q ∨ BelowMismatch paths v q) ∧
      selector.project (selector.project v) = selector.project v := by
  obtain ⟨paths, hpaths, hcovers, hreaches⟩ := parse_ok h
  refine ⟨paths, hpaths, reduced_project _ v, ?_, ?_, project_project _ v⟩
  · intro path hpath q w hq hat
    refine at_project_of_covers ?_ hat
    rw [hcovers]
    exact ⟨path, hpath, hq ▸ prefix_rfl⟩
  · intro q w hat
    have hon (q : List Place) : selector.root.reaches (q.map Place.step) = true ↔
        OnOrBelow paths q := by
      rw [hreaches, map_eq_nil_iff]
      exact Iff.rfl
    rcases kept_project hat with hreached | ⟨r, hunder, hne, hreached, hstops⟩
    · exact .inl ((hon q).mp hreached)
    by_cases hcovered : ∃ path ∈ paths, pathSteps path <+: r.map Place.step
    · obtain ⟨path, hpath, hshort⟩ := hcovered
      exact .inl (.inr ⟨path, hpath, .inl (hshort.trans (hunder.map Place.step))⟩)
    · have honPath : r = [] ∨ ∃ path ∈ paths, r.map Place.step <+: pathSteps path := by
        rcases (hon r).mp hreached with hnil | ⟨path, hpath, hshort | hlong⟩
        · exact .inl hnil
        · exact absurd ⟨path, hpath, hshort⟩ hcovered
        · exact .inr ⟨path, hpath, hlong⟩
      refine .inr ⟨r, hunder, hne, honPath, ?_⟩
      -- a step on a path would be reached
      have hnone (s : Step) (hs : selector.root.reaches (r.map Place.step ++ [s]) = false) :
          ∀ path ∈ paths, ¬ r.map Place.step ++ [s] <+: pathSteps path := by
        intro path hpath hstep
        have hreach := (hreaches (r.map Place.step ++ [s])).mpr
          (.inr ⟨path, hpath, .inr hstep⟩)
        rw [hs] at hreach
        cases hreach
      rcases hstops with ⟨fields, hfields, hstop⟩ | ⟨items, hitems, hstop⟩
      · refine .inl ⟨fields, hfields, fun path hpath name => ?_⟩
        exact hnone _ (hstop name) path hpath
      · exact .inr ⟨items, hitems, hnone _ hstop⟩

/-- An object with a member `a` that is an object of its own. -/
def nestedDocument : Document Nat := .object [("a", .object [("x", .scalar 0)])]

lemma parse_elements : Selector.parse "a[]" = .ok (selectorOf [[.elements "a"]]) := by
  rw [Selector.parse, show parsePaths "a[]" = .ok [[.elements "a"]] by decide]
  rfl

theorem projection_faithful_nested :
    (selectorOf [[.elements "a"]]).project
        ((selectorOf [[.elements "a"]]).project nestedDocument) =
      (selectorOf [[.elements "a"]]).project nestedDocument := by
  obtain ⟨paths, -, -, -, -, hagain⟩ := projection_faithful parse_elements nestedDocument
  exact hagain

/-- A member that no path names is kept where the path asks for the elements of an object. -/
theorem mismatch_keeps_member :
    Selector.parse "a[]" = .ok (selectorOf [[.elements "a"]]) ∧
      parsePaths "a[]" = .ok [[.elements "a"]] ∧
      ((selectorOf [[.elements "a"]]).project nestedDocument).at [.field "a", .field "x"] =
        some (.scalar 0) ∧
      ¬ OnOrBelow [[.elements "a"]] [.field "a", .field "x"] := by
  refine ⟨parse_elements, by decide, rfl, ?_⟩
  rintro (hnil | ⟨path, hpath, hunder⟩)
  · cases hnil
  · rw [mem_singleton.mp hpath] at hunder
    revert hunder
    decide

end Agenterm.JsonSelect
