import Agenterm.Control.JsonSelect
import Agenterm.Lib.Checks
import Mathlib.Data.List.Infix
import Mathlib.Data.List.TakeWhile

/-!
# Selectors

What a trie keeps of a document depends on two things only: the positions it covers, at which a
path ends, or ended before, and those it reaches, which are on a path or covered (`project_congr`).
In a parsed selector these are what the paths of the text say (`parse_ok`), so neither the order of
the paths nor a repetition matters, and a path absorbs those that go on from it (`project_order`).
-/

namespace Agenterm.JsonSelect

open List Lib Selector

/-- One step into a document. -/
inductive Step where
  | member (name : String)
  | element
deriving DecidableEq

def Segment.steps : Segment → List Step
  | .key name => [.member name]
  | .elements name => [.member name, .element]
  | .rootElements => [.element]

/-- Where a path leads to. -/
def pathSteps (path : List Segment) : List Step := path.flatMap Segment.steps

@[simp] lemma pathSteps_cons (s : Segment) (path : List Segment) :
    pathSteps (s :: path) = s.steps ++ pathSteps path := rfl

variable {l : List String} {p : List Step} {path : List Segment} {paths : List (List Segment)}
  {raw : List Char} {selector : Selector} {text : String}

lemma pathSteps_eq_nil : pathSteps path = [] ↔ path = [] := by
  cases path with
  | nil => exact iff_of_true rfl rfl
  | cons s path => cases s <;> simp [Segment.steps]

/-! ## Documents -/

/-- Induction on a document. -/
theorem Document.rec_on_parts {σ : Type} {P : Document σ → Prop} (scalar : ∀ s, P (.scalar s))
    (array : ∀ items : List (Document σ), (∀ item ∈ items, P item) → P (.array items))
    (object : ∀ fields : List (String × Document σ), (∀ field ∈ fields, P field.2) →
      P (.object fields)) : ∀ v, P v
  | .scalar s => scalar s
  | .array items => array items fun item _ => rec_on_parts scalar array object item
  | .object fields => object fields fun field hfield => by
    have : sizeOf field.2 < sizeOf fields := by
      have h := sizeOf_lt_of_mem hfield
      have h' : sizeOf field = 1 + sizeOf field.1 + sizeOf field.2 := rfl
      omega
    exact rec_on_parts scalar array object field.2

variable {σ : Type} {node other : Node}

lemma projectItems_eq (inner : Node) (items : List (Document σ)) :
    projectItems inner items = items.map (project inner) := by
  induction items with
  | nil => rfl
  | cons item items ih => rw [projectItems, ih, map_cons]

lemma projectField_eq (node : Node) (field : String × Document σ) :
    projectField node field =
      (node.member field.1).map fun inner => (field.1, project inner field.2) := by
  cases field
  rw [projectField]

lemma projectFields_eq (node : Node) (fields : List (String × Document σ)) :
    projectFields node fields = fields.filterMap (projectField node) := by
  induction fields with
  | nil => rfl
  | cons field fields ih =>
    rw [projectFields, ih, filterMap_cons]
    cases projectField node field <;> rfl

/-! ## The steps of a trie -/

namespace Node

def child (node : Node) : Step → Option Node
  | .member name => node.member name
  | .element => node.elements

def setChild (node : Node) : Step → Node → Node
  | .member name, inner => node.insertMember name inner
  | .element, inner => node.setElements inner

lemma lookup_filter_ne {name other : String} (members : List (String × Node))
    (h : other ≠ name) :
    (members.filter fun field => field.1 ≠ name).lookup other = members.lookup other := by
  induction members with
  | nil => rfl
  | cons field members ih =>
    rw [filter_cons]
    split
    · rw [lookup_cons, lookup_cons, ih]
    · rename_i hsame
      have hfield : field.1 = name := by simpa using hsame
      have hother : (other == field.1) = false := beq_eq_false_iff_ne.mpr (hfield ▸ h)
      rw [ih, lookup_cons, hother]

@[simp] lemma leaf_setChild (node inner : Node) (s : Step) :
    (node.setChild s inner).leaf = node.leaf := by
  cases s <;> rfl

lemma child_setChild (node inner : Node) (s t : Step) :
    (node.setChild s inner).child t = if t = s then some inner else node.child t := by
  cases s with
  | member name =>
    cases t with
    | member other =>
      by_cases h : other = name
      · rw [h, if_pos rfl]
        exact lookup_cons_self
      · rw [if_neg (fun heq => h (Step.member.inj heq))]
        show List.lookup other ((name, inner) :: _) = _
        rw [lookup_cons, beq_eq_false_iff_ne.mpr h]
        exact lookup_filter_ne _ h
    | element => rfl
  | element =>
    cases t with
    | member other => rfl
    | element => rfl

/-- A path ends at the position, or ended before. -/
def covers : Node → List Step → Bool
  | node, [] => node.leaf
  | node, s :: p => node.leaf || (node.child s).any fun inner => covers inner p

/-- The position is on a path, or covered. -/
def reaches : Node → List Step → Bool
  | _, [] => true
  | node, s :: p => node.leaf || (node.child s).any fun inner => reaches inner p

@[simp] lemma covers_default (p : List Step) : default.covers p = false := by
  cases p with
  | nil => rfl
  | cons s p => cases s <;> rfl

lemma reaches_default (p : List Step) : default.reaches p = true ↔ p = [] := by
  cases p with
  | nil => exact iff_of_true rfl rfl
  | cons s p => cases s <;> exact iff_of_false Bool.false_ne_true (cons_ne_nil _ _)

lemma covers_whole (p : List Step) : whole.covers p = true := by
  cases p <;> rfl

lemma reaches_whole (p : List Step) : whole.reaches p = true := by
  cases p <;> rfl

lemma covers_getD (inner : Option Node) (p : List Step) :
    (inner.getD default).covers p = inner.any fun m => m.covers p := by
  cases inner with
  | none => exact covers_default p
  | some m => rfl

lemma covers_cons (node : Node) (s : Step) (p : List Step) :
    node.covers (s :: p) = (node.leaf || ((node.child s).getD default).covers p) := by
  rw [covers, covers_getD]

lemma covers_setChild (node inner : Node) (s t : Step) (p : List Step) :
    (node.setChild s inner).covers (t :: p) =
      (node.leaf || if t = s then inner.covers p else ((node.child t).getD default).covers p) := by
  rw [covers_cons, leaf_setChild, child_setChild]
  split <;> rfl

end Node

/-! ## Insertion -/

/-- `insert`, step by step. -/
def graft (node : Node) : List Step → Node
  | [] => node
  | [s] => node.setChild s .whole
  | s :: t :: p => node.setChild s (graft ((node.child s).getD .default) (t :: p))

lemma graft_cons (node : Node) (s : Step) (hp : p ≠ []) :
    graft node (s :: p) = node.setChild s (graft ((node.child s).getD .default) p) := by
  cases p with
  | nil => exact absurd rfl hp
  | cons t p => rfl

lemma insert_eq_graft (node : Node) (path : List Segment) :
    insert node path = graft node (pathSteps path) := by
  induction path generalizing node with
  | nil => rfl
  | cons s rest ih =>
    cases hrest : rest with
    | nil => cases s <;> rfl
    | cons next rest' =>
      rw [← hrest]
      have hne : pathSteps rest ≠ [] := by
        rw [Ne, pathSteps_eq_nil, hrest]
        exact cons_ne_nil _ _
      have hsome : rest.isEmpty = false := by rw [hrest]; rfl
      cases s with
      | key name =>
        rw [insert, hsome, if_neg Bool.false_ne_true, ih, pathSteps_cons, Segment.steps,
          singleton_append, graft_cons _ _ hne]
        rfl
      | elements name =>
        rw [insert, hsome, if_neg Bool.false_ne_true, ih, pathSteps_cons, Segment.steps,
          cons_append, singleton_append, graft_cons _ _ (cons_ne_nil _ _),
          graft_cons _ _ hne]
        rfl
      | rootElements =>
        rw [insert, hsome, if_neg Bool.false_ne_true, ih, pathSteps_cons, Segment.steps,
          singleton_append, graft_cons _ _ hne]
        rfl

lemma covers_graft (hp : p ≠ []) (q : List Step) :
    (graft node p).covers q = true ↔ node.covers q = true ∨ p <+: q := by
  induction p generalizing node q with
  | nil => exact absurd rfl hp
  | cons s p ih =>
    have hinner (q : List Step) : ((if p = [] then Node.whole
        else graft ((node.child s).getD .default) p).covers q = true ↔
        ((node.child s).getD .default).covers q = true ∨ p <+: q) := by
      split
      next hnil =>
        rw [hnil]
        exact iff_of_true (Node.covers_whole q) (.inr nil_prefix)
      next hne => exact ih hne q
    have hgraft : graft node (s :: p) = node.setChild s (if p = [] then Node.whole
        else graft ((node.child s).getD .default) p) := by
      split
      next hnil => rw [hnil]; rfl
      next hne => exact graft_cons _ _ hne
    rw [hgraft]
    cases q with
    | nil => simp [Node.covers]
    | cons t q =>
      rw [Node.covers_setChild, Node.covers_cons, Bool.or_eq_true, Bool.or_eq_true,
        cons_prefix_cons, or_assoc]
      apply or_congr_right
      split
      next hsame =>
        rw [hinner, hsame]
        simp
      next hne => simp [Ne.symm hne]

lemma reaches_graft (hp : p ≠ []) (q : List Step) :
    (graft node p).reaches q = true ↔ node.reaches q = true ∨ p <+: q ∨ q <+: p := by
  induction p generalizing node q with
  | nil => exact absurd rfl hp
  | cons s p ih =>
    cases q with
    | nil => exact iff_of_true rfl (.inl rfl)
    | cons t q =>
      by_cases hp' : p = []
      · subst hp'
        rw [show graft node [s] = node.setChild s .whole from rfl, Node.reaches, Node.reaches,
          Node.leaf_setChild, Node.child_setChild]
        split
        next hsame => simp [hsame, Node.reaches_whole]
        next hne => simp [hne, Ne.symm hne]
      · have hinner := @ih ((node.child s).getD .default) hp' q
        rw [graft_cons _ _ hp', Node.reaches, Node.reaches, Node.leaf_setChild,
          Node.child_setChild, Bool.or_eq_true, Bool.or_eq_true, cons_prefix_cons,
          cons_prefix_cons, or_assoc]
        apply or_congr_right
        split
        next hsame =>
          subst hsame
          rw [Option.any_some, hinner]
          by_cases hq : q = []
          · subst hq
            simp
          · have hchild : ((node.child t).getD .default).reaches q =
                (node.child t).any fun m => m.reaches q := by
              cases node.child t with
              | some m => rfl
              | none =>
                rw [Option.getD_none, Option.any_none, Bool.eq_false_iff, Ne,
                  Node.reaches_default]
                exact hq
            rw [hchild]
            simp
        next hne => simp [hne, Ne.symm hne]

lemma covers_insertAll (hpaths : ∀ path ∈ paths, path ≠ []) (q : List Step) :
    (paths.foldl insert node).covers q = true ↔
      node.covers q = true ∨ ∃ path ∈ paths, pathSteps path <+: q := by
  induction paths generalizing node with
  | nil => simp
  | cons path paths ih =>
    have hpath : pathSteps path ≠ [] :=
      fun h => hpaths path mem_cons_self (pathSteps_eq_nil.mp h)
    rw [foldl_cons, ih fun p hp => hpaths p (mem_cons_of_mem _ hp), insert_eq_graft,
      covers_graft hpath]
    simp only [mem_cons, exists_eq_or_imp, or_assoc]

lemma reaches_insertAll (hpaths : ∀ path ∈ paths, path ≠ []) (q : List Step) :
    (paths.foldl insert node).reaches q = true ↔
      node.reaches q = true ∨ ∃ path ∈ paths, pathSteps path <+: q ∨ q <+: pathSteps path := by
  induction paths generalizing node with
  | nil => simp
  | cons path paths ih =>
    have hpath : pathSteps path ≠ [] :=
      fun h => hpaths path mem_cons_self (pathSteps_eq_nil.mp h)
    rw [foldl_cons, ih fun p hp => hpaths p (mem_cons_of_mem _ hp), insert_eq_graft,
      reaches_graft hpath]
    simp only [mem_cons, exists_eq_or_imp, or_assoc]

/-! ## What a projection depends on -/

/-- The tries cover and reach the same positions. -/
structure SameSelection (node other : Node) : Prop where
  covers : ∀ p, node.covers p = other.covers p
  reaches : ∀ p, node.reaches p = other.reaches p

namespace SameSelection

lemma leaf_eq (h : SameSelection node other) : node.leaf = other.leaf := h.covers []

/-- Away from leaves the tries have the same steps, to tries of the same selection. -/
lemma child (h : SameSelection node other) (hleaf : node.leaf = false) (s : Step) :
    Option.Rel SameSelection (node.child s) (other.child s) := by
  have hleaf' : other.leaf = false := h.leaf_eq ▸ hleaf
  have hcovers (p : List Step) : ((node.child s).any fun m => m.covers p) =
      (other.child s).any fun m => m.covers p := by
    have hp := h.covers (s :: p)
    rwa [Node.covers, Node.covers, hleaf, hleaf', Bool.false_or, Bool.false_or] at hp
  have hreaches (p : List Step) : ((node.child s).any fun m => m.reaches p) =
      (other.child s).any fun m => m.reaches p := by
    have hp := h.reaches (s :: p)
    rwa [Node.reaches, Node.reaches, hleaf, hleaf', Bool.false_or, Bool.false_or] at hp
  cases hchild : node.child s with
  | none =>
    cases hchild' : other.child s with
    | none => exact .none
    | some m =>
      have hp := hreaches []
      rw [hchild, hchild', Option.any_none, Option.any_some, Node.reaches] at hp
      cases hp
  | some n =>
    cases hchild' : other.child s with
    | none =>
      have hp := hreaches []
      rw [hchild, hchild', Option.any_none, Option.any_some, Node.reaches] at hp
      cases hp
    | some m =>
      rw [hchild, hchild'] at hcovers hreaches
      exact .some ⟨hcovers, hreaches⟩

lemma members_isEmpty (h : SameSelection node other) (hleaf : node.leaf = false) :
    node.members.isEmpty = other.members.isEmpty := by
  have hempty (node : Node) :
      node.members.isEmpty = true ↔ ∀ name, node.child (.member name) = none := by
    rw [List.isEmpty_iff]
    constructor
    · intro hnil name
      show node.members.lookup name = none
      rw [hnil]
      rfl
    · intro hnone
      cases hmembers : node.members with
      | nil => rfl
      | cons field members =>
        have hfirst : node.members.lookup field.1 = none := hnone field.1
        rw [hmembers, lookup_cons_self] at hfirst
        cases hfirst
  rw [Bool.eq_iff_iff, hempty, hempty]
  apply forall_congr'
  intro name
  generalize hn : node.child (.member name) = n
  generalize hm : other.child (.member name) = m
  have hrel := h.child hleaf (.member name)
  rw [hn, hm] at hrel
  cases hrel with
  | none => exact Iff.rfl
  | some => exact iff_of_false (by simp) (by simp)

end SameSelection

/-- A projection depends on what the trie covers and reaches only. -/
theorem project_congr (h : SameSelection node other) (v : Document σ) :
    project node v = project other v := by
  induction v using Document.rec_on_parts generalizing node other with
  | scalar s => rw [project, project]
  | array items ih =>
    rw [project, project, h.leaf_eq]
    split
    · rfl
    · rename_i hleaf
      rw [Bool.not_eq_true, ← h.leaf_eq] at hleaf
      have hrel : Option.Rel SameSelection node.elements other.elements := h.child hleaf .element
      generalize node.elements = n, other.elements = m at hrel
      cases hrel with
      | none => rfl
      | some hinner =>
        dsimp only
        rw [projectItems_eq, projectItems_eq,
          map_congr_left fun item hitem => ih item hitem hinner]
  | object fields ih =>
    rw [project, project]
    by_cases hleaf : node.leaf = true
    · rw [← h.leaf_eq, hleaf, Bool.true_or, Bool.true_or, if_pos rfl, if_pos rfl]
    · rw [Bool.not_eq_true] at hleaf
      rw [← h.leaf_eq, hleaf, h.members_isEmpty hleaf]
      split
      · rfl
      · rw [projectFields_eq, projectFields_eq]
        congr 1
        apply filterMap_congr
        intro field hfield
        rw [projectField_eq, projectField_eq]
        have hrel : Option.Rel SameSelection (node.member field.1) (other.member field.1) :=
          h.child hleaf (.member field.1)
        generalize node.member field.1 = n, other.member field.1 = m at hrel
        cases hrel with
        | none => rfl
        | some hinner => rw [Option.map_some, Option.map_some, ih field hfield hinner]

/-! ## Parsed texts -/

/-- The path is one of those between the commas of the text. -/
def Selects (text : String) (path : List Segment) : Prop :=
  ∃ raw ∈ text.toList.splitOn ',', parseRaw raw = .ok path

lemma parseRaw_ne_nil (h : parseRaw raw = .ok path) : path ≠ [] := by
  unfold parseRaw at h
  dsimp only at h
  split at h
  · cases h
  · split at h
    · cases h
    · rename_i segments hsegments
      split at h
      · cases h
      · have hall := mapM_eq_ok.mp hsegments
        rintro rfl
        rw [Except.ok.inj h, forall₂_nil_right_iff] at hall
        exact splitOn_ne_nil _ _ hall

lemma mem_foldl_pushNew {raws parsed : List (List Segment)} :
    path ∈ raws.foldl pushNew parsed ↔ path ∈ parsed ∨ path ∈ raws := by
  induction raws generalizing parsed with
  | nil => simp
  | cons raw raws ih =>
    rw [foldl_cons, ih, pushNew]
    split
    · rename_i hmem
      rw [contains_iff_mem] at hmem
      rw [mem_cons]
      constructor
      · exact Or.imp id .inr
      · rintro (hold | rfl | hrest)
        · exact .inl hold
        · exact .inl hmem
        · exact .inr hrest
    · rw [mem_append, mem_singleton, mem_cons, or_assoc]

lemma mem_parsePaths (h : parsePaths text = .ok paths) (path : List Segment) :
    path ∈ paths ↔ Selects text path := by
  unfold parsePaths at h
  rw [ite_error_eq_ok, ite_error_eq_ok] at h
  obtain ⟨-, -, h⟩ := h
  split at h
  · cases h
  · rename_i raws hraws
    dsimp only at h
    rw [ite_error_eq_ok, ite_error_eq_ok] at h
    obtain ⟨-, -, h⟩ := h
    rw [← Except.ok.inj h, mem_foldl_pushNew]
    have hall := mapM_eq_ok.mp hraws
    constructor
    · rintro (hnil | hmem)
      · cases hnil
      · obtain ⟨i, hi, rfl⟩ := getElem_of_mem hmem
        have hlength := hall.length_eq
        exact ⟨_, getElem_mem (hlength ▸ hi), hall.get (hlength ▸ hi) hi⟩
    · rintro ⟨raw, hraw, hparse⟩
      obtain ⟨i, hi, rfl⟩ := getElem_of_mem hraw
      have hlength := hall.length_eq
      have hget : parseRaw (text.toList.splitOn ',')[i] = .ok raws[i] :=
        hall.get hi (hlength ▸ hi)
      rw [hparse] at hget
      exact .inr (Except.ok.inj hget ▸ getElem_mem _)

/-- What a selector is made of. -/
lemma parse_ok (h : parse text = .ok selector) :
    ∃ paths, parsePaths text = .ok paths ∧
      (∀ p, selector.root.covers p = true ↔ ∃ path ∈ paths, pathSteps path <+: p) ∧
      ∀ p, selector.root.reaches p = true ↔
        p = [] ∨ ∃ path ∈ paths, pathSteps path <+: p ∨ p <+: pathSteps path := by
  unfold parse at h
  cases hpaths : parsePaths text with
  | error error => rw [hpaths] at h; cases h
  | ok paths =>
    rw [hpaths] at h
    have hnonempty : ∀ path ∈ paths.insertionSort fun a b => a.length ≤ b.length, path ≠ [] := by
      intro path hpath
      obtain ⟨raw, -, hraw⟩ :=
        (mem_parsePaths hpaths path).mp ((mem_insertionSort _).mp hpath)
      exact parseRaw_ne_nil hraw
    refine ⟨paths, rfl, ?_, ?_⟩
    · intro p
      rw [← Except.ok.inj h, covers_insertAll hnonempty, Node.covers_default]
      simp only [Bool.false_eq_true, false_or, mem_insertionSort]
    · intro p
      rw [← Except.ok.inj h, reaches_insertAll hnonempty, Node.reaches_default]
      simp only [mem_insertionSort]

/-! ## The order of the paths -/

lemma mem_trim {c : Char} {text : List Char} (h : c ∈ text) :
    isWhitespace c = true ∨ c ∈ trim text := by
  have hdrop (l : List Char) (h : c ∈ l) :
      isWhitespace c = true ∨ c ∈ l.dropWhile isWhitespace := by
    rw [← takeWhile_append_dropWhile (p := isWhitespace) (l := l), mem_append] at h
    exact h.imp (mem_takeWhile_imp) id
  rcases hdrop text h with hspace | hmem
  · exact .inl hspace
  · rcases hdrop _ (mem_reverse.mpr hmem) with hspace | hmem'
    · exact .inl hspace
    · exact .inr (mem_reverse.mpr hmem')

lemma mem_splitOn {c sep : Char} {text : List Char} (h : c ∈ text) (hne : c ≠ sep) :
    ∃ part ∈ text.splitOn sep, c ∈ part := by
  induction text with
  | nil => cases h
  | cons d text ih =>
    rw [splitOn_cons_eq_if_modifyHead]
    rcases mem_cons.mp h with rfl | hmem
    · rw [if_neg (by simpa using hne)]
      cases hsplit : text.splitOn sep with
      | nil => exact absurd hsplit (splitOn_ne_nil _ _)
      | cons part parts => exact ⟨c :: part, mem_cons_self, mem_cons_self⟩
    · obtain ⟨part, hpart, hc⟩ := ih hmem
      split
      · exact ⟨part, mem_cons_of_mem _ hpart, hc⟩
      · cases hsplit : text.splitOn sep with
        | nil => exact absurd hsplit (splitOn_ne_nil _ _)
        | cons first parts =>
          rw [hsplit] at hpart
          rcases mem_cons.mp hpart with rfl | hrest
          · exact ⟨d :: part, mem_cons_self, mem_cons_of_mem _ hc⟩
          · exact ⟨part, mem_cons_of_mem _ hrest, hc⟩

/-- A part has key characters and brackets only. -/
lemma parsePart_no_comma {path part : List Char} {s : Segment} (h : parsePart path part = .ok s) :
    ',' ∉ part := by
  intro hcomma
  unfold parsePart at h
  rw [ite_error_eq_ok] at h
  obtain ⟨-, h⟩ := h
  have hkey (key : List Char) (hmem : ',' ∈ key) :
      ∃ c, key.find? (fun c => !isKeyCharacter c) = some c :=
    Option.isSome_iff_exists.mp (List.find?_isSome.mpr ⟨',', hmem, by decide⟩)
  cases hstrip : stripBrackets part with
  | none =>
    obtain ⟨c, hc⟩ := hkey part hcomma
    rw [hstrip] at h
    dsimp only at h
    split at h
    · cases h
    · rw [hc] at h
      cases h
  | some head =>
    rw [hstrip] at h
    dsimp only at h
    have hpart : part = head ++ ['[', ']'] := by
      unfold stripBrackets at hstrip
      split at hstrip
      · rename_i hsuffix
        obtain ⟨front, rfl⟩ := isSuffixOf_iff_suffix.mp hsuffix
        have hhead : front = head := by simpa using hstrip
        rw [hhead]
      · cases hstrip
    have hmem : ',' ∈ head := by
      rw [hpart, mem_append] at hcomma
      exact hcomma.resolve_right (by decide)
    obtain ⟨c, hc⟩ := hkey head hmem
    have hnonempty : head.isEmpty = false := by
      rw [isEmpty_eq_false_iff]
      exact ne_nil_of_mem hmem
    rw [hnonempty, if_neg Bool.false_ne_true, hc] at h
    cases h

lemma parseRaw_no_comma (h : parseRaw raw = .ok path) : ',' ∉ raw := by
  intro hcomma
  have hmem : ',' ∈ trim raw := (mem_trim hcomma).resolve_left (by decide)
  unfold parseRaw at h
  dsimp only at h
  rw [ite_error_eq_ok] at h
  obtain ⟨-, h⟩ := h
  split at h
  · cases h
  · rename_i segments hsegments
    obtain ⟨part, hpart, hc⟩ := mem_splitOn hmem (by decide : ',' ≠ '.')
    obtain ⟨i, hi, rfl⟩ := getElem_of_mem hpart
    have hall := mapM_eq_ok.mp hsegments
    exact parsePart_no_comma (hall.get hi (hall.length_eq ▸ hi)) hc

lemma mem_splitOn_joined (hl : l ≠ []) :
    raw ∈ (",".intercalate l).toList.splitOn ',' ↔ ∃ s ∈ l, raw ∈ s.toList.splitOn ',' := by
  rw [String.toList_intercalate]
  induction l with
  | nil => exact absurd rfl hl
  | cons first l ih =>
    cases l with
    | nil => simp
    | cons second l =>
      have hsplit := splitOn_append_cons_self (a := ',') first.toList
        (",".toList.intercalate ((second :: l).map String.toList))
      have hjoin : ",".toList.intercalate ((first :: second :: l).map String.toList) =
          first.toList ++ ',' :: ",".toList.intercalate ((second :: l).map String.toList) := by
        rw [map_cons, map_cons, intercalate_cons_cons, append_assoc]
        rfl
      rw [hjoin, hsplit, mem_append, ih (cons_ne_nil _ _)]
      simp only [mem_cons, exists_eq_or_imp]

/-- The paths that a joined text selects are those of its parts. -/
lemma selects_joined (hl : l ≠ []) :
    Selects (",".intercalate l) path ↔ ∃ s ∈ l, Selects s path := by
  constructor
  · rintro ⟨raw, hraw, hparse⟩
    obtain ⟨s, hs, hmem⟩ := (mem_splitOn_joined hl).mp hraw
    exact ⟨s, hs, raw, hmem, hparse⟩
  · rintro ⟨s, hs, raw, hmem, hparse⟩
    exact ⟨raw, (mem_splitOn_joined hl).mpr ⟨s, hs, hmem⟩, hparse⟩

/-- A text of one path. -/
lemma selects_single (h : parseRaw text.toList = .ok path) (other : List Segment) :
    Selects text other ↔ other = path := by
  unfold Selects
  rw [splitOn_eq_singleton (parseRaw_no_comma h)]
  simp only [mem_singleton, exists_eq_left, h, Except.ok.injEq]
  exact eq_comm

lemma joined_ne_nil (h : parse (",".intercalate l) = .ok selector) : l ≠ [] := by
  rintro rfl
  revert h
  rw [parse, show parsePaths (",".intercalate []) = .error .empty by decide]
  exact nofun

/-- Selectors of texts that select the same paths, but for some that others absorb. -/
lemma sameSelection_of_absorbed {text' : String} {selector' : Selector}
    (h : parse text = .ok selector) (h' : parse text' = .ok selector')
    (hsub : ∀ path, Selects text path → Selects text' path)
    (habsorbed : ∀ path, Selects text' path →
      ∃ short, Selects text short ∧ pathSteps short <+: pathSteps path) :
    SameSelection selector'.root selector.root := by
  obtain ⟨paths, hpaths, hcovers, hreaches⟩ := parse_ok h
  obtain ⟨paths', hpaths', hcovers', hreaches'⟩ := parse_ok h'
  constructor
  · intro p
    rw [Bool.eq_iff_iff, hcovers, hcovers']
    constructor
    · rintro ⟨path, hpath, hprefix⟩
      obtain ⟨short, hshort, habsorbs⟩ := habsorbed path ((mem_parsePaths hpaths' path).mp hpath)
      exact ⟨short, (mem_parsePaths hpaths short).mpr hshort, habsorbs.trans hprefix⟩
    · rintro ⟨path, hpath, hprefix⟩
      have hselects := hsub path ((mem_parsePaths hpaths path).mp hpath)
      exact ⟨path, (mem_parsePaths hpaths' path).mpr hselects, hprefix⟩
  · intro p
    rw [Bool.eq_iff_iff, hreaches, hreaches']
    apply or_congr_right
    constructor
    · rintro ⟨path, hpath, hprefix⟩
      obtain ⟨short, hshort, habsorbs⟩ := habsorbed path ((mem_parsePaths hpaths' path).mp hpath)
      refine ⟨short, (mem_parsePaths hpaths short).mpr hshort, ?_⟩
      rcases hprefix with hlong | hp
      · exact .inl (habsorbs.trans hlong)
      · exact prefix_or_prefix_of_prefix habsorbs hp
    · rintro ⟨path, hpath, hprefix⟩
      have hselects := hsub path ((mem_parsePaths hpaths path).mp hpath)
      exact ⟨path, (mem_parsePaths hpaths' path).mpr hselects, hprefix⟩

/-- **The order of the paths** and repetitions of them do not matter, and a path absorbs those
that go on from it, whichever comes first. -/
theorem project_order {l l' : List String} {selector selector' : Selector}
    (h : parse (",".intercalate l) = .ok selector)
    (h' : parse (",".intercalate l') = .ok selector') :
    ((∀ x, x ∈ l' ↔ x ∈ l) → ∀ v : Document σ, selector'.project v = selector.project v) ∧
    ∀ short long a b, short ∈ l → parseRaw short.toList = .ok a → parseRaw long.toList = .ok b →
      pathSteps a <+: pathSteps b → (∀ x, x ∈ l' ↔ x ∈ l ∨ x = long) →
      ∀ v : Document σ, selector'.project v = selector.project v := by
  have hl := joined_ne_nil h
  have hl' := joined_ne_nil h'
  constructor
  · intro hsame
    have hselection := sameSelection_of_absorbed h h'
      (fun path hpath => by
        obtain ⟨s, hs, hselects⟩ := (selects_joined hl).mp hpath
        exact (selects_joined hl').mpr ⟨s, (hsame s).mpr hs, hselects⟩)
      (fun path hpath => by
        obtain ⟨s, hs, hselects⟩ := (selects_joined hl').mp hpath
        exact ⟨path, (selects_joined hl).mpr ⟨s, (hsame s).mp hs, hselects⟩, prefix_rfl⟩)
    exact project_congr hselection
  · intro short long a b hshort ha hb hprefix hsame
    have hselection := sameSelection_of_absorbed h h'
      (fun path hpath => by
        obtain ⟨s, hs, hselects⟩ := (selects_joined hl).mp hpath
        exact (selects_joined hl').mpr ⟨s, (hsame s).mpr (.inl hs), hselects⟩)
      (fun path hpath => by
        obtain ⟨s, hs, hselects⟩ := (selects_joined hl').mp hpath
        rcases (hsame s).mp hs with hold | rfl
        · exact ⟨path, (selects_joined hl).mpr ⟨s, hold, hselects⟩, prefix_rfl⟩
        · -- the long path: the short one absorbs it
          rw [selects_single hb] at hselects
          refine ⟨a, (selects_joined hl).mpr ⟨short, hshort, ?_⟩, hselects ▸ hprefix⟩
          exact (selects_single ha a).mpr rfl)
    exact project_congr hselection

/-- The selector of these paths, inserted in this order. -/
def selectorOf (paths : List (List Segment)) : Selector := ⟨paths.foldl insert .default⟩

/-- A document with two members. -/
def twoMembers : Document Nat :=
  .object [("a", .object [("b", .scalar 1)]), ("b", .array [.scalar 2])]

theorem project_order_swapped :
    (selectorOf [[.key "a"], [.key "a", .key "b"]]).project twoMembers =
        (selectorOf [[.key "a"]]).project twoMembers ∧
      (selectorOf [[.elements "b"], [.key "a"]]).project twoMembers =
        (selectorOf [[.key "a"], [.elements "b"]]).project twoMembers := by
  have hone : parse (",".intercalate ["a"]) = .ok (selectorOf [[.key "a"]]) := by
    rw [parse, show parsePaths (",".intercalate ["a"]) = .ok [[.key "a"]] by decide]
    rfl
  have hlong : parse (",".intercalate ["a.b", "a"]) =
      .ok (selectorOf [[.key "a"], [.key "a", .key "b"]]) := by
    rw [parse, show parsePaths (",".intercalate ["a.b", "a"]) =
      .ok [[.key "a", .key "b"], [.key "a"]] by decide]
    rfl
  have htwo : parse (",".intercalate ["a", "b[]"]) =
      .ok (selectorOf [[.key "a"], [.elements "b"]]) := by
    rw [parse, show parsePaths (",".intercalate ["a", "b[]"]) =
      .ok [[.key "a"], [.elements "b"]] by decide]
    rfl
  have hswapped : parse (",".intercalate ["b[]", "a"]) =
      .ok (selectorOf [[.elements "b"], [.key "a"]]) := by
    rw [parse, show parsePaths (",".intercalate ["b[]", "a"]) =
      .ok [[.elements "b"], [.key "a"]] by decide]
    rfl
  constructor
  · exact (project_order hone hlong).2 "a" "a.b" [.key "a"] [.key "a", .key "b"]
      mem_cons_self (by decide) (by decide) (by decide) (by simp [or_comm]) twoMembers
  · exact (project_order htwo hswapped).1 (by simp [or_comm]) twoMembers

end Agenterm.JsonSelect
