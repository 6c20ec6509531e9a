import Agenterm.Cu.PageText
import Agenterm.Lib.NearestAncestor
import Mathlib.Algebra.Ring.Nat

/-!
# What a reading of a page holds

An id that is a canonical path spells its child indices, and a text prefix with a slash is a prefix of
the indices (`isBelow_iff`). So the rows that the loop has not popped are the ancestors of the node
that are rows, the innermost first, and the words of a candidate are compared with those of its
nearest row above (`ReadInv`).
-/

namespace Agenterm.Cu.PageText

open List Lib

open Lib (ProperPrefix IsNearest Tracks)

/-! ### Canonical ids -/

def digits (index : Nat) : List Char := (toString index).toList

/-- A slash before every child index. -/
def pathChars (indices : List Nat) : List Char := indices.flatMap fun index => '/' :: digits index

/-- An id that spells a path of child indices. -/
def IsCanonical (id : String) : Prop :=
  ∃ indices : List Nat, (∀ index ∈ indices, index ≤ u64Max) ∧ id.toList = pathChars indices

section
variable {id ancestor : String} {p q : List Nat}

lemma digits_isDigit (index : Nat) : ∀ c ∈ digits index, c.isDigit = true := by
  intro c hc
  rw [digits, show (toString index).toList = Nat.toDigits 10 index from Nat.toList_repr] at hc
  exact Nat.isDigit_of_mem_toDigits (by decide) (by decide) hc

lemma digits_ne_nil (index : Nat) : digits index ≠ [] := by
  rw [digits, show (toString index).toList = Nat.toDigits 10 index from Nat.toList_repr]
  exact Nat.toDigits_ne_nil

lemma slash_not_mem_digits (index : Nat) : '/' ∉ digits index := by
  intro h
  exact absurd (digits_isDigit index '/' h) (by decide)

lemma digits_injective {i j : Nat} (h : digits i = digits j) : i = j := by
  have hi := parseUnsigned_toString (Nat.le_max_left i j)
  have hj := parseUnsigned_toString (Nat.le_max_right i j)
  unfold digits at h
  rw [h, hj] at hi
  exact (Option.some.inj hi).symm

@[simp] lemma pathChars_nil : pathChars [] = [] := rfl

@[simp] lemma pathChars_cons (index : Nat) (indices : List Nat) :
    pathChars (index :: indices) = '/' :: (digits index ++ pathChars indices) := rfl

lemma pathChars_append (p q : List Nat) : pathChars (p ++ q) = pathChars p ++ pathChars q :=
  flatMap_append

/-- An id is its indices behind an empty part, with slashes between them. -/
lemma pathChars_eq_intercalate (p : List Nat) :
    pathChars p = ['/'].intercalate ([] :: p.map digits) := by
  have hgeneral : ∀ head : List Char,
      head ++ pathChars p = ['/'].intercalate (head :: p.map digits) := by
    induction p with
    | nil => intro head; simp [List.intercalate]
    | cons index p ih =>
      intro head
      have hnext := ih (digits index)
      rw [pathChars_cons, hnext, map_cons]
      simp [List.intercalate, List.intersperse]
  exact hgeneral []

/-- The path of a canonical id are the indices that it spells. -/
lemma path_of_chars (hbound : ∀ index ∈ p, index ≤ u64Max) (h : id.toList = pathChars p) :
    path id = p := by
  have hsplit : id.toList.splitOn '/' = [] :: p.map digits := by
    rw [h, pathChars_eq_intercalate]
    apply splitOn_intercalate
    · intro part hpart
      rcases mem_cons.mp hpart with rfl | hpart
      · exact not_mem_nil
      · obtain ⟨index, _, rfl⟩ := mem_map.mp hpart
        exact slash_not_mem_digits index
    · exact cons_ne_nil _ _
  have hfilter : (p.map digits).filter (!·.isEmpty) = p.map digits := by
    apply filter_eq_self.mpr
    intro part hpart
    obtain ⟨index, _, rfl⟩ := mem_map.mp hpart
    simp [digits_ne_nil]
  rw [path, hsplit, filter_cons_of_neg (by simp), hfilter, map_map]
  calc p.map ((fun part => (parseUnsigned u64Max part).getD u64Max) ∘ digits)
      = p.map fun index => index := by
        apply map_congr_left
        intro index hindex
        show (parseUnsigned u64Max (toString index).toList).getD u64Max = index
        rw [parseUnsigned_toString (hbound index hindex)]
        rfl
    _ = p := map_id' p

lemma IsCanonical.toList (h : IsCanonical id) : id.toList = pathChars (path id) := by
  obtain ⟨p, hbound, hid⟩ := h
  rw [path_of_chars hbound hid, hid]

/-- Canonical ids with the same path are the same. -/
lemma IsCanonical.eq_of_path (h : IsCanonical id) (h' : IsCanonical ancestor)
    (hpath : path id = path ancestor) : id = ancestor := by
  apply String.toList_inj.mp
  rw [h.toList, h'.toList, hpath]

/-- What follows an index is a slash, or nothing. -/
lemma digits_of_append {i j : Nat} {rest : List Char}
    (h : digits i ++ '/' :: rest = digits j ++ pathChars q) : i = j ∧ '/' :: rest = pathChars q := by
  have hi : (digits i ++ '/' :: rest).takeWhile Char.isDigit = digits i := by
    rw [takeWhile_append_of_pos (digits_isDigit i)]
    simp
  have hj : (digits j ++ pathChars q).takeWhile Char.isDigit = digits j := by
    rw [takeWhile_append_of_pos (digits_isDigit j)]
    cases q with
    | nil => simp
    | cons k q => simp
  have hdigits : digits i = digits j := by rw [← hi, h, hj]
  rw [hdigits] at h
  exact ⟨digits_injective hdigits, append_cancel_left h⟩

lemma pathChars_prefix_iff : pathChars p ++ ['/'] <+: pathChars q ↔ ProperPrefix p q := by
  constructor
  · intro h
    induction p generalizing q with
    | nil =>
      cases q with
      | nil => exact absurd (prefix_nil.mp h) (by simp)
      | cons j q => exact ⟨List.nil_prefix, by simp⟩
    | cons i p ih =>
      cases q with
      | nil => exact absurd (prefix_nil.mp h) (by simp)
      | cons j q =>
        obtain ⟨rest, hrest⟩ := h
        -- the next character of the ancestor's id is a slash in any case
        obtain ⟨tail, htail⟩ : ∃ tail, pathChars p ++ ['/'] = '/' :: tail := by
          cases p with
          | nil => exact ⟨[], rfl⟩
          | cons k p => exact ⟨digits k ++ pathChars p ++ ['/'], by simp⟩
        rw [pathChars_cons, pathChars_cons, cons_append, cons_append,
          append_assoc, append_assoc, ← append_assoc (pathChars p), htail,
          cons_append] at hrest
        obtain ⟨rfl, hq⟩ := digits_of_append (List.cons.inj hrest).2
        have hbelow : ProperPrefix p q := by
          apply ih
          refine ⟨rest, ?_⟩
          rw [htail, cons_append, hq]
        refine ⟨(prefix_cons_inj i).mpr hbelow.1, ?_⟩
        intro heq
        exact hbelow.2 (List.cons.inj heq).2
  · intro ⟨⟨rest, hq⟩, hne⟩
    cases rest with
    | nil => exact absurd (by rw [← hq, append_nil]) hne
    | cons k rest =>
      refine ⟨digits k ++ pathChars rest, ?_⟩
      rw [← hq, pathChars_append, pathChars_cons, append_assoc]
      rfl

/-- An id that begins with another one and a slash is an id below it. -/
lemma isBelow_iff (hid : IsCanonical id) (hancestor : IsCanonical ancestor) :
    isBelow id ancestor = decide (ProperPrefix (path ancestor) (path id)) := by
  have hiff : isBelow id ancestor = true ↔ ProperPrefix (path ancestor) (path id) := by
    rw [isBelow, isPrefixOf_iff_prefix, hid.toList, hancestor.toList]
    exact pathChars_prefix_iff
  by_cases h : ProperPrefix (path ancestor) (path id)
  · rw [hiff.mpr h, decide_eq_true h]
  · rw [decide_eq_false h]
    exact Bool.eq_false_iff.mpr fun hbelow => h (hiff.mp hbelow)

end

/-! ### Rows -/

section
variable (isAlphanumeric : Char → Bool) (within : Option (Int × Int × Int × Int))

def rowPath (row : TextRow) : List Nat := path row.id

/-- A row shows what a node shows that is no container. -/
structure IsRowOf (node : A11yNode) (row : TextRow) : Prop where
  showing : isShowing node = true
  intersects : intersects node within = true
  notContainer : isContainer isAlphanumeric node.role = false
  label : label isAlphanumeric node = some row.text
  row : row = TextRow.of node row.text

/-- The row that a node is a candidate for. -/
def candidateRow (node : A11yNode) : Option TextRow :=
  if !isShowing node || !intersects node within then none
  else (label isAlphanumeric node).map (TextRow.of node)

/-- The candidates of a tree in reading order. -/
def candidateRows (nodes : List A11yNode) : List TextRow :=
  (inReadingOrder nodes).filterMap (candidateRow isAlphanumeric within)

variable {isAlphanumeric within} {node : A11yNode} {row : TextRow}

lemma isRowOf_of_candidate (h : candidateRow isAlphanumeric within node = some row) :
    IsRowOf isAlphanumeric within node row := by
  unfold candidateRow at h
  split at h
  · cases h
  · rename_i hvisible
    simp only [Bool.or_eq_true, Bool.not_eq_true', not_or, Bool.not_eq_false] at hvisible
    obtain ⟨text, hlabel, rfl⟩ := Option.map_eq_some_iff.mp h
    have hcontainer : isContainer isAlphanumeric node.role = false := by
      rw [Bool.eq_false_iff]
      intro hcontainer
      rw [label, if_pos hcontainer] at hlabel
      cases hlabel
    exact ⟨hvisible.1, hvisible.2, hcontainer, hlabel, rfl⟩

lemma IsRowOf.id_eq (h : IsRowOf isAlphanumeric within node row) : row.id = node.id := by
  rw [h.row]
  rfl

end

/-! ### The loop -/

/-- What a row leaves on the stack. -/
def TextRow.entry (row : TextRow) : String × String := (row.id, row.text)

/-- The words of a candidate are in the nearest row above it. -/
def IsCarried (rows : List TextRow) (candidate : TextRow) : Prop :=
  ∃ ancestor, IsNearest rowPath rows candidate ancestor ∧
    containsText ancestor.text candidate.text = true

def textBytes (rows : List TextRow) : Nat := (rows.map (·.text.utf8ByteSize)).sum

/-- What holds after some candidates were visited. -/
structure ReadInv (maxBytes : Nat) (visited : List TextRow) (progress : Progress) : Prop where
  tracks : ∃ stack, progress.emitted = stack.map TextRow.entry ∧
    Tracks rowPath visited progress.rows stack
  rows_visited : progress.rows.Sublist visited
  bytes_sum : progress.bytes = textBytes progress.rows
  bytes_le : progress.bytes ≤ maxBytes
  candidates : progress.candidates = visited.length
  merged : progress.rows.length + progress.merged = visited.length
  covered : ∀ candidate ∈ visited, candidate ∈ progress.rows ∨ IsCarried progress.rows candidate
  notCarried : ∀ row ∈ progress.rows, ¬ IsCarried progress.rows row

namespace ReadInv

variable {maxBytes : Nat} {visited : List TextRow} {progress : Progress} {candidate : TextRow}

lemma start : ReadInv maxBytes [] Progress.start where
  tracks := ⟨[], rfl, Tracks.nil⟩
  rows_visited := List.Sublist.slnil
  bytes_sum := rfl
  bytes_le := Nat.zero_le _
  candidates := rfl
  merged := rfl
  covered := fun _ h => nomatch h
  notCarried := fun _ h => nomatch h

/-- The rows that a candidate leaves on the stack are those above it. -/
lemma count_emitted (hcanonical : ∀ v ∈ visited, IsCanonical v.id)
    (hid : IsCanonical candidate.id) {stack : List TextRow} (hstack : ∀ x ∈ stack, x ∈ visited)
    (hemitted : progress.emitted = stack.map TextRow.entry) :
    (progress.count candidate.id).emitted =
      (ancestors rowPath stack candidate).map TextRow.entry := by
  show progress.emitted.dropWhile (fun row => !isBelow candidate.id row.1) = _
  rw [hemitted]
  clear hemitted
  unfold ancestors
  induction stack with
  | nil => rfl
  | cons top rest ih =>
    have htop := isBelow_iff hid (hcanonical top (hstack top mem_cons_self))
    have hrest := ih fun x hx => hstack x (mem_cons_of_mem _ hx)
    rw [map_cons, dropWhile_cons, dropWhile_cons]
    show (if (!isBelow candidate.id top.id) = true then _ else _) = _
    rw [htop, hrest]
    show (if (!decide (ProperPrefix (rowPath top) (rowPath candidate))) = true then _ else _) = _
    by_cases habove : ProperPrefix (rowPath top) (rowPath candidate)
    · simp [habove]
    · simp [habove]

variable (h : ReadInv maxBytes visited progress)
  (hcanonical : ∀ v ∈ visited, IsCanonical v.id) (hid : IsCanonical candidate.id)
  (hsorted : (visited ++ [candidate]).Pairwise fun a b => rowPath a < rowPath b)

include hsorted in
lemma later : ∀ v ∈ visited, rowPath v < rowPath candidate := by
  intro v hv
  exact (pairwise_append.mp hsorted).2.2 v hv candidate (mem_singleton_self _)

include hsorted in
lemma eq_of_path {a b : TextRow} (ha : a ∈ visited) (hb : b ∈ visited)
    (heq : rowPath a = rowPath b) : a = b := by
  have hvisited := (pairwise_append.mp hsorted).1
  have hnodup : (visited.map rowPath).Nodup := by
    apply pairwise_map.mpr
    apply hvisited.imp
    intro a b hlt heq
    rw [heq] at hlt
    exact lt_irrefl _ hlt
  exact inj_on_of_nodup_map hnodup ha hb heq

include h hcanonical hid hsorted in
/-- The loop compares the words of a candidate with those of its nearest row above. -/
lemma carries_iff :
    (progress.count candidate.id).carries candidate.text = true ↔
      IsCarried progress.rows candidate := by
  obtain ⟨stack, hemitted, htracks⟩ := h.tracks
  have hlater := later hsorted
  have hstack : ∀ x ∈ stack, x ∈ visited := fun x hx =>
    htracks.kept_visited x (htracks.stack_kept x hx)
  have hcount := count_emitted hcanonical hid hstack hemitted
  unfold Progress.carries
  rw [hcount, List.head?_map, Option.any_map]
  constructor
  · intro hany
    obtain ⟨top, htop, hcontains⟩ := (Option.any_eq_true _ _).mp hany
    exact ⟨top, htracks.nearest hlater htop, hcontains⟩
  · intro ⟨ancestor, hnearest, hcontains⟩
    have hmem : ancestor ∈ ancestors rowPath stack candidate :=
      (htracks.mem_ancestors hlater).mpr ⟨hnearest.mem, hnearest.above⟩
    cases htop : (ancestors rowPath stack candidate).head? with
    | none =>
      rw [List.head?_eq_none_iff.mp htop] at hmem
      exact absurd hmem not_mem_nil
    | some top =>
      have htopNearest := htracks.nearest hlater htop
      have heq : top = ancestor := by
        apply eq_of_path hsorted
        · exact htracks.kept_visited _ htopNearest.mem
        · exact htracks.kept_visited _ hnearest.mem
        · exact htopNearest.path_eq hnearest
      rw [heq]
      exact hcontains

include h hcanonical hid in
/-- A candidate is counted and leaves the rows above it on the stack. -/
lemma count_tracks : ∃ stack, (progress.count candidate.id).emitted =
    (ancestors rowPath stack candidate).map TextRow.entry ∧
      Tracks rowPath visited progress.rows stack := by
  obtain ⟨stack, hemitted, htracks⟩ := h.tracks
  have hstack : ∀ x ∈ stack, x ∈ visited := fun x hx =>
    htracks.kept_visited x (htracks.stack_kept x hx)
  exact ⟨stack, count_emitted hcanonical hid hstack hemitted, htracks⟩

include h hcanonical hid hsorted in
/-- The nearest row above a candidate has its words. -/
lemma merge (hcarried : IsCarried progress.rows candidate) :
    ReadInv maxBytes (visited ++ [candidate])
      { progress.count candidate.id with merged := progress.merged + 1 } where
  tracks := by
    obtain ⟨stack, hemitted, htracks⟩ := count_tracks h hcanonical hid
    exact ⟨_, hemitted, htracks.skip (later hsorted)⟩
  rows_visited := h.rows_visited.trans (sublist_append_left _ _)
  bytes_sum := h.bytes_sum
  bytes_le := h.bytes_le
  candidates := by
    rw [length_append]
    show progress.candidates + 1 = _
    rw [h.candidates]
    rfl
  merged := by
    rw [length_append]
    show progress.rows.length + (progress.merged + 1) = _
    rw [← Nat.add_assoc, h.merged]
    rfl
  covered := by
    intro v hv
    rcases mem_append.mp hv with hv | hv
    · exact h.covered v hv
    · rw [mem_singleton.mp hv]
      exact .inr hcarried
  notCarried := h.notCarried

include h hcanonical hid hsorted in
/-- A candidate whose words are not in a row above it becomes a row. -/
lemma push (hcarried : ¬ IsCarried progress.rows candidate)
    (hfits : progress.bytes + candidate.text.utf8ByteSize ≤ maxBytes) :
    ReadInv maxBytes (visited ++ [candidate])
      ((progress.count candidate.id).push candidate) where
  tracks := by
    obtain ⟨stack, hemitted, htracks⟩ := count_tracks h hcanonical hid
    refine ⟨_, ?_, htracks.push (later hsorted)⟩
    show candidate.entry :: (progress.count candidate.id).emitted = _
    rw [hemitted]
    rfl
  rows_visited := h.rows_visited.append (List.Sublist.refl _)
  bytes_sum := by
    show progress.bytes + candidate.text.utf8ByteSize = textBytes (progress.rows ++ [candidate])
    unfold textBytes
    rw [map_append, sum_append, h.bytes_sum]
    simp [textBytes]
  bytes_le := hfits
  candidates := by
    rw [length_append]
    show progress.candidates + 1 = _
    rw [h.candidates]
    rfl
  merged := by
    show (progress.rows ++ [candidate]).length + progress.merged = _
    rw [length_append, length_append, Nat.add_right_comm, h.merged]
  covered := by
    intro v hv
    rcases mem_append.mp hv with hv | hv
    · rcases h.covered v hv with hrow | ⟨ancestor, hnearest, hcontains⟩
      · exact .inl (mem_append_left _ hrow)
      · exact .inr ⟨ancestor, hnearest.append (later hsorted v hv), hcontains⟩
    · exact .inl (mem_append_right _ hv)
  notCarried := by
    intro row hrow ⟨ancestor, hnearest, hcontains⟩
    rcases mem_append.mp hrow with hrow | hrow
    · -- what comes later is not above a row
      have hlater : ¬ rowPath candidate < rowPath row := by
        intro hlt
        have hgt := later hsorted row (h.rows_visited.subset hrow)
        exact lt_irrefl _ (lt_trans hlt hgt)
      exact h.notCarried row hrow ⟨ancestor, hnearest.of_append hlater, hcontains⟩
    · rw [mem_singleton.mp hrow] at hnearest hcontains
      exact hcarried ⟨ancestor, hnearest.of_append (lt_irrefl _), hcontains⟩

end ReadInv

section
variable {isAlphanumeric : Char → Bool} {within : Option (Int × Int × Int × Int)}
  {maxBytes : Nat} {node : A11yNode} {rest : List A11yNode} {row : TextRow} {progress : Progress}

lemma readNodes_pass (h : candidateRow isAlphanumeric within node = none) :
    readNodes isAlphanumeric within maxBytes (node :: rest) progress =
      readNodes isAlphanumeric within maxBytes rest progress := by
  unfold candidateRow at h
  rw [readNodes]
  split
  · rfl
  · rename_i hvisible
    rw [if_neg hvisible] at h
    rw [Option.map_eq_none_iff.mp h]

lemma readNodes_candidate (h : candidateRow isAlphanumeric within node = some row) :
    readNodes isAlphanumeric within maxBytes (node :: rest) progress =
      if (progress.count row.id).carries row.text = true then
        readNodes isAlphanumeric within maxBytes rest
          { progress.count row.id with merged := progress.merged + 1 }
      else if maxBytes < progress.bytes + row.text.utf8ByteSize then
        (progress.count row.id).reading true
      else
        readNodes isAlphanumeric within maxBytes rest ((progress.count row.id).push row) := by
  have hrow := isRowOf_of_candidate h
  rw [readNodes, if_neg (by simp [hrow.showing, hrow.intersects]), hrow.label, hrow.id_eq]
  have hof : TextRow.of node row.text = row := hrow.row.symm
  simp only [hof]
  rfl

/-- The whole loop: it ends after the last candidate, or at the one that no longer fits. -/
lemma readNodes_spec (nodes : List A11yNode) {visited all : List TextRow}
    (h : ReadInv maxBytes visited progress)
    (hall : visited ++ nodes.filterMap (candidateRow isAlphanumeric within) = all)
    (hcanonical : ∀ v ∈ all, IsCanonical v.id)
    (hsorted : all.Pairwise fun a b => rowPath a < rowPath b) :
    ∃ done progress', ReadInv maxBytes done progress' ∧
      ((readNodes isAlphanumeric within maxBytes nodes progress = progress'.reading false ∧
          done = all) ∨
        ∃ next later, done ++ next :: later = all ∧
          readNodes isAlphanumeric within maxBytes nodes progress =
            (progress'.count next.id).reading true) := by
  induction nodes generalizing visited progress with
  | nil =>
    refine ⟨visited, progress, h, .inl ⟨rfl, ?_⟩⟩
    rw [← hall, filterMap_nil, append_nil]
  | cons node rest ih =>
    cases hrow : candidateRow isAlphanumeric within node with
    | none =>
      rw [filterMap_cons_none hrow] at hall
      rw [readNodes_pass hrow]
      exact ih h hall
    | some row =>
      rw [filterMap_cons_some hrow] at hall
      have hnext : (visited ++ [row]) ++ rest.filterMap (candidateRow isAlphanumeric within) =
          all := by
        rw [← hall, append_assoc]
        rfl
      have hvisited : ∀ v ∈ visited, IsCanonical v.id := by
        intro v hv
        apply hcanonical
        rw [← hall]
        exact mem_append_left _ hv
      have hid : IsCanonical row.id := by
        apply hcanonical
        rw [← hall]
        exact mem_append_right _ mem_cons_self
      have hsortedNext : (visited ++ [row]).Pairwise fun a b => rowPath a < rowPath b := by
        rw [← hnext] at hsorted
        exact (pairwise_append.mp hsorted).1
      rw [readNodes_candidate hrow]
      by_cases hcarried : IsCarried progress.rows row
      · rw [if_pos ((h.carries_iff hvisited hid hsortedNext).mpr hcarried)]
        exact ih (h.merge hvisited hid hsortedNext hcarried) hnext
      · rw [if_neg fun hcarries => hcarried
          ((h.carries_iff hvisited hid hsortedNext).mp hcarries)]
        by_cases hfits : maxBytes < progress.bytes + row.text.utf8ByteSize
        · rw [if_pos hfits]
          exact ⟨visited, progress, h, .inr ⟨row, _, hall, rfl⟩⟩
        · rw [if_neg hfits]
          exact ih (h.push hvisited hid hsortedNext hcarried (Nat.not_lt.mp hfits)) hnext

/-! ### Budgets -/

/-- What was read stays. -/
lemma readNodes_keeps (nodes : List A11yNode) :
    progress.rows <+: (readNodes isAlphanumeric within maxBytes nodes progress).rows ∧
      progress.bytes ≤ (readNodes isAlphanumeric within maxBytes nodes progress).bytes := by
  induction nodes generalizing progress with
  | nil => exact ⟨prefix_refl _, Nat.le_refl _⟩
  | cons node rest ih =>
    cases hrow : candidateRow isAlphanumeric within node with
    | none =>
      rw [readNodes_pass hrow]
      exact ih
    | some row =>
      rw [readNodes_candidate hrow]
      split
      · exact @ih { progress.count row.id with merged := progress.merged + 1 }
      · split
        · exact ⟨prefix_refl _, Nat.le_refl _⟩
        · obtain ⟨hrows, hbytes⟩ := @ih ((progress.count row.id).push row)
          exact ⟨(prefix_append _ _).trans hrows, (Nat.le_add_right _ _).trans hbytes⟩

/-- A reading that was not cut is the one under every budget that its text fits. -/
lemma readNodes_of_fits (nodes : List A11yNode) {maxBytes' : Nat}
    (hwhole : (readNodes isAlphanumeric within maxBytes nodes progress).truncated = false)
    (hfits : (readNodes isAlphanumeric within maxBytes nodes progress).bytes ≤ maxBytes') :
    readNodes isAlphanumeric within maxBytes' nodes progress =
      readNodes isAlphanumeric within maxBytes nodes progress := by
  induction nodes generalizing progress with
  | nil => rfl
  | cons node rest ih =>
    cases hrow : candidateRow isAlphanumeric within node with
    | none =>
      rw [readNodes_pass hrow] at hwhole hfits ⊢
      rw [readNodes_pass hrow]
      exact ih hwhole hfits
    | some row =>
      rw [readNodes_candidate hrow] at hwhole hfits ⊢
      rw [readNodes_candidate hrow]
      split at hwhole
      · rename_i hcarries
        simp only [hcarries, if_true] at hfits ⊢
        exact ih hwhole hfits
      · rename_i hcarries
        split at hwhole
        · cases hwhole
        · rename_i hroom
          rw [if_neg hcarries, if_neg hroom] at hfits
          rw [if_neg hcarries, if_neg hcarries, if_neg hroom, if_neg]
          · exact ih hwhole hfits
          · have hkept := (@readNodes_keeps isAlphanumeric within maxBytes
              ((progress.count row.id).push row) rest).2
            have hbytes : progress.bytes + row.text.utf8ByteSize ≤ _ := hkept
            omega

/-- A smaller budget yields a prefix of the rows. -/
lemma readNodes_prefix (nodes : List A11yNode) {maxBytes' : Nat} (hle : maxBytes ≤ maxBytes') :
    (readNodes isAlphanumeric within maxBytes nodes progress).rows <+:
      (readNodes isAlphanumeric within maxBytes' nodes progress).rows := by
  induction nodes generalizing progress with
  | nil => exact prefix_refl _
  | cons node rest ih =>
    cases hrow : candidateRow isAlphanumeric within node with
    | none =>
      rw [readNodes_pass hrow, readNodes_pass hrow]
      exact ih
    | some row =>
      have hkeeps := (@readNodes_keeps isAlphanumeric within maxBytes' progress (node :: rest)).1
      rw [readNodes_candidate hrow] at hkeeps ⊢
      rw [readNodes_candidate hrow]
      by_cases hcarries : (progress.count row.id).carries row.text = true
      · rw [if_pos hcarries, if_pos hcarries]
        exact ih
      · rw [if_neg hcarries] at hkeeps ⊢
        rw [if_neg hcarries]
        by_cases hroom : maxBytes < progress.bytes + row.text.utf8ByteSize
        · rw [if_pos hroom]
          exact hkeeps
        · rw [if_neg hroom, if_neg (by omega)]
          exact ih

end

/-! ### The reading -/

section
variable {isAlphanumeric : Char → Bool} {within : Option (Int × Int × Int × Int)}
  {nodes nodes' : List A11yNode}

lemma mem_inReadingOrder {node : A11yNode} : node ∈ inReadingOrder nodes ↔ node ∈ nodes :=
  (mergeSort_perm _ _).mem_iff

/-- Distinct canonical ids are read in strictly increasing order. -/
lemma inReadingOrder_sorted (hdistinct : (nodes.map A11yNode.id).Nodup)
    (hcanonical : ∀ node ∈ nodes, IsCanonical node.id) :
    (inReadingOrder nodes).Pairwise fun a b => path a.id < path b.id := by
  have hle : (inReadingOrder nodes).Pairwise fun a b => path a.id ≤ path b.id := by
    have hsorted : (inReadingOrder nodes).Pairwise fun a b =>
        decide (path a.id ≤ path b.id) = true := by
      apply pairwise_mergeSort
      · intro a b c hab hbc
        exact decide_eq_true (le_trans (of_decide_eq_true hab) (of_decide_eq_true hbc))
      · intro a b
        rw [Bool.or_eq_true, decide_eq_true_iff, decide_eq_true_iff]
        exact le_total _ _
    exact hsorted.imp of_decide_eq_true
  have hids : (inReadingOrder nodes).Pairwise fun a b => a.id ≠ b.id := by
    have hnodup : ((inReadingOrder nodes).map A11yNode.id).Nodup :=
      (((mergeSort_perm _ _).map _).nodup_iff).mpr hdistinct
    exact pairwise_map.mp hnodup
  have hboth := hle.and hids
  apply hboth.imp_of_mem
  intro a b ha hb ⟨hab, hne⟩
  refine lt_of_le_of_ne hab fun heq => hne ?_
  exact (hcanonical a (mem_inReadingOrder.mp ha)).eq_of_path
    (hcanonical b (mem_inReadingOrder.mp hb)) heq

/-- The order in which the tree lists its nodes does not matter. -/
lemma inReadingOrder_perm (hdistinct : (nodes.map A11yNode.id).Nodup)
    (hcanonical : ∀ node ∈ nodes, IsCanonical node.id) (hperm : nodes'.Perm nodes) :
    inReadingOrder nodes' = inReadingOrder nodes := by
  have hdistinct' : (nodes'.map A11yNode.id).Nodup := ((hperm.map _).nodup_iff).mpr hdistinct
  have hcanonical' : ∀ node ∈ nodes', IsCanonical node.id := fun node hnode =>
    hcanonical node (hperm.mem_iff.mp hnode)
  refine List.Perm.eq_of_pairwise ?_ (inReadingOrder_sorted hdistinct' hcanonical')
    (inReadingOrder_sorted hdistinct hcanonical) ?_
  · intro a b _ _ hab hba
    exact absurd (lt_trans hab hba) (lt_irrefl _)
  · exact ((mergeSort_perm _ _).trans hperm).trans (mergeSort_perm _ _).symm

lemma mem_candidateRows {row : TextRow} (h : row ∈ candidateRows isAlphanumeric within nodes) :
    ∃ node ∈ nodes, IsRowOf isAlphanumeric within node row := by
  obtain ⟨node, hnode, hrow⟩ := mem_filterMap.mp h
  exact ⟨node, mem_inReadingOrder.mp hnode, isRowOf_of_candidate hrow⟩

lemma candidateRows_sorted (hdistinct : (nodes.map A11yNode.id).Nodup)
    (hcanonical : ∀ node ∈ nodes, IsCanonical node.id) :
    (candidateRows isAlphanumeric within nodes).Pairwise fun a b => rowPath a < rowPath b := by
  apply pairwise_filterMap.mpr
  apply (inReadingOrder_sorted hdistinct hcanonical).imp
  intro a b hab row hrow row' hrow'
  unfold rowPath
  rw [(isRowOf_of_candidate hrow).id_eq, (isRowOf_of_candidate hrow').id_eq]
  exact hab

/-- A reading of a tree under a budget. -/
structure IsReading (isAlphanumeric : Char → Bool) (within : Option (Int × Int × Int × Int))
    (maxBytes : Nat) (nodes : List A11yNode) (reading : Reading) : Prop where
  ordered : reading.rows.Pairwise fun a b => rowPath a < rowPath b
  shown : ∀ row ∈ reading.rows, ∃ node ∈ nodes, IsRowOf isAlphanumeric within node row
  bytes_sum : reading.bytes = textBytes reading.rows
  bytes_le : reading.bytes ≤ maxBytes
  candidates : reading.candidates =
    reading.rows.length + reading.merged + if reading.truncated then 1 else 0
  candidates_le : reading.candidates ≤ (candidateRows isAlphanumeric within nodes).length
  /-- The candidates before the one that no longer fits are rows, or are in the row above them. -/
  covered : ∀ candidate ∈ (candidateRows isAlphanumeric within nodes).take
    (reading.rows.length + reading.merged),
      candidate ∈ reading.rows ∨ IsCarried reading.rows candidate
  whole : reading.truncated = false →
    reading.candidates = (candidateRows isAlphanumeric within nodes).length
  notCarried : ∀ row ∈ reading.rows, ¬ IsCarried reading.rows row

/-- What the loop has after some of the candidates is a reading. -/
lemma ReadInv.isReading {maxBytes : Nat} {done later : List TextRow} {progress : Progress}
    {reading : Reading} (h : ReadInv maxBytes done progress)
    (hdone : done ++ later = candidateRows isAlphanumeric within nodes)
    (hsorted : (candidateRows isAlphanumeric within nodes).Pairwise
      fun a b => rowPath a < rowPath b)
    (hrows : reading.rows = progress.rows) (hbytes : reading.bytes = progress.bytes)
    (hmerged : reading.merged = progress.merged)
    (hcandidates : reading.candidates = done.length + if reading.truncated then 1 else 0)
    (hlater : later = [] ↔ reading.truncated = false) :
    IsReading isAlphanumeric within maxBytes nodes reading := by
  have hcount : reading.rows.length + reading.merged = done.length := by
    rw [hrows, hmerged, h.merged]
  have hlength : (candidateRows isAlphanumeric within nodes).length =
      done.length + later.length := by
    rw [← hdone, length_append]
  have hsub : reading.rows.Sublist (candidateRows isAlphanumeric within nodes) := by
    rw [hrows, ← hdone]
    exact h.rows_visited.trans (sublist_append_left _ _)
  constructor
  · exact hsorted.sublist hsub
  · intro row hrow
    exact mem_candidateRows (hsub.subset hrow)
  · rw [hbytes, h.bytes_sum, hrows]
  · rw [hbytes]
    exact h.bytes_le
  · rw [hcount, hcandidates]
  · rw [hlength, hcandidates]
    split
    · rename_i htruncated
      have hne : later ≠ [] := by
        intro hnil
        rw [hlater.mp hnil] at htruncated
        cases htruncated
      have := length_pos_of_ne_nil hne
      omega
    · omega
  · intro candidate hcandidate
    rw [hcount, ← hdone, take_left] at hcandidate
    rw [hrows]
    exact h.covered candidate hcandidate
  · intro hwhole
    rw [hlength, hcandidates, hwhole, hlater.mpr hwhole]
    rfl
  · rw [hrows]
    exact h.notCarried

lemma read_isReading (maxBytes : Nat) (hdistinct : (nodes.map A11yNode.id).Nodup)
    (hcanonical : ∀ node ∈ nodes, IsCanonical node.id) :
    IsReading isAlphanumeric within maxBytes nodes
      (read isAlphanumeric within maxBytes nodes) := by
  have hsorted : (candidateRows isAlphanumeric within nodes).Pairwise
      fun a b => rowPath a < rowPath b := candidateRows_sorted hdistinct hcanonical
  have hids : ∀ v ∈ candidateRows isAlphanumeric within nodes, IsCanonical v.id := by
    intro v hv
    obtain ⟨node, hnode, hrow⟩ := mem_candidateRows hv
    rw [hrow.id_eq]
    exact hcanonical node hnode
  obtain ⟨done, progress, hinv, ⟨hread, hdone⟩ | ⟨next, later, hdone, hread⟩⟩ :=
    readNodes_spec (inReadingOrder nodes) ReadInv.start (nil_append _) hids hsorted
  · unfold read
    rw [hread]
    have hall : done ++ [] = candidateRows isAlphanumeric within nodes := by
      rw [append_nil, hdone]
      rfl
    apply hinv.isReading hall hsorted rfl rfl rfl
    · exact hinv.candidates
    · exact iff_of_true rfl rfl
  · unfold read
    rw [hread]
    apply hinv.isReading hdone hsorted rfl rfl rfl
    · show progress.candidates + 1 = done.length + 1
      rw [hinv.candidates]
    · exact iff_of_false (cons_ne_nil _ _) (show ¬ true = false by decide)

/-- A reading is in reading order, within its budget, and loses no words. What is whole depends
neither on the order of the nodes nor on the budget. -/
theorem page_text_loses_nothing (isAlphanumeric : Char → Bool)
    (within : Option (Int × Int × Int × Int)) (nodes : List A11yNode)
    (hdistinct : (nodes.map A11yNode.id).Nodup)
    (hcanonical : ∀ node ∈ nodes, IsCanonical node.id) :
    (∀ maxBytes, IsReading isAlphanumeric within maxBytes nodes
      (read isAlphanumeric within maxBytes nodes)) ∧
    (∀ nodes', nodes'.Perm nodes → ∀ maxBytes,
      read isAlphanumeric within maxBytes nodes' = read isAlphanumeric within maxBytes nodes) ∧
    (∀ maxBytes maxBytes',
      (read isAlphanumeric within maxBytes nodes).truncated = false →
      (read isAlphanumeric within maxBytes' nodes).truncated = false →
      read isAlphanumeric within maxBytes nodes = read isAlphanumeric within maxBytes' nodes) ∧
    (∀ maxBytes maxBytes', maxBytes ≤ maxBytes' →
      (read isAlphanumeric within maxBytes nodes).rows <+:
        (read isAlphanumeric within maxBytes' nodes).rows) := by
  have hreading : ∀ maxBytes, IsReading isAlphanumeric within maxBytes nodes
      (read isAlphanumeric within maxBytes nodes) :=
    fun maxBytes => read_isReading maxBytes hdistinct hcanonical
  refine ⟨hreading, ?_, ?_, ?_⟩
  · intro nodes' hperm maxBytes
    unfold read
    rw [inReadingOrder_perm hdistinct hcanonical hperm]
  · intro maxBytes maxBytes' hwhole hwhole'
    rcases Nat.le_total maxBytes maxBytes' with hle | hle
    · have hfits := (hreading maxBytes).bytes_le.trans hle
      exact (readNodes_of_fits _ hwhole hfits).symm
    · have hfits := (hreading maxBytes').bytes_le.trans hle
      exact readNodes_of_fits _ hwhole' hfits
  · intro maxBytes maxBytes' hle
    exact readNodes_prefix _ hle

/-- A link and the text inside it, the text first. -/
def linkNodes : List A11yNode :=
  [⟨"/0/1", "static-text", "", ["showing"], ⟨0, 0, 9, 9⟩, [], some "Privacy"⟩,
    ⟨"/0", "link", "Privacy Statement", ["showing"], ⟨0, 0, 9, 9⟩, ["click"], none⟩]

theorem page_text_loses_nothing_link :
    IsReading Char.isAlphanum none 20 linkNodes (read Char.isAlphanum none 20 linkNodes) := by
  have hcanonical : ∀ node ∈ linkNodes, IsCanonical node.id := by
    intro node hnode
    rcases mem_cons.mp hnode with rfl | hnode
    · exact ⟨[0, 1], by decide, by decide⟩
    · rw [mem_singleton.mp hnode]
      exact ⟨[0], by decide, by decide⟩
  exact (page_text_loses_nothing Char.isAlphanum none linkNodes (by decide) hcanonical).1 20

end

end Agenterm.Cu.PageText
