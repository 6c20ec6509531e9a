import Mathlib.Data.List.Infix
import Mathlib.Algebra.Order.Ring.Int
import Mathlib.Tactic.Linarith

/-!
# Placeholders replaced one after the other

`replaceAll` replaces the occurrences of one placeholder from left to right. A text with several
placeholders can be replaced in passes, one for each, or at once (`substitute`). The passes see what
earlier ones have put in: they agree with the text in which just the placeholders of the template
itself are replaced as long as a pass meets no others (`passes_eq_iff`).

The placeholders all start with the same mark, which they do not contain again, so that two of them
never overlap.
-/

namespace Agenterm.Lib

open List

variable {α : Type}

/-! ## Texts with gaps -/

/-- A text in which `none` stands for the placeholder of the pass. -/
def fill (x : List α) (pieces : List (Option α)) : List α :=
  pieces.flatMap fun piece => piece.elim x fun c => [c]

@[simp] lemma fill_nil (x : List α) : fill x [] = [] := rfl

@[simp] lemma fill_none (x : List α) (rest : List (Option α)) :
    fill x (none :: rest) = x ++ fill x rest := rfl

@[simp] lemma fill_some (x : List α) (c : α) (rest : List (Option α)) :
    fill x (some c :: rest) = c :: fill x rest := rfl

lemma fill_append (x : List α) (front back : List (Option α)) :
    fill x (front ++ back) = fill x front ++ fill x back := flatMap_append

@[simp] lemma fill_map_some (x text : List α) : fill x (text.map some) = text := by
  induction text with
  | nil => rfl
  | cons c text ih => rw [map_cons, fill_some, ih]

/-! ## Replacement -/

/-- Replace the pattern behind the elements that are skipped. -/
def replaceFrom [DecidableEq α] (pattern value : List α) : Nat → List α → List α
  | _, [] => []
  | skip + 1, _ :: rest => replaceFrom pattern value skip rest
  | 0, c :: rest =>
    if pattern.isPrefixOf (c :: rest) then
      value ++ replaceFrom pattern value (pattern.length - 1) rest
    else c :: replaceFrom pattern value 0 rest

/-- All occurrences of the pattern, from left to right. -/
def replaceAll [DecidableEq α] (pattern value text : List α) : List α := replaceFrom pattern value 0 text

/-- A placeholder starts with the mark and has no other. -/
def IsPlaceholder (mark : α) (pattern : List α) : Prop :=
  ∃ body, pattern = mark :: body ∧ mark ∉ body

instance decidableIsPlaceholder [DecidableEq α] (mark : α) :
    (pattern : List α) → Decidable (IsPlaceholder mark pattern)
  | [] => isFalse fun h => cons_ne_nil _ _ h.choose_spec.1.symm
  | c :: body =>
    decidable_of_iff (c = mark ∧ mark ∉ body) (by
      constructor
      · intro h
        exact ⟨body, by rw [h.1], h.2⟩
      · intro ⟨rest, hrest, hmark⟩
        obtain ⟨rfl, rfl⟩ := cons_eq_cons.mp hrest
        exact ⟨rfl, hmark⟩)

section
variable [DecidableEq α] {mark : α} {pattern value : List α}

lemma replaceFrom_eq_drop (skip : Nat) (text : List α) :
    replaceFrom pattern value skip text = replaceAll pattern value (text.drop skip) := by
  induction skip generalizing text with
  | zero => rfl
  | succ skip ih =>
    cases text with
    | nil => rfl
    | cons c rest => exact ih rest

lemma replaceAll_append (hpattern : pattern ≠ []) (rest : List α) :
    replaceAll pattern value (pattern ++ rest) = value ++ replaceAll pattern value rest := by
  obtain ⟨c, body, rfl⟩ := exists_cons_of_ne_nil hpattern
  have hfront : (c :: body).isPrefixOf (c :: (body ++ rest)) = true := by
    rw [List.isPrefixOf_iff_prefix]
    exact prefix_append (c :: body) rest
  show replaceFrom (c :: body) value 0 (c :: (body ++ rest)) = _
  rw [replaceFrom, if_pos hfront, replaceFrom_eq_drop]
  simp

lemma replaceAll_cons {c : α} {rest : List α} (h : ¬pattern <+: c :: rest) :
    replaceAll pattern value (c :: rest) = c :: replaceAll pattern value rest := by
  show replaceFrom pattern value 0 (c :: rest) = _
  rw [replaceFrom, if_neg (by rwa [List.isPrefixOf_iff_prefix])]
  rfl

/-! ## One pass -/

/-- The placeholder stands in the filled text where the text has none of its own. -/
def Foreign (pattern : List α) : List (Option α) → Prop
  | [] => False
  | none :: rest => Foreign pattern rest
  | some c :: rest => pattern <+: c :: fill pattern rest ∨ Foreign pattern rest

instance decidableForeign (pattern : List α) :
    (pieces : List (Option α)) → Decidable (Foreign pattern pieces)
  | [] => isFalse fun h => h
  | none :: rest => decidableForeign pattern rest
  | some _ :: rest =>
    have := decidableForeign pattern rest
    inferInstanceAs (Decidable (_ ∨ _))

omit [DecidableEq α] in
/-- What stands in front of the filled text without a mark is text. -/
lemma fill_front (hpattern : IsPlaceholder mark pattern) {body : List α} (hbody : mark ∉ body)
    {pieces : List (Option α)} (h : body <+: fill pattern pieces) :
    ∃ rest, pieces = body.map some ++ rest := by
  induction body generalizing pieces with
  | nil => exact ⟨pieces, rfl⟩
  | cons b body ih =>
    obtain ⟨hb, hrest⟩ := not_or.mp (mt mem_cons.mpr hbody)
    cases pieces with
    | nil => exact absurd h (by simp)
    | cons piece pieces =>
      cases piece with
      | none =>
        obtain ⟨body', rfl, -⟩ := hpattern
        rw [fill_none, cons_append, cons_prefix_cons] at h
        exact absurd h.1.symm hb
      | some c =>
        rw [fill_some, cons_prefix_cons] at h
        obtain ⟨rest, rfl⟩ := ih hrest h.2
        exact ⟨rest, by rw [h.1]; rfl⟩

omit [DecidableEq α] in
/-- How a placeholder that is not the text's own splits the text. -/
lemma foreign_front (hpattern : IsPlaceholder mark pattern) {c : α} {pieces : List (Option α)}
    (h : pattern <+: c :: fill pattern pieces) :
    ∃ rest, some c :: pieces = pattern.map some ++ rest := by
  obtain ⟨body, hbody, hmark⟩ := id hpattern
  rw [hbody, cons_prefix_cons] at h
  obtain ⟨rest, rfl⟩ := fill_front hpattern hmark (hbody ▸ h.2)
  exact ⟨rest, by rw [hbody, h.1]; rfl⟩

lemma replaceAll_fill (hpattern : IsPlaceholder mark pattern) {pieces : List (Option α)}
    (h : ¬Foreign pattern pieces) :
    replaceAll pattern value (fill pattern pieces) = fill value pieces := by
  have hne : pattern ≠ [] := by
    obtain ⟨body, rfl, -⟩ := hpattern
    exact cons_ne_nil _ _
  induction pieces with
  | nil => rfl
  | cons piece pieces ih =>
    cases piece with
    | none => rw [fill_none, fill_none, replaceAll_append hne, ih h]
    | some c =>
      obtain ⟨hhere, hlater⟩ := not_or.mp h
      rw [fill_some, fill_some, replaceAll_cons hhere, ih hlater]

/-- Every replacement that is not the text's own changes the length by the same amount. -/
lemma length_replaceAll_fill (hpattern : IsPlaceholder mark pattern) (pieces : List (Option α)) :
    ∃ count : Nat, ((replaceAll pattern value (fill pattern pieces)).length : Int) =
        (fill value pieces).length + count * ((value.length : Int) - pattern.length) ∧
      (Foreign pattern pieces → 0 < count) := by
  have hne : pattern ≠ [] := by
    obtain ⟨body, rfl, -⟩ := hpattern
    exact cons_ne_nil _ _
  have hpos := length_pos_iff.mpr hne
  induction hn : pieces.length using Nat.strong_induction_on generalizing pieces with
  | h n ih =>
    cases pieces with
    | nil => exact ⟨0, by simp [replaceAll, replaceFrom], fun h => h.elim⟩
    | cons piece pieces =>
      cases piece with
      | none =>
        obtain ⟨count, hcount, hforeign⟩ := ih _ (by rw [← hn]; exact Nat.lt_succ_self _) pieces rfl
        refine ⟨count, ?_, hforeign⟩
        rw [fill_none, fill_none, replaceAll_append hne, length_append, length_append]
        push_cast
        linarith
      | some c =>
        by_cases hhere : pattern <+: c :: fill pattern pieces
        · -- This one is not the text's own.
          obtain ⟨rest, hrest⟩ := foreign_front hpattern hhere
          rw [hrest] at hn ⊢
          rw [length_append, length_map] at hn
          obtain ⟨count, hcount, -⟩ := ih rest.length (by omega) rest rfl
          refine ⟨count + 1, ?_, fun _ => Nat.succ_pos _⟩
          rw [fill_append, fill_map_some, fill_append, fill_map_some, replaceAll_append hne,
            length_append, length_append]
          push_cast
          linarith
        · obtain ⟨count, hcount, hforeign⟩ := ih _ (by rw [← hn]; exact Nat.lt_succ_self _) pieces rfl
          refine ⟨count, ?_, fun h => hforeign (h.resolve_left hhere)⟩
          rw [fill_some, fill_some, replaceAll_cons hhere, length_cons, length_cons]
          push_cast
          linarith

/-- A value as long as the placeholder is put in the place of one that is not the text's own. -/
lemma value_eq_of_foreign (hpattern : IsPlaceholder mark pattern)
    (hlength : value.length = pattern.length) {pieces : List (Option α)}
    (h : Foreign pattern pieces)
    (heq : replaceAll pattern value (fill pattern pieces) = fill value pieces) :
    value = pattern := by
  have hne : pattern ≠ [] := by
    obtain ⟨body, rfl, -⟩ := hpattern
    exact cons_ne_nil _ _
  induction pieces with
  | nil => exact h.elim
  | cons piece pieces ih =>
    cases piece with
    | none =>
      rw [fill_none, fill_none, replaceAll_append hne] at heq
      exact ih h (append_cancel_left heq)
    | some c =>
      by_cases hhere : pattern <+: c :: fill pattern pieces
      · obtain ⟨rest, hrest⟩ := foreign_front hpattern hhere
        rw [hrest, fill_append, fill_map_some, fill_append, fill_map_some,
          replaceAll_append hne] at heq
        exact (append_inj heq hlength).1
      · rw [fill_some, fill_some, replaceAll_cons hhere] at heq
        exact ih (h.resolve_left hhere) (cons_inj_right _ |>.mp heq)

lemma replaceAll_self (hpattern : IsPlaceholder mark pattern) (text : List α) :
    replaceAll pattern pattern text = text := by
  have hne : pattern ≠ [] := by
    obtain ⟨body, rfl, -⟩ := hpattern
    exact cons_ne_nil _ _
  have hpos := length_pos_iff.mpr hne
  induction hn : text.length using Nat.strong_induction_on generalizing text with
  | h n ih =>
    cases text with
    | nil => rfl
    | cons c text =>
      by_cases hhere : pattern <+: c :: text
      · obtain ⟨rest, hrest⟩ := hhere
        rw [← hrest, length_append] at hn
        rw [← hrest, replaceAll_append hne, ih rest.length (by omega) rest rfl]
      · rw [replaceAll_cons hhere, ih _ (by rw [← hn]; exact Nat.lt_succ_self _) text rfl]

/-- A pass replaces the text's own placeholders and no others exactly where it meets no others, or
would put the same text in their place. -/
theorem replaceAll_fill_iff (hpattern : IsPlaceholder mark pattern) (pieces : List (Option α)) :
    replaceAll pattern value (fill pattern pieces) = fill value pieces ↔
      value = pattern ∨ ¬Foreign pattern pieces := by
  constructor
  · intro heq
    by_cases hforeign : Foreign pattern pieces
    · obtain ⟨count, hcount, hpositive⟩ :=
        @length_replaceAll_fill α _ mark pattern value hpattern pieces
      rw [heq] at hcount
      have hlength : value.length = pattern.length := by
        have hzero : (count : Int) * ((value.length : Int) - pattern.length) = 0 := by linarith
        rcases Int.mul_eq_zero.mp hzero with hnone | hsame
        · have := hpositive hforeign
          omega
        · omega
      exact .inl (value_eq_of_foreign hpattern hlength hforeign heq)
    · exact .inr hforeign
  · intro h
    rcases h with rfl | h
    · exact replaceAll_self hpattern _
    · exact replaceAll_fill hpattern h

end

/-! ## One pass after the other -/

section
variable (table : List (List α × List α))

/-- The template as text and placeholders, which are given by their place in the table. -/
def parseFrom [DecidableEq α] : Nat → List α → List (α ⊕ Nat)
  | _, [] => []
  | skip + 1, _ :: rest => parseFrom skip rest
  | 0, c :: rest =>
    match table.findIdx? fun p => p.1.isPrefixOf (c :: rest) with
    | some j => .inr j :: parseFrom ((table[j]?.elim [] Prod.fst).length - 1) rest
    | none => .inl c :: parseFrom 0 rest

/-- What stands for a placeholder when the first `k` of the table have their values. -/
def standsFor (k j : Nat) : List α :=
  if j < k then table[j]?.elim [] Prod.snd else table[j]?.elim [] Prod.fst

/-- The template in which the first `k` placeholders of the table have their values. -/
def stage (k : Nat) (pieces : List (α ⊕ Nat)) : List α :=
  pieces.flatMap (Sum.elim (fun c => [c]) (standsFor table k))

/-- The same with the next placeholder left open. -/
def marked (k : Nat) (pieces : List (α ⊕ Nat)) : List (Option α) :=
  pieces.flatMap (Sum.elim (fun c => [some c]) fun j =>
    if j = k then [none] else (standsFor table k j).map some)

/-- The template with the placeholders of the table replaced at once. -/
def substitute [DecidableEq α] (template : List α) : List α :=
  stage table table.length (parseFrom table 0 template)

/-- The template after the first `k` passes. -/
def passes [DecidableEq α] (k : Nat) (template : List α) : List α :=
  (table.take k).foldl (fun text p => replaceAll p.1 p.2 text) template

variable {table} {mark : α} {k : Nat} {p : List α × List α}

lemma fill_marked {x : List α} {later : Nat} (hplace : standsFor table later k = x)
    (hothers : ∀ j, j ≠ k → standsFor table later j = standsFor table k j)
    (pieces : List (α ⊕ Nat)) : fill x (marked table k pieces) = stage table later pieces := by
  induction pieces with
  | nil => rfl
  | cons piece pieces ih =>
    rw [marked, stage, flatMap_cons, flatMap_cons, fill_append]
    refine congrArg₂ (· ++ ·) ?_ ih
    cases piece with
    | inl c => rfl
    | inr j =>
      simp only [Sum.elim_inr]
      split
      next hj =>
        rw [hj, hplace]
        exact append_nil x
      next hj => rw [fill_map_some, hothers j hj]

lemma fill_marked_pattern (hp : table[k]? = some p) (pieces : List (α ⊕ Nat)) :
    fill p.1 (marked table k pieces) = stage table k pieces := by
  apply fill_marked
  · rw [standsFor, if_neg (Nat.lt_irrefl k), hp]
    rfl
  · intro j _
    rfl

lemma fill_marked_value (hp : table[k]? = some p) (pieces : List (α ⊕ Nat)) :
    fill p.2 (marked table k pieces) = stage table (k + 1) pieces := by
  apply fill_marked
  · rw [standsFor, if_pos (Nat.lt_succ_self k), hp]
    rfl
  · intro j hj
    unfold standsFor
    by_cases hlt : j < k
    · rw [if_pos hlt, if_pos (by omega)]
    · rw [if_neg hlt, if_neg (by omega)]

variable [DecidableEq α]

lemma parseFrom_eq_drop (skip : Nat) (template : List α) :
    parseFrom table skip template = parseFrom table 0 (template.drop skip) := by
  induction skip generalizing template with
  | zero => rfl
  | succ skip ih =>
    cases template with
    | nil => rfl
    | cons c rest => exact ih rest

/-- Before the first pass the template is as it was. -/
lemma stage_zero (hne : ∀ p ∈ table, p.1 ≠ []) (template : List α) :
    stage table 0 (parseFrom table 0 template) = template := by
  induction hn : template.length using Nat.strong_induction_on generalizing template with
  | h n ih =>
    cases template with
    | nil => rfl
    | cons c rest =>
      rw [length_cons] at hn
      rw [parseFrom]
      split
      next j hj =>
        obtain ⟨hlt, hfound, -⟩ := List.findIdx?_eq_some_iff_getElem.mp hj
        have hpattern : table[j]?.elim [] Prod.fst = table[j].1 := by
          rw [List.getElem?_eq_getElem hlt]
          rfl
        rw [List.isPrefixOf_iff_prefix] at hfound
        obtain ⟨body, hbody⟩ := hfound
        have hpos := length_pos_iff.mpr (hne _ (getElem_mem hlt))
        have hstep := ih body.length (by
          have hlength := congrArg List.length hbody
          rw [length_append, length_cons] at hlength
          omega) body rfl
        have hdrop : rest.drop (table[j].1.length - 1) = body := by
          have hall : (c :: rest).drop (table[j].1.length - 1 + 1) = body := by
            rw [Nat.sub_add_cancel hpos, ← hbody, drop_left]
          rwa [drop_succ_cons] at hall
        have hfirst : standsFor table 0 j = table[j].1 := hpattern
        rw [stage, flatMap_cons, ← stage, parseFrom_eq_drop, hpattern, hdrop, hstep,
          Sum.elim_inr, hfirst, hbody]
      next hnone =>
        rw [stage, flatMap_cons, ← stage, ih rest.length (by omega) rest rfl]
        rfl

/-- After every pass the text is the template with just its own placeholders replaced exactly where
each pass meets its placeholder only as one of the template's own, or puts the same text in its
place. -/
theorem passes_eq_iff (htable : ∀ p ∈ table, IsPlaceholder mark p.1) (template : List α) :
    (∀ k ≤ table.length, passes table k template = stage table k (parseFrom table 0 template)) ↔
      ∀ k p, table[k]? = some p →
        p.2 = p.1 ∨ ¬Foreign p.1 (marked table k (parseFrom table 0 template)) := by
  have hne : ∀ p ∈ table, p.1 ≠ [] := by
    intro p hp
    obtain ⟨body, hbody, -⟩ := htable p hp
    rw [hbody]
    exact cons_ne_nil _ _
  have hstep : ∀ k p, table[k]? = some p →
      passes table (k + 1) template = replaceAll p.1 p.2 (passes table k template) := by
    intro k p hp
    rw [passes, take_add_one, hp, Option.toList_some, foldl_append]
    rfl
  constructor
  · intro hall k p hp
    have hlt : k < table.length := (List.getElem?_eq_some_iff.mp hp).1
    have hnext := hall (k + 1) hlt
    rw [hstep k p hp, hall k (by omega), ← fill_marked_pattern hp, ← fill_marked_value hp] at hnext
    exact (replaceAll_fill_iff (htable p (mem_of_getElem? hp)) _).mp hnext
  · intro hall k hk
    induction k with
    | zero => rw [stage_zero hne]; rfl
    | succ k ih =>
      have hp := List.getElem?_eq_getElem hk
      rw [hstep k _ hp, ih (by omega), ← fill_marked_pattern hp, ← fill_marked_value hp]
      exact (replaceAll_fill_iff (htable _ (getElem_mem hk)) _).mpr (hall k _ hp)

end

end Agenterm.Lib
