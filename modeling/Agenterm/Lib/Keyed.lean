import Mathlib.Data.List.Forall2
import Mathlib.Data.List.Nodup
import Mathlib.Data.List.Sort

/-!
# Lists searched by a key

Tables are kept as lists: they are searched for the first element that meets a condition, and
that element is then replaced (`updateFirst`), removed (`List.eraseP`, `List.eraseIdx`), or
replaced or added by key (`upsert`). When the keys of a list are distinct, the first element
with a key is the only one (`find?_key`, `updateFirst_key`, `eraseIdx_key`, `mem_upsert`), and
sorting by the key has one result (`eq_of_perm_of_increasing`); sorting is stable
(`pairwise_insertionSort_comes`). Two lists may also be related
element by element (`exists_left_of_forall₂`, `exists_right_of_forall₂`, `map_eq_of_forall₂`), and
an element may be chosen out of a list (`mem_of_foldl_choose`, `foldl_choose_least`). The first
element that meets a condition may be taken out (`filter_eraseP_of_imp`, `perm_cons_eraseP`).
-/

namespace Agenterm.Lib

open List

section
variable {α β : Type}

/-- Replaces the first element that meets `p`. -/
def updateFirst (p : α → Bool) (f : α → α) : List α → List α
  | [] => []
  | a :: l => if p a then f a :: l else a :: updateFirst p f l

@[simp] theorem length_updateFirst (p : α → Bool) (f : α → α) (l : List α) :
    (updateFirst p f l).length = l.length := by
  induction l with
  | nil => rfl
  | cons a l ih =>
    unfold updateFirst
    split
    · rfl
    · simp only [length_cons, ih]

/-- An observation the replacement does not change is unchanged on the whole list. -/
theorem map_updateFirst {p : α → Bool} {f : α → α} {g : α → β}
    (h : ∀ a, p a → g (f a) = g a) (l : List α) :
    (updateFirst p f l).map g = l.map g := by
  induction l with
  | nil => rfl
  | cons a l ih =>
    unfold updateFirst
    split
    · rename_i hp
      simp only [map_cons, h a hp]
    · simp only [map_cons, ih]

/-- Elements that do not meet the condition stay. -/
theorem mem_updateFirst_of_neg {p : α → Bool} {f : α → α} {l : List α} {a : α}
    (ha : a ∈ l) (hp : ¬ p a) : a ∈ updateFirst p f l := by
  induction l with
  | nil => exact absurd ha not_mem_nil
  | cons b l ih =>
    unfold updateFirst
    rcases mem_cons.mp ha with rfl | hmem
    · rw [if_neg hp]
      exact mem_cons_self
    · split
      · exact mem_cons_of_mem _ hmem
      · exact mem_cons_of_mem _ (ih hmem)

/-- The replaced element is there. -/
theorem mem_updateFirst_of_find {p : α → Bool} {f : α → α} {l : List α} {a : α}
    (ha : l.find? p = some a) : f a ∈ updateFirst p f l := by
  induction l with
  | nil => exact absurd ha (by simp)
  | cons b l ih =>
    unfold updateFirst
    by_cases hp : p b
    · rw [List.find?_cons_of_pos hp, Option.some.injEq] at ha
      rw [if_pos hp, ha]
      exact mem_cons_self
    · rw [List.find?_cons_of_neg hp] at ha
      rw [if_neg hp]
      exact mem_cons_of_mem _ (ih ha)

/-- Every old element is kept or replaced. -/
theorem mem_updateFirst_or {p : α → Bool} {f : α → α} {l : List α} {a : α} (ha : a ∈ l) :
    a ∈ updateFirst p f l ∨ f a ∈ updateFirst p f l := by
  induction l with
  | nil => exact absurd ha not_mem_nil
  | cons b l ih =>
    unfold updateFirst
    split
    · rcases mem_cons.mp ha with rfl | hmem
      · exact .inr mem_cons_self
      · exact .inl (mem_cons_of_mem _ hmem)
    · rcases mem_cons.mp ha with rfl | hmem
      · exact .inl mem_cons_self
      · exact (ih hmem).imp (mem_cons_of_mem _) (mem_cons_of_mem _)

/-- Every element is an old one or the replacement of the first that met the condition. -/
theorem mem_updateFirst {p : α → Bool} {f : α → α} {l : List α} {b : α}
    (hb : b ∈ updateFirst p f l) : b ∈ l ∨ ∃ a, l.find? p = some a ∧ b = f a := by
  induction l with
  | nil => exact .inl hb
  | cons a l ih =>
    unfold updateFirst at hb
    by_cases hp : p a
    · rw [if_pos hp] at hb
      rcases mem_cons.mp hb with rfl | hmem
      · exact .inr ⟨a, List.find?_cons_of_pos hp, rfl⟩
      · exact .inl (mem_cons_of_mem _ hmem)
    · rw [if_neg hp] at hb
      rcases mem_cons.mp hb with rfl | hmem
      · exact .inl mem_cons_self
      · rcases ih hmem with hold | ⟨c, hc, rfl⟩
        · exact .inl (mem_cons_of_mem _ hold)
        · exact .inr ⟨c, by rw [List.find?_cons_of_neg hp, hc], rfl⟩

/-- With distinct keys, searching a key finds the element that has it. -/
theorem find?_key [DecidableEq β] {key : α → β} {l : List α} (hl : (l.map key).Nodup)
    {a : α} (ha : a ∈ l) {k : β} (hk : key a = k) :
    l.find? (fun b => key b = k) = some a := by
  have hsome : (l.find? fun b => decide (key b = k)).isSome := by
    rw [List.find?_isSome]
    exact ⟨a, ha, by simp [hk]⟩
  obtain ⟨b, hb⟩ := Option.isSome_iff_exists.mp hsome
  have hbk : key b = k := by simpa using List.find?_some hb
  have hab : b = a :=
    inj_on_of_nodup_map hl (mem_of_find?_eq_some hb) ha (hbk.trans hk.symm)
  rw [hb, hab]

/-- With distinct keys, replacing the first element with a key replaces all that have it. -/
theorem updateFirst_key [DecidableEq β] {key : α → β} {l : List α} (hl : (l.map key).Nodup)
    (k : β) (f : α → α) :
    updateFirst (fun a => key a = k) f l = l.map fun a => if key a = k then f a else a := by
  induction l with
  | nil => rfl
  | cons a l ih =>
    rw [map_cons, nodup_cons] at hl
    unfold updateFirst
    by_cases hk : key a = k
    · have hrest : (l.map fun a => if key a = k then f a else a) = l := by
        refine (map_congr_left fun b hb => if_neg fun hbk => ?_).trans (map_id l)
        exact hl.1 (hk.trans hbk.symm ▸ mem_map_of_mem hb)
      rw [map_cons, hrest, if_pos (by simpa using hk), if_pos hk]
    · rw [map_cons, ih hl.2, if_neg (by simpa using hk), if_neg hk]

/-- With distinct keys, removing the first element with a key removes all that have it. -/
theorem eraseIdx_key [DecidableEq β] {key : α → β} {l : List α} (hl : (l.map key).Nodup)
    (k : β) :
    l.eraseIdx (l.findIdx fun a => key a = k) = l.filter fun a => key a ≠ k := by
  induction l with
  | nil => rfl
  | cons a l ih =>
    rw [map_cons, nodup_cons] at hl
    by_cases hk : key a = k
    · have hrest : l.filter (fun a => decide (key a ≠ k)) = l := by
        rw [filter_eq_self]
        intro b hb
        have hne : key b ≠ k := fun hbk =>
          hl.1 (hk.trans hbk.symm ▸ mem_map_of_mem hb)
        simpa using hne
      rw [findIdx_cons, filter_cons_of_neg (by simpa using hk), hrest]
      simp [hk]
    · rw [findIdx_cons, filter_cons_of_pos (by simpa using hk), ← ih hl.2]
      simp [hk]

/-! ## Replacing or adding by key -/

/-- Replaces the element that has the key of `a`, or adds `a` at the end. -/
def upsert [DecidableEq β] (key : α → β) (l : List α) (a : α) : List α :=
  if l.any fun b => key b = key a then
    updateFirst (fun b => key b = key a) (fun _ => a) l
  else
    l ++ [a]

/-- With distinct keys, a list changed by `upsert` has the new element and those of other keys. -/
theorem mem_upsert [DecidableEq β] {key : α → β} {l : List α} (hl : (l.map key).Nodup)
    {a b : α} : b ∈ upsert key l a ↔ b = a ∨ b ∈ l ∧ key b ≠ key a := by
  unfold upsert
  split
  · rename_i hany
    obtain ⟨c, hc, hkey⟩ := any_eq_true.mp hany
    rw [updateFirst_key hl, mem_map]
    constructor
    · rintro ⟨d, hd, rfl⟩
      by_cases hk : key d = key a
      · exact .inl (if_pos hk)
      · rw [if_neg hk]
        exact .inr ⟨hd, hk⟩
    · rintro (rfl | ⟨hb, hk⟩)
      · exact ⟨c, hc, if_pos (by simpa using hkey)⟩
      · exact ⟨b, hb, if_neg hk⟩
  · rename_i hany
    rw [mem_append, mem_singleton]
    constructor
    · rintro (hb | rfl)
      · exact .inr ⟨hb, fun hk => hany (any_eq_true.mpr ⟨b, hb, by simpa using hk⟩)⟩
      · exact .inl rfl
    · rintro (rfl | ⟨hb, -⟩)
      · exact .inr rfl
      · exact .inl hb

theorem nodup_upsert [DecidableEq β] {key : α → β} {l : List α} (hl : (l.map key).Nodup)
    (a : α) : ((upsert key l a).map key).Nodup := by
  unfold upsert
  split
  · rw [map_updateFirst (by simpa using fun b hb => Eq.symm hb)]
    exact hl
  · rename_i hany
    rw [map_append, nodup_append]
    refine ⟨hl, by simp, ?_⟩
    intro x hx y hy hxy
    obtain ⟨b, hb, rfl⟩ := mem_map.mp hx
    rw [map_singleton, mem_singleton] at hy
    exact hany (any_eq_true.mpr ⟨b, hb, by simpa using hxy.trans hy⟩)

theorem nodup_foldl_upsert [DecidableEq β] {key : α → β} {l : List α}
    (hl : (l.map key).Nodup) (updates : List α) :
    ((updates.foldl (upsert key) l).map key).Nodup := by
  induction updates generalizing l with
  | nil => exact hl
  | cons a updates ih => exact ih (nodup_upsert hl a)

/-- After several updates with distinct keys: the updates, and what they did not name. -/
theorem mem_foldl_upsert [DecidableEq β] {key : α → β} {l updates : List α}
    (hl : (l.map key).Nodup) (hupdates : (updates.map key).Nodup) {b : α} :
    b ∈ updates.foldl (upsert key) l ↔
      b ∈ updates ∨ b ∈ l ∧ key b ∉ updates.map key := by
  induction updates generalizing l with
  | nil => simp
  | cons a updates ih =>
    rw [map_cons, nodup_cons] at hupdates
    rw [foldl_cons, ih (nodup_upsert hl a) hupdates.2, mem_upsert hl, map_cons,
      mem_cons, mem_cons, not_or]
    constructor
    · rintro (hb | ⟨rfl | ⟨hb, hk⟩, hnot⟩)
      · exact .inl (.inr hb)
      · exact .inl (.inl rfl)
      · exact .inr ⟨hb, hk, hnot⟩
    · rintro ((rfl | hb) | ⟨hb, hk, hnot⟩)
      · exact .inr ⟨.inl rfl, hupdates.1⟩
      · exact .inl hb
      · exact .inr ⟨.inr ⟨hb, hk⟩, hnot⟩

/-! ## Lists related element by element -/

section
variable {R : α → β → Prop} {l : List α} {l' : List β}

theorem exists_right_of_forall₂ (h : List.Forall₂ R l l') {a : α} (ha : a ∈ l) :
    ∃ b ∈ l', R a b := by
  induction h with
  | nil => exact absurd ha not_mem_nil
  | cons hhead _ ih =>
    rcases mem_cons.mp ha with rfl | ha
    · exact ⟨_, mem_cons_self, hhead⟩
    · obtain ⟨b, hb, hrel⟩ := ih ha
      exact ⟨b, mem_cons_of_mem _ hb, hrel⟩

theorem exists_left_of_forall₂ (h : List.Forall₂ R l l') {b : β} (hb : b ∈ l') :
    ∃ a ∈ l, R a b :=
  exists_right_of_forall₂ h.flip hb

/-- An observation on which related elements agree is the same on both lists. -/
theorem map_eq_of_forall₂ {γ : Type} {f : α → γ} {g : β → γ} (h : List.Forall₂ R l l')
    (heq : ∀ a b, R a b → g b = f a) : l'.map g = l.map f := by
  induction h with
  | nil => rfl
  | cons hhead _ ih => rw [map_cons, map_cons, heq _ _ hhead, ih]

end

/-! ## Choosing an element -/

section
variable {choose : Option α → α → Option α}

/-- A fold that keeps its choice or takes the next element ends with one of them. -/
theorem mem_of_foldl_choose
    (hchoose : ∀ chosen next, choose chosen next = some next ∨ choose chosen next = chosen)
    {l : List α} {start : Option α} {a : α} (h : l.foldl choose start = some a) :
    start = some a ∨ a ∈ l := by
  induction l generalizing start with
  | nil => exact .inl h
  | cons next l ih =>
    rcases ih h with hchosen | hmem
    · rcases hchoose start next with hnext | hkept
      · rw [hnext] at hchosen
        exact .inr (Option.some.inj hchosen ▸ mem_cons_self)
      · exact .inl (hkept.symm.trans hchosen)
    · exact .inr (mem_cons_of_mem _ hmem)

/-- A fold that takes the next element when it is less than its choice ends with a least one. -/
theorem foldl_choose_least {lt : α → α → Bool} (hasymm : ∀ a b, lt a b = true → lt b a = false)
    (htrans : ∀ a b c, lt a b = false → lt b c = false → lt a c = false)
    (hnone : ∀ next, choose none next = some next)
    (hsome : ∀ best next, choose (some best) next = if lt next best then some next else some best)
    {l : List α} {start : Option α} {a : α} (h : l.foldl choose start = some a) :
    (∀ b, start = some b → lt b a = false) ∧ ∀ b ∈ l, lt b a = false := by
  induction l generalizing start with
  | nil =>
    obtain rfl : start = some a := h
    have hirrefl : lt a a = false := by
      cases hless : lt a a with
      | false => rfl
      | true => exact (hasymm a a hless).symm.trans hless |>.symm
    exact ⟨fun b hb => Option.some.inj hb ▸ hirrefl, fun b hb => absurd hb not_mem_nil⟩
  | cons next l ih =>
    obtain ⟨hchosen, hrest⟩ := ih h
    -- neither the old choice nor the next element is less than the new choice
    have hstep : (∀ b, start = some b → lt b a = false) ∧ lt next a = false := by
      cases start with
      | none => exact ⟨fun b hb => absurd hb nofun, hchosen next (hnone next)⟩
      | some best =>
        rw [hsome] at hchosen
        cases hless : lt next best with
        | true =>
          rw [if_pos hless] at hchosen
          have hnext := hchosen next rfl
          refine ⟨fun b hb => ?_, hnext⟩
          cases hb
          exact htrans best next a (hasymm next best hless) hnext
        | false =>
          rw [if_neg (by rw [hless]; exact Bool.noConfusion)] at hchosen
          have hbest := hchosen best rfl
          exact ⟨fun b hb => Option.some.inj hb ▸ hbest, htrans next best a hless hbest⟩
    refine ⟨hstep.1, fun b hb => ?_⟩
    rcases mem_cons.mp hb with rfl | hb
    · exact hstep.2
    · exact hrest b hb

end

/-! ## Sorting by key -/

theorem pairwise_insertionSort_key (key : α → Nat) (l : List α) :
    (l.insertionSort fun a b => key a ≤ key b).Pairwise fun a b => key a ≤ key b := by
  have htotal : Std.Total fun a b : α => key a ≤ key b :=
    ⟨fun a b => Nat.le_total (key a) (key b)⟩
  have htrans : IsTrans α fun a b => key a ≤ key b :=
    ⟨fun _ _ _ hab hbc => Nat.le_trans hab hbc⟩
  exact pairwise_insertionSort _ l

/-- `a` comes before `b` in the list sorted by the key: its key is less, or they have one key and
`a` comes first in the list. -/
def Comes (key : α → Nat) (l : List α) (a b : α) : Prop :=
  key a < key b ∨ key a = key b ∧ [a, b].Sublist l

lemma Comes.mono {key : α → Nat} {l l' : List α} {a b : α} (h : Comes key l a b)
    (hsub : l.Sublist l') : Comes key l' a b :=
  h.imp id fun h => ⟨h.1, h.2.trans hsub⟩

/-- Two elements of a list without repetition come in one order only. -/
lemma Comes.asymm {key : α → Nat} {l : List α} {a b : α} (hl : l.Nodup) (hab : Comes key l a b)
    (hba : Comes key l b a) : False := by
  rcases hab with hlt | ⟨heq, hab⟩
  · rcases hba with hlt' | ⟨heq', -⟩ <;> omega
  · rcases hba with hlt' | ⟨-, hba⟩
    · omega
    · clear heq
      induction l with
      | nil => cases hab
      | cons c l ih =>
        rw [nodup_cons] at hl
        rw [cons_sublist_cons'] at hab hba
        rcases hab with hab | ⟨rfl, hb⟩
        · rcases hba with hba | ⟨rfl, -⟩
          · exact ih hl.2 hab hba
          · exact hl.1 (hab.subset (by simp))
        · rcases hba with hba | ⟨rfl, ha⟩
          · exact hl.1 (hba.subset (by simp))
          · exact hl.1 (singleton_sublist.mp ha)

/-- Sorting by a key is stable. -/
theorem pairwise_insertionSort_comes (key : α → Nat) (l : List α) :
    (l.insertionSort fun a b => key a ≤ key b).Pairwise (Comes key l) := by
  induction l with
  | nil => exact List.Pairwise.nil
  | cons a l ih =>
    have hsorted := pairwise_insertionSort_key key l
    have hmem : ∀ b ∈ l.insertionSort fun a b => key a ≤ key b, b ∈ l :=
      fun b => (mem_insertionSort _).mp
    have hpairs : (l.insertionSort fun a b => key a ≤ key b).Pairwise (Comes key (a :: l)) :=
      ih.imp fun h => h.mono (sublist_cons_self a l)
    rw [insertionSort_cons]
    generalize (l.insertionSort fun a b => key a ≤ key b) = sorted at hsorted hmem hpairs
    clear ih
    induction sorted with
    | nil => exact pairwise_singleton _ _
    | cons b sorted ih =>
      rw [pairwise_cons] at hsorted hpairs
      rw [orderedInsert_cons]
      split
      · rename_i hle
        rw [pairwise_cons, pairwise_cons]
        refine ⟨fun c hc => ?_, hpairs⟩
        -- the new element has the least key, and is the first of the list
        have hkey : key a ≤ key c := by
          rcases mem_cons.mp hc with rfl | hc'
          · exact hle
          · exact hle.trans (hsorted.1 c hc')
        rcases Nat.lt_or_eq_of_le hkey with hlt | heq
        · exact .inl hlt
        · exact .inr ⟨heq, cons_sublist_cons.mpr (singleton_sublist.mpr (hmem c hc))⟩
      · rename_i hgt
        rw [pairwise_cons]
        constructor
        · intro c hc
          rcases mem_cons.mp ((perm_orderedInsert _ a sorted).mem_iff.mp hc) with rfl | hc'
          · exact .inl (Nat.lt_of_not_le hgt)
          · exact hpairs.1 c hc'
        · exact ih hsorted.2 (fun c hc => hmem c (mem_cons_of_mem _ hc)) hpairs.2

/-- Two arrangements of the same elements, one strictly and one weakly increasing in a key, are
the same list. -/
theorem eq_of_perm_of_increasing {key : α → Nat} {l l' : List α} (hperm : l'.Perm l)
    (hl : l.Pairwise fun a b => key a < key b) (hl' : l'.Pairwise fun a b => key a ≤ key b) :
    l' = l := by
  induction l generalizing l' with
  | nil => exact hperm.eq_nil
  | cons a l ih =>
    rw [pairwise_cons] at hl
    cases l' with
    | nil => exact absurd hperm.symm.eq_nil (by simp)
    | cons b l' =>
      rw [pairwise_cons] at hl'
      -- both lists start with the element of the least key
      have hab : b = a := by
        rcases mem_cons.mp (hperm.mem_iff.mp mem_cons_self) with rfl | hb
        · rfl
        · rcases mem_cons.mp (hperm.mem_iff.mpr mem_cons_self) with rfl | ha
          · rfl
          · have h₁ := hl.1 b hb
            have h₂ := hl'.1 a ha
            omega
      subst hab
      rw [ih hperm.cons_inv hl.2 hl'.2]

end

/-! ## Taking out the first element -/

section
variable {α : Type} {p q : α → Bool} {xs : List α} {x : α}

/-- Taking the first element that meets `p` keeps the order of the elements that meet less. -/
lemma filter_eraseP_of_imp (h : ∀ y, q y = true → p y = true) (hx : xs.find? p = some x) :
    [x].filter q ++ (xs.eraseP p).filter q = xs.filter q := by
  induction xs with
  | nil => injection hx
  | cons y ys ih =>
    by_cases hy : p y = true
    · rw [List.find?_cons_of_pos hy] at hx
      rw [eraseP_cons_of_pos hy, ← Option.some.inj hx, ← filter_append]
      rfl
    · rw [List.find?_cons_of_neg hy] at hx
      rw [eraseP_cons_of_neg hy, filter_cons_of_neg fun hq => hy (h y hq),
        filter_cons_of_neg fun hq => hy (h y hq)]
      exact ih hx

lemma filter_eraseP_of_not (hx : xs.find? p = some x) (hq : ∀ y, p y = true → q y = false) :
    [x].filter q ++ (xs.eraseP p).filter q = xs.filter q := by
  induction xs with
  | nil => injection hx
  | cons y ys ih =>
    by_cases hy : p y = true
    · rw [List.find?_cons_of_pos hy] at hx
      rw [eraseP_cons_of_pos hy, ← Option.some.inj hx, ← filter_append]
      rfl
    · rw [List.find?_cons_of_neg hy] at hx
      have hx' : q x = false := hq x (List.find?_some hx)
      rw [eraseP_cons_of_neg hy]
      simp only [filter_cons, filter_nil, hx', Bool.false_eq_true, if_false,
        nil_append] at ih ⊢
      split
      · rw [ih hx]
      · exact ih hx

lemma perm_cons_eraseP (hx : xs.find? p = some x) : (x :: xs.eraseP p).Perm xs := by
  induction xs with
  | nil => injection hx
  | cons y ys ih =>
    by_cases hy : p y = true
    · rw [List.find?_cons_of_pos hy] at hx
      rw [eraseP_cons_of_pos hy, ← Option.some.inj hx]
    · rw [List.find?_cons_of_neg hy] at hx
      rw [eraseP_cons_of_neg hy]
      exact (List.Perm.swap y x _).trans ((ih hx).cons y)

end

end Agenterm.Lib
