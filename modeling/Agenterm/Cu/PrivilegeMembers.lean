import Agenterm.Cu.PrivilegePlan
import Agenterm.Lib.Keyed

/-!
# The members of a signal plan

What `valid_signal_members` accepts is a tree (`RootedTree`): the check is local, and the depths,
which go down by one along every parent, make it global. The addition that it makes to compare
depths overflows exactly when a member that is reached names a parent with a row at the maximal
depth before the right one (`Overflows`, `validSignalMembers_stops_iff`).
-/

namespace Agenterm.Cu.Privilege

open List

variable {δ : Type}

/-- `a` comes before `b` by depth and pid. -/
def KeyLt (a b : ProcessSignalMember) : Prop :=
  a.depth < b.depth ∨ a.depth = b.depth ∧ a.pid < b.pid

@[simp] lemma keyLt_iff {a b : ProcessSignalMember} : keyLt a b = true ↔ KeyLt a b := by
  simp [keyLt, KeyLt]

lemma KeyLt.trans {a b c : ProcessSignalMember} (hab : KeyLt a b) (hbc : KeyLt b c) :
    KeyLt a c := by
  unfold KeyLt at *
  omega

/-- What is asked of each member on its own. -/
structure WellFormed (m : ProcessSignalMember) : Prop where
  pid_gt : 1 < m.pid
  identity : validProcessStartIdentity m.startIdentity = true

/-- The members are well formed, distinct and in order. -/
structure Ordered (members : List ProcessSignalMember) : Prop where
  formed : ∀ m ∈ members, WellFormed m
  nodup : (members.map ProcessSignalMember.pid).Nodup
  sorted : members.Pairwise KeyLt

/-- The member is a root, or its parent is one level above it. -/
def HasPlace (all : List ProcessSignalMember) (m : ProcessSignalMember) : Prop :=
  m.depth = 0 ∧ m.parentPid = none ∨
    m.depth ≠ 0 ∧ ∃ p, m.parentPid = some p ∧ ∃ row ∈ all, row.pid = p ∧ row.depth + 1 = m.depth

/-- The member's parent is looked for in a row of the maximal depth, before one that is a level
above the member. -/
def Overflows (all : List ProcessSignalMember) (m : ProcessSignalMember) : Prop :=
  m.depth ≠ 0 ∧ ∃ p, m.parentPid = some p ∧ ∃ front row back, all = front ++ row :: back ∧
    row.pid = p ∧ row.depth = u32Max ∧ ∀ r ∈ front, r.pid = p → r.depth + 1 ≠ m.depth

/-! ## The search for the parent

Without overflow checks the addition wraps to zero, which is no depth of a child. -/

variable {all members rest rows : List ProcessSignalMember} {checks : Bool} {d p : Nat}
  {m : ProcessSignalMember} {plan : ProcessSignalPlan δ} {previous : Option ProcessSignalMember}
  {seen : List Nat}

lemma anyParent_true (h : anyParent checks p (d + 1) rows = some true) :
    ∃ row ∈ rows, row.pid = p ∧ row.depth + 1 = d + 1 := by
  induction rows with
  | nil => cases h
  | cons row rows ih =>
    have hrest : anyParent checks p (d + 1) rows = some true →
        ∃ r ∈ row :: rows, r.pid = p ∧ r.depth + 1 = d + 1 := by
      intro hrest
      obtain ⟨r, hr, hparent⟩ := ih hrest
      exact ⟨r, mem_cons_of_mem _ hr, hparent⟩
    unfold anyParent at h
    split at h
    · rename_i hpid
      unfold nextDepth at h
      by_cases hmax : row.depth = u32Max
      · cases checks with
        | true => simp [hmax] at h
        | false =>
          -- the wrapped depth is zero, and that of a child is not
          rw [if_pos hmax] at h
          exact hrest (by simpa using h)
      · rw [if_neg hmax] at h
        dsimp only at h
        split at h
        · rename_i hnext
          exact ⟨row, mem_cons_self, hpid, hnext⟩
        · exact hrest h
    · exact hrest h

lemma anyParent_false (h : anyParent true p d rows = some false) :
    ∀ row ∈ rows, row.pid = p → row.depth + 1 ≠ d := by
  induction rows with
  | nil => exact fun _ hrow => by cases hrow
  | cons head rows ih =>
    intro row hrow hpid
    unfold anyParent at h
    split at h
    · unfold nextDepth at h
      by_cases hmax : head.depth = u32Max
      · simp [hmax] at h
      · rw [if_neg hmax] at h
        dsimp only at h
        split at h
        · cases h
        · rename_i hnext
          rcases mem_cons.mp hrow with rfl | hrow
          · exact hnext
          · exact ih h row hrow hpid
    · rename_i hne
      rcases mem_cons.mp hrow with rfl | hrow
      · exact absurd hpid hne
      · exact ih h row hrow hpid

/-- The search stops at a row of the maximal depth that comes before the parent. -/
lemma anyParent_none_iff :
    anyParent true p d rows = none ↔ ∃ front row back, rows = front ++ row :: back ∧
      row.pid = p ∧ row.depth = u32Max ∧ ∀ r ∈ front, r.pid = p → r.depth + 1 ≠ d := by
  induction rows with
  | nil => simp [anyParent]
  | cons head rows ih =>
    -- what the search goes on with when the head is not the parent
    have hlater : (head.pid = p → head.depth + 1 ≠ d) →
        ((∃ front row back, rows = front ++ row :: back ∧ row.pid = p ∧ row.depth = u32Max ∧
          ∀ r ∈ front, r.pid = p → r.depth + 1 ≠ d) →
        ∃ front row back, head :: rows = front ++ row :: back ∧ row.pid = p ∧
          row.depth = u32Max ∧ ∀ r ∈ front, r.pid = p → r.depth + 1 ≠ d) := by
      rintro hhead ⟨front, row, back, rfl, hpid, hmax, hfront⟩
      refine ⟨head :: front, row, back, rfl, hpid, hmax, fun r hr => ?_⟩
      rcases mem_cons.mp hr with rfl | hr
      · exact hhead
      · exact hfront r hr
    have hback : ∀ front row back, head :: rows = front ++ row :: back →
        (∀ r ∈ front, r.pid = p → r.depth + 1 ≠ d) → row.pid = p → row.depth = u32Max →
        row = head ∨ (head.pid = p → head.depth + 1 ≠ d) ∧
          ∃ front row back, rows = front ++ row :: back ∧ row.pid = p ∧ row.depth = u32Max ∧
            ∀ r ∈ front, r.pid = p → r.depth + 1 ≠ d := by
      intro front row back hsplit hfront hpid hmax
      cases front with
      | nil =>
        rw [nil_append, List.cons.injEq] at hsplit
        exact .inl hsplit.1.symm
      | cons first front =>
        rw [cons_append, List.cons.injEq] at hsplit
        obtain ⟨rfl, hsplit⟩ := hsplit
        exact .inr ⟨hfront _ mem_cons_self, front, row, back, hsplit, hpid, hmax,
          fun r hr => hfront r (mem_cons_of_mem _ hr)⟩
    unfold anyParent
    by_cases hpid : head.pid = p
    · rw [if_pos hpid, nextDepth]
      by_cases hmax : head.depth = u32Max
      · rw [if_pos hmax, if_pos rfl]
        exact iff_of_true rfl ⟨[], head, rows, rfl, hpid, hmax, fun r hr => by cases hr⟩
      · rw [if_neg hmax]
        dsimp only
        by_cases hnext : head.depth + 1 = d
        · rw [if_pos hnext]
          refine iff_of_false (by simp) ?_
          rintro ⟨front, row, back, hsplit, hrow, hrowmax, hfront⟩
          rcases hback front row back hsplit hfront hrow hrowmax with rfl | ⟨hhead, -⟩
          · exact hmax hrowmax
          · exact hhead hpid hnext
        · rw [if_neg hnext, ih]
          refine ⟨hlater fun _ => hnext, ?_⟩
          rintro ⟨front, row, back, hsplit, hrow, hrowmax, hfront⟩
          rcases hback front row back hsplit hfront hrow hrowmax with rfl | ⟨-, hrest⟩
          · exact absurd hrowmax hmax
          · exact hrest
    · rw [if_neg hpid, ih]
      refine ⟨hlater fun h => absurd h hpid, ?_⟩
      rintro ⟨front, row, back, hsplit, hrow, hrowmax, hfront⟩
      rcases hback front row back hsplit hfront hrow hrowmax with rfl | ⟨-, hrest⟩
      · exact absurd hrow hpid
      · exact hrest

lemma parentFits_true (h : parentFits checks all m = some true) : HasPlace all m := by
  unfold parentFits at h
  split at h
  · rename_i hdepth hparent
    exact .inl ⟨hdepth, hparent⟩
  · cases h
  · cases h
  · rename_i depth p hdepth hparent
    obtain ⟨row, hrow, hpid, hlevel⟩ := anyParent_true h
    exact .inr ⟨by omega, p, hparent, row, hrow, hpid, by omega⟩

lemma parentFits_false (h : parentFits true all m = some false) : ¬ HasPlace all m := by
  unfold parentFits at h
  split at h
  · cases h
  · rename_i hparent
    rintro (⟨-, hnone⟩ | ⟨hpos, -⟩)
    · rw [hparent] at hnone
      cases hnone
    · exact hpos (by assumption)
  · rename_i hparent
    rintro (⟨hzero, -⟩ | ⟨-, p, hsome, -⟩)
    · omega
    · rw [hparent] at hsome
      cases hsome
  · rename_i depth p hlevel hparent
    rintro (⟨hzero, -⟩ | ⟨-, q, hq, row, hrow, hpid, hrowlevel⟩)
    · omega
    · rw [hparent, Option.some.injEq] at hq
      exact anyParent_false h row hrow (hpid.trans hq.symm) (by omega)

lemma parentFits_none_iff : parentFits true all m = none ↔ Overflows all m := by
  unfold parentFits Overflows
  split
  · rename_i hdepth hparent
    simp [hdepth]
  · rename_i hdepth _
    simp [hdepth]
  · rename_i hparent
    simp [hparent]
  · rename_i depth p hdepth hparent
    rw [anyParent_none_iff, hparent, hdepth]
    constructor
    · intro hrow
      exact ⟨by omega, p, rfl, hrow⟩
    · rintro ⟨-, q, hq, hrow⟩
      rw [Option.some.injEq] at hq
      subst hq
      exact hrow

/-! ## The loop over the members -/

/-- What the loop checks of the members before their parents, one after the other. -/
def Fits (seen : List Nat) (previous : Option ProcessSignalMember) :
    List ProcessSignalMember → Prop
  | [] => True
  | m :: rest => memberFits seen previous m = true ∧ Fits (m.pid :: seen) (some m) rest

lemma memberFits_iff :
    memberFits seen previous m = true ↔
      WellFormed m ∧ m.pid ∉ seen ∧ ∀ q, previous = some q → KeyLt q m := by
  cases previous with
  | none =>
    simp only [memberFits, Option.all_none, Bool.and_true, Bool.not_eq_true', Bool.or_eq_false_iff]
    constructor
    · rintro ⟨⟨hpid, hidentity⟩, hseen⟩
      exact ⟨⟨by simpa using hpid, by simpa using hidentity⟩, by simpa using hseen,
        fun q hq => by cases hq⟩
    · rintro ⟨⟨hpid, hidentity⟩, hseen, -⟩
      exact ⟨⟨by simpa using hpid, by simpa using hidentity⟩, by simpa using hseen⟩
  | some previous =>
    simp only [memberFits, Option.all_some, Bool.and_eq_true, keyLt_iff, Bool.not_eq_true',
      Bool.or_eq_false_iff]
    constructor
    · rintro ⟨⟨⟨hpid, hidentity⟩, hseen⟩, hkey⟩
      refine ⟨⟨by simpa using hpid, by simpa using hidentity⟩, by simpa using hseen, ?_⟩
      rintro q ⟨⟩
      exact hkey
    · rintro ⟨⟨hpid, hidentity⟩, hseen, hkey⟩
      exact ⟨⟨⟨by simpa using hpid, by simpa using hidentity⟩, by simpa using hseen⟩,
        hkey _ rfl⟩

/-- The members are in order, without repetition and after what came before them. -/
lemma fits_iff :
    Fits seen previous members ↔ Ordered members ∧ (∀ m ∈ members, m.pid ∉ seen) ∧
      ∀ m ∈ members, ∀ q, previous = some q → KeyLt q m := by
  induction members generalizing seen previous with
  | nil =>
    exact iff_of_true trivial ⟨⟨fun m hm => (by cases hm), nodup_nil, List.Pairwise.nil⟩,
      fun m hm => (by cases hm), fun m hm => (by cases hm)⟩
  | cons m rest ih =>
    rw [Fits, memberFits_iff, ih]
    constructor
    · rintro ⟨⟨hformed, hseen, hkey⟩, ⟨hforms, hnodup, hsorted⟩, hfresh, hlater⟩
      have hkeys : ∀ x ∈ rest, KeyLt m x := fun x hx => hlater x hx m rfl
      refine ⟨⟨?_, ?_, pairwise_cons.mpr ⟨hkeys, hsorted⟩⟩, ?_, ?_⟩
      · intro x hx
        rcases mem_cons.mp hx with rfl | hx
        · exact hformed
        · exact hforms x hx
      · rw [map_cons, nodup_cons]
        refine ⟨fun hmem => ?_, hnodup⟩
        obtain ⟨x, hx, hpid⟩ := mem_map.mp hmem
        exact hfresh x hx (by rw [hpid]; exact mem_cons_self)
      · intro x hx
        rcases mem_cons.mp hx with rfl | hx
        · exact hseen
        · exact fun hmem => hfresh x hx (mem_cons_of_mem _ hmem)
      · intro x hx q hq
        rcases mem_cons.mp hx with rfl | hx
        · exact hkey q hq
        · exact (hkey q hq).trans (hkeys x hx)
    · rintro ⟨⟨hforms, hnodup, hsorted⟩, hseen, hkey⟩
      rw [map_cons, nodup_cons] at hnodup
      obtain ⟨hkeys, hsorted⟩ := pairwise_cons.mp hsorted
      have hrest : ∀ {x}, x ∈ rest → x ∈ m :: rest := fun hx => mem_cons_of_mem _ hx
      refine ⟨⟨hforms m mem_cons_self, hseen m mem_cons_self,
        hkey m mem_cons_self⟩, ⟨fun x hx => hforms x (hrest hx), hnodup.2, hsorted⟩, ?_, ?_⟩
      · intro x hx hmem
        rcases mem_cons.mp hmem with hpid | hmem
        · exact hnodup.1 (mem_map.mpr ⟨x, hx, hpid⟩)
        · exact hseen x (hrest hx) hmem
      · rintro x hx q ⟨⟩
        exact hkeys x hx

lemma validMembers_true (h : validMembers checks all seen previous rest = some true) :
    Fits seen previous rest ∧ ∀ m ∈ rest, HasPlace all m := by
  induction rest generalizing seen previous with
  | nil => exact ⟨trivial, fun m hm => by cases hm⟩
  | cons m rest ih =>
    unfold validMembers at h
    split at h
    · cases h
    · rename_i hfits
      split at h
      · rename_i hparent
        obtain ⟨hrest, hplaces⟩ := ih h
        refine ⟨⟨by simpa using hfits, hrest⟩, fun x hx => ?_⟩
        rcases mem_cons.mp hx with rfl | hx
        · exact parentFits_true hparent
        · exact hplaces x hx
      · rename_i hother
        exact absurd h hother

/-- The loop stops at a member that it reaches and that overflows. -/
lemma validMembers_none_iff :
    validMembers true all seen previous rest = none ↔
      ∃ front m back, rest = front ++ m :: back ∧ Fits seen previous (front ++ [m]) ∧
        (∀ x ∈ front, HasPlace all x) ∧ Overflows all m := by
  induction rest generalizing seen previous with
  | nil => simp [validMembers]
  | cons head rest ih =>
    unfold validMembers
    split
    · rename_i hfits
      refine iff_of_false (by simp) ?_
      rintro ⟨front, m, back, hsplit, hall, -, -⟩
      -- the head is reached, and it does not fit
      have hhead : memberFits seen previous head = true := by
        cases front with
        | nil =>
          rw [nil_append, List.cons.injEq] at hsplit
          rw [hsplit.1]
          exact hall.1
        | cons x front =>
          rw [cons_append, List.cons.injEq] at hsplit
          rw [hsplit.1]
          exact hall.1
      simp [hhead] at hfits
    · rename_i hfits
      have hhead : memberFits seen previous head = true := by simpa using hfits
      cases hparent : parentFits true all head with
      | none =>
        refine iff_of_true rfl ⟨[], head, rest, rfl, ⟨hhead, trivial⟩, fun x hx => (by cases hx),
          parentFits_none_iff.mp hparent⟩
      | some fits =>
        have hover : ¬ Overflows all head := by
          rw [← parentFits_none_iff, hparent]
          simp
        cases fits with
        | false =>
          refine iff_of_false (by simp) ?_
          rintro ⟨front, m, back, hsplit, -, hplaces, hm⟩
          cases front with
          | nil =>
            rw [nil_append, List.cons.injEq] at hsplit
            exact hover (hsplit.1 ▸ hm)
          | cons x front =>
            rw [cons_append, List.cons.injEq] at hsplit
            exact parentFits_false hparent (hsplit.1 ▸ hplaces x mem_cons_self)
        | true =>
          dsimp only
          rw [ih]
          constructor
          · rintro ⟨front, m, back, rfl, hall, hplaces, hm⟩
            refine ⟨head :: front, m, back, rfl, ⟨hhead, hall⟩, fun x hx => ?_, hm⟩
            rcases mem_cons.mp hx with rfl | hx
            · exact parentFits_true hparent
            · exact hplaces x hx
          · rintro ⟨front, m, back, hsplit, hall, hplaces, hm⟩
            cases front with
            | nil =>
              rw [nil_append, List.cons.injEq] at hsplit
              exact absurd (hsplit.1 ▸ hm) hover
            | cons x front =>
              rw [cons_append, List.cons.injEq] at hsplit
              obtain ⟨rfl, rfl⟩ := hsplit
              exact ⟨front, m, back, rfl, hall.2, fun y hy => hplaces y (mem_cons_of_mem _ hy),
                hm⟩

/-! ## The tree -/

/-- The row that a member names as its parent. -/
def parentRow (members : List ProcessSignalMember) (m : ProcessSignalMember) :
    Option ProcessSignalMember :=
  m.parentPid.bind fun p => members.find? fun row => row.pid = p

/-- Following the parents for a number of steps. -/
def follow (members : List ProcessSignalMember) : Nat → ProcessSignalMember →
    Option ProcessSignalMember
  | 0, m => some m
  | steps + 1, m => (parentRow members m).bind (follow members steps)

/-- The members of a plan are a tree: one root, which is the target, and from every member the
parents lead there, one level a step. -/
structure RootedTree (plan : ProcessSignalPlan δ) : Prop where
  nodup : (plan.members.map ProcessSignalMember.pid).Nodup
  root : ∃ root ∈ plan.members, root.depth = 0 ∧ root.parentPid = none ∧
    root.pid = plan.target.pid ∧ root.startIdentity = plan.target.startIdentity ∧
    ∀ m ∈ plan.members, m.depth = 0 → m = root
  follows : ∀ m ∈ plan.members, ∀ steps ≤ m.depth,
    ∃ a ∈ plan.members, follow plan.members steps m = some a ∧ a.depth + steps = m.depth
  sorted : plan.members.Pairwise KeyLt
  formed : ∀ m ∈ plan.members, WellFormed m
  size : plan.members.length ≤ plan.maxDescendants + 1
  single : plan.scope = .single → plan.members.length = 1

lemma parentRow_eq (hnodup : (members.map ProcessSignalMember.pid).Nodup)
    (hplace : HasPlace members m) (hdepth : m.depth ≠ 0) :
    ∃ row ∈ members, parentRow members m = some row ∧ row.depth + 1 = m.depth := by
  rcases hplace with ⟨hzero, -⟩ | ⟨-, p, hp, row, hrow, hpid, hlevel⟩
  · exact absurd hzero hdepth
  · refine ⟨row, hrow, ?_, hlevel⟩
    rw [parentRow, hp, Option.bind_some, ← hpid]
    exact Lib.find?_key hnodup hrow rfl

/-- The depth goes down by one with every step to the parent. -/
lemma follow_spec (hnodup : (members.map ProcessSignalMember.pid).Nodup)
    (hplaces : ∀ m ∈ members, HasPlace members m) (hm : m ∈ members) {steps : Nat}
    (hsteps : steps ≤ m.depth) :
    ∃ a ∈ members, follow members steps m = some a ∧ a.depth + steps = m.depth := by
  induction steps generalizing m with
  | zero => exact ⟨m, hm, rfl, rfl⟩
  | succ steps ih =>
    obtain ⟨row, hrow, hparent, hlevel⟩ := parentRow_eq hnodup (hplaces m hm) (by omega)
    obtain ⟨a, ha, hfollow, hdepth⟩ := ih hrow (by omega)
    refine ⟨a, ha, ?_, by omega⟩
    rw [follow, hparent, Option.bind_some, hfollow]

/-- The list has the length and the scope that the plan allows. -/
structure InScope (plan : ProcessSignalPlan δ) : Prop where
  nonempty : plan.members ≠ []
  size : plan.members.length ≤ min (plan.maxDescendants + 1) u32Max
  single : plan.scope = .single → plan.members.length = 1

/-- The last checks, which are about the first member. -/
def rootFits (plan : ProcessSignalPlan δ) : Bool :=
  match plan.members with
  | [] => false
  | root :: _ =>
    root.depth = 0 && root.pid = plan.target.pid &&
      root.startIdentity = plan.target.startIdentity &&
      (plan.members.filter fun member => member.depth = 0).length = 1

/-- The three parts of the check. -/
lemma validSignalMembers_eq (checks : Bool) (plan : ProcessSignalPlan δ) [Decidable (InScope plan)] :
    validSignalMembers checks plan =
      if InScope plan then
        (validMembers checks plan.members [] none plan.members).map fun fits =>
          fits && rootFits plan
      else some false := by
  by_cases hscope : InScope plan
  · rw [if_pos hscope, validSignalMembers, if_neg, if_neg]
    · have hmembers := hscope.nonempty
      cases hvalid : validMembers checks plan.members [] none plan.members with
      | none => rfl
      | some fits =>
        cases fits with
        | false => rfl
        | true =>
          unfold rootFits
          cases hlist : plan.members with
          | nil => exact absurd hlist hmembers
          | cons root rest => rfl
    · simp only [Bool.and_eq_true, decide_eq_true_eq, not_and, not_not]
      exact hscope.single
    · simp only [Bool.or_eq_true, List.isEmpty_iff, decide_eq_true_eq, not_or]
      exact ⟨hscope.nonempty, by have := hscope.size; omega⟩
  · rw [if_neg hscope, validSignalMembers]
    by_cases hsize : plan.members.isEmpty ||
        plan.members.length > min (plan.maxDescendants + 1) u32Max
    · rw [if_pos hsize]
    · rw [if_neg hsize]
      simp only [Bool.or_eq_true, List.isEmpty_iff, decide_eq_true_eq, not_or] at hsize
      rw [if_pos]
      by_contra hsingle
      simp only [Bool.and_eq_true, decide_eq_true_eq, not_and, not_not] at hsingle
      exact hscope ⟨hsize.1, by omega, hsingle⟩

lemma validSignalMembers_true_iff :
    validSignalMembers checks plan = some true ↔
      InScope plan ∧ validMembers checks plan.members [] none plan.members = some true ∧
        rootFits plan = true := by
  classical
  rw [validSignalMembers_eq]
  by_cases hscope : InScope plan
  · rw [if_pos hscope]
    cases validMembers checks plan.members [] none plan.members <;> simp [hscope]
  · rw [if_neg hscope]
    simp [hscope]

/-- **What is accepted is a tree**, whether additions are checked or wrap. -/
theorem rootedTree_of_valid (h : validSignalMembers checks plan = some true) : RootedTree plan := by
  obtain ⟨hscope, hvalid, hroot⟩ := validSignalMembers_true_iff.mp h
  obtain ⟨hfits, hplaces⟩ := validMembers_true hvalid
  obtain ⟨hordered, -, -⟩ := fits_iff.mp hfits
  have hsize := hscope.size
  refine {
    nodup := hordered.nodup
    root := ?_
    follows := fun m hm steps hsteps => follow_spec hordered.nodup hplaces hm hsteps
    sorted := hordered.sorted
    formed := hordered.formed
    size := by omega
    single := hscope.single }
  unfold rootFits at hroot
  split at hroot
  · cases hroot
  · rename_i root rest hmembers
    simp only [Bool.and_eq_true, decide_eq_true_eq] at hroot
    obtain ⟨⟨⟨hdepth, hpid⟩, hidentity⟩, hcount⟩ := hroot
    have hmem : root ∈ plan.members := by
      rw [hmembers]
      exact mem_cons_self
    refine ⟨root, hmem, hdepth, ?_, hpid, hidentity, fun m hm hzero => ?_⟩
    · rcases hplaces root hmem with ⟨-, hparent⟩ | ⟨hne, -⟩
      · exact hparent
      · exact absurd hdepth hne
    · -- one member of depth zero, and these are two
      obtain ⟨only, honly⟩ := length_eq_one_iff.mp hcount
      have hin : ∀ x ∈ plan.members, x.depth = 0 → x = only := by
        intro x hx hx0
        have hx' : x ∈ plan.members.filter fun member => member.depth = 0 :=
          mem_filter.mpr ⟨hx, by simpa using hx0⟩
        rw [honly] at hx'
        exact mem_singleton.mp hx'
      rw [hin m hm hzero, hin root hmem hdepth]

/-! ## Lists that are accepted -/

lemma anyParent_of_mem (hdepths : ∀ row ∈ rows, row.depth ≠ u32Max) {row : ProcessSignalMember}
    (hrow : row ∈ rows) (hpid : row.pid = p) (hlevel : row.depth + 1 = d) :
    anyParent checks p d rows = some true := by
  induction rows with
  | nil => cases hrow
  | cons head rows ih =>
    have hrest : row ∈ rows → anyParent checks p d rows = some true :=
      fun hrow => ih (fun r hr => hdepths r (mem_cons_of_mem _ hr)) hrow
    unfold anyParent
    split
    · rw [nextDepth, if_neg (hdepths head mem_cons_self)]
      dsimp only
      split
      · rfl
      · rename_i hnot
        rcases mem_cons.mp hrow with rfl | hrow
        · exact absurd hlevel hnot
        · exact hrest hrow
    · rename_i hnot
      rcases mem_cons.mp hrow with rfl | hrow
      · exact absurd hpid hnot
      · exact hrest hrow

lemma parentFits_of_place (hdepths : ∀ row ∈ all, row.depth ≠ u32Max) (h : HasPlace all m) :
    parentFits checks all m = some true := by
  rcases h with ⟨hzero, hnone⟩ | ⟨hpos, p, hp, row, hrow, hpid, hlevel⟩
  · rw [parentFits, hzero, hnone]
  · obtain ⟨depth, hdepth⟩ := Nat.exists_eq_succ_of_ne_zero hpos
    rw [parentFits, hdepth, hp]
    exact anyParent_of_mem hdepths hrow hpid (hlevel.trans hdepth)

lemma validMembers_of_fits (hdepths : ∀ row ∈ all, row.depth ≠ u32Max)
    (hfits : Fits seen previous rest) (hplaces : ∀ m ∈ rest, HasPlace all m) :
    validMembers checks all seen previous rest = some true := by
  induction rest generalizing seen previous with
  | nil => rfl
  | cons m rest ih =>
    rw [validMembers, hfits.1, if_neg (by simp),
      parentFits_of_place hdepths (hplaces m mem_cons_self)]
    exact ih hfits.2 fun x hx => hplaces x (mem_cons_of_mem _ hx)

/-- An ordered list in which every member has its place is accepted. -/
theorem valid_of_ordered (hscope : InScope plan) (hordered : Ordered plan.members)
    (hplaces : ∀ m ∈ plan.members, HasPlace plan.members m)
    (hdepths : ∀ m ∈ plan.members, m.depth ≠ u32Max) (hroot : rootFits plan = true)
    (checks : Bool) : validSignalMembers checks plan = some true := by
  refine validSignalMembers_true_iff.mpr ⟨hscope, validMembers_of_fits hdepths ?_ hplaces, hroot⟩
  exact fits_iff.mpr ⟨hordered, fun x _ hx => (by cases hx), fun x _ q hq => (by cases hq)⟩

/-- The root comes first in an ordered list, and no other member is at its level. -/
lemma rootFits_of_ordered (hordered : Ordered plan.members) {root : ProcessSignalMember}
    (hmem : root ∈ plan.members) (hdepth : root.depth = 0) (hpid : root.pid = plan.target.pid)
    (hidentity : root.startIdentity = plan.target.startIdentity)
    (honly : ∀ m ∈ plan.members, m.depth = 0 → m = root) : rootFits plan = true := by
  unfold rootFits
  cases hmembers : plan.members with
  | nil =>
    rw [hmembers] at hmem
    cases hmem
  | cons first rest =>
    have hsorted := hordered.sorted
    rw [hmembers] at hsorted hmem
    have hfirst : first = root := by
      rcases mem_cons.mp hmem with heq | hrest
      · exact heq.symm
      · refine honly first (by rw [hmembers]; exact mem_cons_self) ?_
        have hlt := (pairwise_cons.mp hsorted).1 root hrest
        unfold KeyLt at hlt
        omega
    subst hfirst
    have hrest : rest.filter (fun member => member.depth = 0) = [] := by
      rw [filter_eq_nil_iff]
      intro m hm hzero
      have heq := honly m (by rw [hmembers]; exact mem_cons_of_mem _ hm) (by simpa using hzero)
      subst heq
      have hlt := (pairwise_cons.mp hsorted).1 m hm
      unfold KeyLt at hlt
      omega
    dsimp only
    rw [filter_cons_of_pos (by simpa using hdepth), hrest]
    simp [hdepth, hpid, hidentity]

/-- No member that the check reaches overflows. -/
def Evaluates (plan : ProcessSignalPlan δ) : Prop :=
  InScope plan → ∀ front m back, plan.members = front ++ m :: back → Ordered (front ++ [m]) →
    (∀ x ∈ front, HasPlace plan.members x) → ¬ Overflows plan.members m

theorem validSignalMembers_stops_iff : validSignalMembers true plan ≠ none ↔ Evaluates plan := by
  classical
  rw [validSignalMembers_eq, Evaluates]
  by_cases hscope : InScope plan
  · rw [if_pos hscope, ne_eq, Option.map_eq_none_iff, validMembers_none_iff]
    constructor
    · intro h _ front m back hsplit hordered hplaces hover
      refine h ⟨front, m, back, hsplit, fits_iff.mpr ⟨hordered, ?_, ?_⟩, hplaces, hover⟩
      · exact fun x _ hx => by cases hx
      · exact fun x _ q hq => by cases hq
    · rintro h ⟨front, m, back, hsplit, hfits, hplaces, hover⟩
      exact h hscope front m back hsplit (fits_iff.mp hfits).1 hplaces hover
  · rw [if_neg hscope]
    simp [hscope]

/-- **Acceptance.** What the check accepts is a tree, and it evaluates without overflow exactly
for the lists where no member that it reaches looks for its parent in a row of the maximal depth. -/
theorem valid_iff_evaluates (plan : ProcessSignalPlan δ) :
    (∀ checks, validSignalMembers checks plan = some true → RootedTree plan) ∧
      ((validSignalMembers true plan ≠ none ∧
        ∀ checks, validSignalMembers checks plan = some true → RootedTree plan) ↔
      Evaluates plan) := by
  have htree : ∀ checks, validSignalMembers checks plan = some true → RootedTree plan :=
    fun checks => rootedTree_of_valid
  refine ⟨htree, ?_⟩
  rw [validSignalMembers_stops_iff]
  exact ⟨And.left, fun h => ⟨h, htree⟩⟩

/-- A member whose parent has the maximal depth. -/
def deepParentPlan : ProcessSignalPlan String where
  schemaVersion := 1
  operation := .processSignal
  target := ⟨41, "proc-start-ticks:4100"⟩
  scope := .tree
  signal := .terminate
  force := false
  timeoutMs := 5000
  maxDescendants := 2
  members := [
    ⟨41, 0, none, "proc-start-ticks:4100", ⟨false⟩⟩,
    ⟨43, 1, some 47, "proc-start-ticks:4300", ⟨false⟩⟩,
    ⟨47, 4294967295, some 43, "proc-start-ticks:4700", ⟨false⟩⟩]
  issuedAtUtcMs := 1000
  expiresAtUtcMs := 121000
  contractDigest := ""
  approvalDigest := ""
  consentRequested := false
  mutationPerformed := false

theorem deep_parent_overflows : validSignalMembers true deepParentPlan = none := by
  decide

end Agenterm.Cu.Privilege
