import Mathlib.Data.List.Basic
import Mathlib.Data.List.Infix

/-!
# Words of a shell command

How a POSIX shell reads a line into the words of one command: blanks separate words, quotes and
backslashes are removed, `#` starts a comment. `shellWords` is `none` when the line is not one
command without redirections whose words are in the line as they stand: at an operator, an
expansion, a pattern or an open quote.

Joined with single spaces, words without special characters (`Inert`) are read back as they were,
and no other words are (`shellWords_join_iff`).
-/

namespace Agenterm.Lib

open List
open Option hiding all_eq_true

/-- Where the shell is in a line. -/
inductive ShellMode where
  | plain
  | escaped
  | single
  | double
  | doubleEscaped
  | comment

def isBlank (c : Char) : Bool := c = ' ' ∨ c = '\t'

/-- Characters that are operators, or part of one. -/
def isOperator (c : Char) : Bool :=
  ['\n', '&', '|', ';', '<', '>', '(', ')'].contains c

/-- Characters with which an expansion or a pattern starts; a shell line has no NUL. -/
def isExpansion (c : Char) : Bool :=
  ['$', '\u0060', '*', '?', '[', '\x00'].contains c

def isQuote (c : Char) : Bool := ['\'', '"', '\\'].contains c

/-- The word so far, if one has begun, with one more character. -/
def grown (word : Option (List Char)) (c : Char) : Option (List Char) := some (word.getD [] ++ [c])

def shellWords : ShellMode → Option (List Char) → List Char → Option (List (List Char))
  | .plain, word, [] => some word.toList
  | .comment, word, [] => some word.toList
  | _, _, [] => none
  | .plain, word, c :: line =>
    if isBlank c then (shellWords .plain none line).map (word.toList ++ ·)
    else if isOperator c || isExpansion c then none
    else if c = '\'' then shellWords .single (some (word.getD [])) line
    else if c = '"' then shellWords .double (some (word.getD [])) line
    else if c = '\\' then shellWords .escaped word line
    else if c = '#' && word.isNone then shellWords .comment none line
    -- a tilde is expanded at the start of a word only
    else if c = '~' && word.isNone then none
    else shellWords .plain (grown word c) line
  | .escaped, word, c :: line =>
    -- a backslash before the end of a line joins it with the next
    if c = '\n' then shellWords .plain word line else shellWords .plain (grown word c) line
  | .single, word, c :: line =>
    if c = '\'' then shellWords .plain word line else shellWords .single (grown word c) line
  | .double, word, c :: line =>
    if c = '"' then shellWords .plain word line
    else if c = '$' || c = '\u0060' then none
    else if c = '\\' then shellWords .doubleEscaped word line
    else shellWords .double (grown word c) line
  | .doubleEscaped, word, c :: line =>
    if c = '\n' then shellWords .double word line
    else if ['$', '\u0060', '"', '\\'].contains c then shellWords .double (grown word c) line
    else shellWords .double (grown (grown word '\\') c) line
  | .comment, word, c :: line =>
    if c = '\n' then none else shellWords .comment word line

/-- The words joined with single spaces. -/
def joinWords (words : List (List Char)) : List Char := [' '].intercalate words

/-- A character that stands for itself anywhere in a word. -/
def isOrdinary (c : Char) : Bool := !(isBlank c || isOperator c || isExpansion c || isQuote c)

/-- A character with which a word of its own may begin. -/
def isStart (c : Char) : Bool := c ≠ '#' ∧ c ≠ '~'

/-- A word that a shell reads as it stands. -/
structure Inert (word : List Char) : Prop where
  nonempty : word ≠ []
  ordinary : ∀ c ∈ word, isOrdinary c = true
  start : ∀ c ∈ word.head?, isStart c = true

/-- The test of a given word. -/
lemma Inert.of_all {word : List Char}
    (h : (!word.isEmpty && word.all isOrdinary && word.head?.all isStart) = true) :
    Inert word := by
  simp only [Bool.and_eq_true, Bool.not_eq_true', isEmpty_eq_false_iff, all_eq_true,
    Option.all_eq_true] at h
  exact ⟨h.1.1, h.1.2, h.2⟩

/-! ## Lines that go on -/

/-- Where the shell is inside a line: the words that are complete, the mode and the open word. -/
structure ShellPoint where
  words : List (List Char)
  mode : ShellMode
  word : Option (List Char)

/-- One character of a line. -/
def shellStep : ShellMode → Option (List Char) → Char → Option ShellPoint
  | .plain, word, c =>
    if isBlank c then some ⟨word.toList, .plain, none⟩
    else if isOperator c || isExpansion c then none
    else if c = '\'' then some ⟨[], .single, some (word.getD [])⟩
    else if c = '"' then some ⟨[], .double, some (word.getD [])⟩
    else if c = '\\' then some ⟨[], .escaped, word⟩
    else if c = '#' && word.isNone then some ⟨[], .comment, none⟩
    else if c = '~' && word.isNone then none
    else some ⟨[], .plain, grown word c⟩
  | .escaped, word, c => some ⟨[], .plain, if c = '\n' then word else grown word c⟩
  | .single, word, c => some (if c = '\'' then ⟨[], .plain, word⟩ else ⟨[], .single, grown word c⟩)
  | .double, word, c =>
    if c = '"' then some ⟨[], .plain, word⟩
    else if c = '$' || c = '\u0060' then none
    else if c = '\\' then some ⟨[], .doubleEscaped, word⟩
    else some ⟨[], .double, grown word c⟩
  | .doubleEscaped, word, c =>
    if c = '\n' then some ⟨[], .double, word⟩
    else if ['$', '\u0060', '"', '\\'].contains c then some ⟨[], .double, grown word c⟩
    else some ⟨[], .double, grown (grown word '\\') c⟩
  | .comment, word, c => if c = '\n' then none else some ⟨[], .comment, word⟩

/-- Where the shell is after a front part of a line. -/
def shellRun (mode : ShellMode) (word : Option (List Char)) : List Char → Option ShellPoint
  | [] => some ⟨[], mode, word⟩
  | c :: line =>
    (shellStep mode word c).bind fun point =>
      (shellRun point.mode point.word line).map fun later =>
        { later with words := point.words ++ later.words }

section
variable {mode : ShellMode} {word : Option (List Char)}

lemma shellWords_cons (mode : ShellMode) (word : Option (List Char)) (c : Char) (line : List Char) :
    shellWords mode word (c :: line) = (shellStep mode word c).bind fun point =>
      (shellWords point.mode point.word line).map (point.words ++ ·) := by
  -- outside of a blank no word is complete, and the words that follow are the words
  have hnone (words : Option (List (List Char))) : words = words.map ([] ++ ·) := by
    rw [show (fun words : List (List Char) => [] ++ words) = id from rfl, Option.map_id_apply]
  cases mode <;> simp only [shellWords, shellStep] <;> repeat' split
  all_goals first
    | rfl
    | exact hnone _

/-- What a line that goes on is read as. -/
lemma shellWords_run {front : List Char} {point : ShellPoint} (line : List Char)
    (h : shellRun mode word front = some point) :
    shellWords mode word (front ++ line) =
      (shellWords point.mode point.word line).map (point.words ++ ·) := by
  induction front generalizing mode word point with
  | nil =>
    cases h
    exact (Option.map_id_apply).symm
  | cons c front ih =>
    obtain ⟨next, hstep, h⟩ := Option.bind_eq_some_iff.mp h
    obtain ⟨later, hrun, rfl⟩ := Option.map_eq_some_iff.mp h
    rw [List.cons_append, shellWords_cons, hstep, Option.bind_some, ih hrun, Option.map_map]
    congr 1
    funext words
    exact (List.append_assoc ..).symm

end

/-! ## Joined words are read back -/

section
variable {word : Option (List Char)} {c : Char} {line : List Char}

lemma isOrdinary_eq_true (h : isOrdinary c = true) :
    isBlank c = false ∧ isOperator c = false ∧ isExpansion c = false ∧ isQuote c = false := by
  unfold isOrdinary at h
  simp only [Bool.not_eq_true', Bool.or_eq_false_iff] at h
  exact ⟨h.1.1.1, h.1.1.2, h.1.2, h.2⟩

lemma isQuote_eq_false (h : isQuote c = false) : c ≠ '\'' ∧ c ≠ '"' ∧ c ≠ '\\' := by
  refine ⟨?_, ?_, ?_⟩ <;> rintro rfl <;> exact absurd h (by decide)

/-- An ordinary character is put to the word, unless it may not begin one. -/
lemma shellStep_ordinary (hc : isOrdinary c = true) (hstart : word = none → isStart c = true) :
    shellStep .plain word c = some ⟨[], .plain, grown word c⟩ := by
  obtain ⟨hblank, hoperator, hexpansion, hquote⟩ := isOrdinary_eq_true hc
  obtain ⟨hsingle, hdouble, hbackslash⟩ := isQuote_eq_false hquote
  have hbegins : word.isNone = true → c ≠ '#' ∧ c ≠ '~' := by
    intro hnone
    exact of_decide_eq_true (hstart (isNone_iff_eq_none.mp hnone))
  rw [shellStep]
  rw [if_neg (by rw [hblank]; exact nofun), if_neg (by rw [hoperator, hexpansion]; exact nofun),
    if_neg hsingle, if_neg hdouble, if_neg hbackslash, if_neg, if_neg]
  · intro htilde
    rw [Bool.and_eq_true] at htilde
    exact (hbegins htilde.2).2 (of_decide_eq_true htilde.1)
  · intro hhash
    rw [Bool.and_eq_true] at hhash
    exact (hbegins hhash.2).1 (of_decide_eq_true hhash.1)

variable {letters : List Char}

lemma shellRun_ordinary (begun : List Char) (hletters : ∀ c ∈ letters, isOrdinary c = true) :
    shellRun .plain (some begun) letters = some ⟨[], .plain, some (begun ++ letters)⟩ := by
  induction letters generalizing begun with
  | nil => rw [append_nil, shellRun]
  | cons c letters ih =>
    have hrest := ih (begun ++ [c]) fun c' hmem => hletters c' (mem_cons_of_mem _ hmem)
    have hbegun : some begun = none → isStart c = true := nofun
    rw [append_assoc] at hrest
    rw [shellRun, shellStep_ordinary (hletters c mem_cons_self) hbegun, bind_some]
    exact congrArg (Option.map _) hrest

/-- A word that stands for itself is read up to its end. -/
lemma shellRun_inert (h : Inert letters) :
    shellRun .plain none letters = some ⟨[], .plain, some letters⟩ := by
  cases letters with
  | nil => exact absurd rfl h.nonempty
  | cons c letters =>
    have hrest : ∀ c' ∈ letters, isOrdinary c' = true :=
      fun c' hmem => h.ordinary c' (mem_cons_of_mem _ hmem)
    rw [shellRun, shellStep_ordinary (h.ordinary c mem_cons_self) fun _ => h.start c rfl,
      bind_some]
    exact congrArg (Option.map _) (shellRun_ordinary [c] hrest)

/-- The first word of a line. -/
lemma shellWords_inert (h : Inert letters) :
    shellWords .plain none (letters ++ line) = shellWords .plain (some letters) line := by
  rw [shellWords_run line (shellRun_inert h)]
  exact map_id_apply

lemma shellWords_blank : shellWords .plain word (' ' :: line) =
    (shellWords .plain none line).map (word.toList ++ ·) := by
  rw [shellWords]
  exact if_pos rfl

lemma joinWords_cons (first second : List Char) (words : List (List Char)) :
    joinWords (first :: second :: words) = first ++ ' ' :: joinWords (second :: words) := by
  unfold joinWords
  rw [intercalate_cons_cons, append_assoc]
  rfl

theorem shellWords_join {words : List (List Char)} (h : ∀ word ∈ words, Inert word) :
    shellWords .plain none (joinWords words) = some words := by
  induction words with
  | nil => rfl
  | cons first words ih =>
    have hfirst := h first mem_cons_self
    cases words with
    | nil =>
      have hread : shellWords .plain none (first ++ []) = _ := shellWords_inert hfirst
      rw [append_nil] at hread
      show shellWords .plain none (joinWords [first]) = _
      rw [show joinWords [first] = first from intercalate_singleton .., hread]
      rfl
    | cons second words =>
      have hrest := ih fun word hmem => h word (mem_cons_of_mem _ hmem)
      rw [joinWords_cons, shellWords_inert hfirst, shellWords_blank, hrest]
      rfl

end

/-! ## No other words are read back -/

/-- The characters that are not spaces. -/
def visible (letters : List Char) : Nat := letters.countP (· ≠ ' ')

lemma visible_cons (c : Char) (letters : List Char) :
    visible (c :: letters) = visible [c] + visible letters := by
  rw [← singleton_append]
  exact countP_append

lemma visible_append (first second : List Char) :
    visible (first ++ second) = visible first + visible second :=
  countP_append

lemma visible_pos {c : Char} (h : c ≠ ' ') : visible [c] = 1 := by
  unfold visible
  rw [countP_singleton, if_pos (decide_eq_true h)]

lemma visible_joinWords (words : List (List Char)) :
    visible (joinWords words) = visible words.flatten := by
  induction words with
  | nil => rfl
  | cons first words ih =>
    cases words with
    | nil => rw [show joinWords [first] = first from intercalate_singleton ..,
        flatten_singleton]
    | cons second words =>
      rw [joinWords_cons, flatten_cons, visible_append, visible_append, visible_cons, ih]
      show _ + (0 + _) = _
      omega

lemma visible_grown (word : Option (List Char)) (c : Char) :
    visible ((grown word c).getD []) = visible (word.getD []) + visible [c] :=
  visible_append _ _

/-- A backslash that may still turn out to stand for itself. -/
def ShellMode.pending : ShellMode → Nat
  | .doubleEscaped => 1
  | _ => 0

/-- What is read has no more characters than the line. -/
lemma visible_shellWords {mode : ShellMode} {word : Option (List Char)} {line : List Char}
    {words : List (List Char)} (h : shellWords mode word line = some words) :
    visible words.flatten ≤ visible (word.getD []) + visible line + mode.pending := by
  induction line generalizing mode word words with
  | nil =>
    cases mode <;> simp only [shellWords, reduceCtorEq, some.injEq] at h <;> subst h <;>
      cases word <;> simp [visible, ShellMode.pending]
  | cons c line ih =>
    have hcons := visible_cons c line
    have hgrown := visible_grown word c
    cases mode with
    | plain =>
      rw [shellWords] at h
      split at h
      · obtain ⟨rest, hrest, rfl⟩ := map_eq_some_iff.mp h
        have hbound := ih hrest
        rw [flatten_append, visible_append]
        have hword : visible (word.toList).flatten = visible (word.getD []) := by
          cases word <;> simp
        have hnone : visible ((none : Option (List Char)).getD []) = 0 := rfl
        simp only [ShellMode.pending] at hbound ⊢
        omega
      · have hempty : visible [] = 0 := rfl
        repeat' split at h
        all_goals first
          | simp only [reduceCtorEq] at h
          | have hbound := ih h
            simp only [ShellMode.pending, getD_some, getD_none] at hbound ⊢
            omega
    | escaped | single | comment =>
      rw [shellWords] at h
      repeat' split at h
      all_goals first
        | simp only [reduceCtorEq] at h
        | have hbound := ih h
          simp only [ShellMode.pending] at hbound ⊢
          omega
    | double =>
      have hbackslash : c = '\\' → visible [c] = 1 := by
        rintro rfl
        rfl
      rw [shellWords] at h
      repeat' split at h
      all_goals first
        | simp only [reduceCtorEq] at h
        | have hbound := ih h
          simp only [ShellMode.pending] at hbound ⊢
          grind
    | doubleEscaped =>
      have hbackslash : visible ((grown word '\\').getD []) = visible (word.getD []) + 1 :=
        (visible_grown word '\\').trans rfl
      have hboth := visible_grown (grown word '\\') c
      rw [shellWords] at h
      repeat' split at h
      all_goals
        have hbound := ih h
        simp only [ShellMode.pending] at hbound ⊢
        omega

/-- When nothing is lost, the words are in the line as they stand. -/
lemma inert_of_visible {word : Option (List Char)} {line : List Char} {words : List (List Char)}
    (hword : ∀ letters, word = some letters → Inert letters)
    (h : shellWords .plain word line = some words)
    (hall : visible words.flatten = visible (word.getD []) + visible line) :
    ∀ letters ∈ words, Inert letters := by
  induction line generalizing word words with
  | nil =>
    rw [shellWords, some.injEq] at h
    subst h
    intro letters hmem
    exact hword letters (mem_toList.mp hmem)
  | cons c line ih =>
    have hcons := visible_cons c line
    rw [shellWords] at h
    split at h
    · -- a blank: the word so far is complete
      rename_i hblank
      obtain ⟨rest, hrest, rfl⟩ := map_eq_some_iff.mp h
      have hbound := visible_shellWords hrest
      rw [flatten_append, visible_append] at hall
      have hcurrent : visible (word.toList).flatten = visible (word.getD []) := by
        cases word <;> simp
      have hnone : visible ((none : Option (List Char)).getD []) = 0 := rfl
      simp only [ShellMode.pending] at hbound
      have hrestInert : ∀ letters ∈ rest, Inert letters := by
        refine ih (fun letters (hnone : none = some letters) => absurd hnone nofun) hrest ?_
        omega
      intro letters hmem
      rcases mem_append.mp hmem with hfirst | hmem
      · exact hword letters (mem_toList.mp hfirst)
      · exact hrestInert letters hmem
    rename_i hblank
    split at h
    · cases h
    rename_i hspecial
    -- what is dropped here would be missing in the words
    have hvisible : visible [c] = 1 := by
      refine visible_pos ?_
      rintro rfl
      exact hblank rfl
    have hempty : visible [] = 0 := rfl
    split at h
    · have hbound := visible_shellWords h
      simp only [ShellMode.pending, getD_some] at hbound
      omega
    rename_i hsingle
    split at h
    · have hbound := visible_shellWords h
      simp only [ShellMode.pending, getD_some] at hbound
      omega
    rename_i hdouble
    split at h
    · have hbound := visible_shellWords h
      simp only [ShellMode.pending] at hbound
      omega
    rename_i hbackslash
    split at h
    · have hbound := visible_shellWords h
      simp only [ShellMode.pending, getD_none] at hbound
      omega
    rename_i hhash
    split at h
    · cases h
    rename_i htilde
    have hgrown := visible_grown word c
    refine ih ?_ h (by omega)
    rintro letters hletters
    cases hletters
    have hquote : isQuote c = false := by
      simp [isQuote, hsingle, hdouble, hbackslash]
    have hordinary : isOrdinary c = true := by
      simp only [Bool.or_eq_true, not_or, Bool.not_eq_true] at hspecial
      simp [isOrdinary, hblank, hspecial.1, hspecial.2, hquote]
    cases word with
    | none =>
      refine ⟨nofun, ?_, ?_⟩
      · intro c' hmem
        rw [mem_singleton.mp hmem]
        exact hordinary
      · intro c' hmem
        obtain rfl : c = c' := some.inj hmem
        simp only [isNone_none, Bool.and_true, decide_eq_true_eq] at hhash htilde
        exact decide_eq_true ⟨hhash, htilde⟩
    | some begun =>
      have hbegun := hword begun rfl
      refine ⟨?_, ?_, ?_⟩
      · exact append_ne_nil_of_right_ne_nil _ nofun
      · intro c' hmem
        rcases mem_append.mp hmem with hold | hlast
        · exact hbegun.ordinary c' hold
        · rw [mem_singleton.mp hlast]
          exact hordinary
      · intro c' hmem
        have hhead : (begun ++ [c]).head? = begun.head? := by
          cases begun with
          | nil => exact absurd rfl hbegun.nonempty
          | cons first rest => rfl
        refine hbegun.start c' ?_
        rw [← hhead]
        exact hmem

theorem inert_of_shellWords_join {words : List (List Char)}
    (h : shellWords .plain none (joinWords words) = some words) : ∀ word ∈ words, Inert word := by
  refine inert_of_visible (fun letters (hnone : none = some letters) => absurd hnone nofun) h ?_
  rw [visible_joinWords]
  exact (Nat.zero_add _).symm

/-- Which words a shell reads back as they were. -/
theorem shellWords_join_iff (words : List (List Char)) :
    shellWords .plain none (joinWords words) = some words ↔ ∀ word ∈ words, Inert word :=
  ⟨inert_of_shellWords_join, shellWords_join⟩

/-! ## Quoted words -/

/-- A word in single quotes: each quote in it closes them, and is put with a backslash. -/
def quoted (word : List Char) : List Char :=
  '\'' :: word.flatMap (fun c => if c = '\'' then ['\'', '\\', '\'', '\''] else [c]) ++ ['\'']

section
variable {line : List Char}

lemma shellWords_single (begun letters : List Char) :
    shellWords .single (some begun) (letters.flatMap
        (fun c => if c = '\'' then ['\'', '\\', '\'', '\''] else [c]) ++ '\'' :: line) =
      shellWords .plain (some (begun ++ letters)) line := by
  induction letters generalizing begun with
  | nil =>
    rw [append_nil]
    exact if_pos rfl
  | cons c letters ih =>
    have hrest := ih (begun ++ [c])
    rw [append_assoc] at hrest
    rw [flatMap_cons, append_assoc]
    refine Eq.trans ?_ hrest
    split
    next hquote =>
      -- the quote, the backslash, the quote and the quote again
      rw [hquote]
      rfl
    next hquote =>
      show shellWords .single (some begun) (c :: _) = _
      rw [shellWords, if_neg hquote]
      rfl

/-- A quoted word is read as it was, whatever is in it. -/
lemma shellWords_quoted (word : List Char) :
    shellWords .plain none (quoted word ++ line) = shellWords .plain (some word) line := by
  have hread : shellWords .single (some []) (_ ++ '\'' :: line) = _ := shellWords_single [] word
  rw [nil_append] at hread
  rw [quoted, append_assoc]
  exact hread

/-- Quoted words after a word that may still be open. -/
lemma shellWords_quoted_words (word : Option (List Char)) (words : List (List Char)) :
    shellWords .plain word (words.flatMap fun next => ' ' :: quoted next) =
      some (word.toList ++ words) := by
  induction words generalizing word with
  | nil =>
    rw [append_nil]
    rfl
  | cons next words ih =>
    rw [flatMap_cons, cons_append, shellWords_blank, shellWords_quoted, ih]
    rfl

lemma joinWords_cons_flatMap (first : List Char) (words : List (List Char)) :
    joinWords (first :: words) = first ++ words.flatMap fun next => ' ' :: next := by
  induction words generalizing first with
  | nil => exact (intercalate_singleton ..).trans (append_nil _).symm
  | cons second words ih => rw [joinWords_cons, ih, flatMap_cons, cons_append]

/-- Quoted words joined after a line that ends outside of quotes and comments. -/
theorem shellWords_join_quoted {front : List Char} {done : List (List Char)}
    {word : Option (List Char)} (words : List (List Char))
    (h : shellRun .plain none front = some ⟨done, .plain, word⟩) :
    shellWords .plain none (joinWords (front :: words.map quoted)) =
      some (done ++ word.toList ++ words) := by
  rw [joinWords_cons_flatMap, shellWords_run _ h, flatMap_map, shellWords_quoted_words,
    map_some, append_assoc]

end

end Agenterm.Lib
