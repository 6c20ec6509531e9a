import Mathlib.Data.List.Basic
import Mathlib.Data.List.Count

/-!
# Single-quoted strings of PowerShell

Five characters open and close a single-quoted string, and two of them in a row inside it stand for
one quote character. Nothing else in it is special. A text that doubles the ASCII quote only is read
back as it was exactly when it has none of the other four (`read_doubled_iff`).
-/

namespace Agenterm.Lib.PowerShell

open List

/-- The quotes other than that of ASCII. -/
def smartQuotes : List Char := ['\u2018', '\u2019', '\u201A', '\u201B']

def isSingleQuote (c : Char) : Bool := c = '\'' || smartQuotes.contains c

/-- Which quote character a pair of them stands for. -/
structure QuotePairs where
  value : Char → Char → Char
  quote : ∀ first second : Char, isSingleQuote first = true → isSingleQuote second = true →
    isSingleQuote (value first second) = true
  ascii : value '\'' '\'' = '\''

/-- The pair stands for its second character. -/
def QuotePairs.second : QuotePairs := ⟨fun _ second => second, fun _ _ _ h => h, rfl⟩

variable (pairs : QuotePairs)

/-- Reads the inside of a string up to its end: the value, and what comes after the string. -/
def readInside : List Char → Option (List Char × List Char)
  | [] => none
  | [c] => if isSingleQuote c then some ([], []) else none
  | c :: next :: rest =>
    if isSingleQuote c then
      if isSingleQuote next then
        (readInside rest).map fun (value, after) => (pairs.value c next :: value, after)
      else
        some ([], next :: rest)
    else
      (readInside (next :: rest)).map fun (value, after) => (c :: value, after)

/-- Reads a string from its opening quote. -/
def readString : List Char → Option (List Char × List Char)
  | [] => none
  | c :: rest => if isSingleQuote c then readInside pairs rest else none

/-- A text in ASCII quotes, with those in it doubled. -/
def doubled (value : List Char) : List Char :=
  '\'' :: value.flatMap (fun c => if c = '\'' then ['\'', '\''] else [c]) ++ ['\'']

def quoteCount (text : List Char) : Nat := text.countP isSingleQuote

section
variable {pairs} {c : Char} {value rest after : List Char}

lemma readInside_other (h : isSingleQuote c = false) :
    readInside pairs (c :: rest) = (readInside pairs rest).map fun (value, after) =>
      (c :: value, after) := by
  have hquote : ¬isSingleQuote c = true := by rw [h]; exact Bool.false_ne_true
  cases rest with
  | nil => exact if_neg hquote
  | cons next rest => exact if_neg hquote

lemma quoteCount_cons :
    quoteCount (c :: rest) = quoteCount rest + if isSingleQuote c then 1 else 0 :=
  countP_cons

/-- A string takes two quotes for each one in its value, and one for its end. -/
lemma quoteCount_readInside {text : List Char} (h : readInside pairs text = some (value, after)) :
    quoteCount text = 2 * quoteCount value + 1 + quoteCount after := by
  induction text using readInside.induct generalizing value after with
  | case1 => cases h
  | case2 c hc =>
    rw [readInside, if_pos hc] at h
    cases h
    rw [quoteCount_cons, if_pos hc]
    rfl
  | case3 c hc =>
    rw [readInside, if_neg hc] at h
    cases h
  | case4 c next rest hc hnext ih =>
    rw [readInside, if_pos hc, if_pos hnext] at h
    obtain ⟨⟨tail, after'⟩, hrest, heq⟩ := Option.map_eq_some_iff.mp h
    cases heq
    have hpair := pairs.quote c next hc hnext
    rw [quoteCount_cons, quoteCount_cons, quoteCount_cons, if_pos hc, if_pos hnext, if_pos hpair,
      ih hrest]
    omega
  | case5 c next rest hc hnext =>
    rw [readInside, if_pos hc, if_neg hnext] at h
    cases h
    rw [quoteCount_cons (c := c), if_pos hc]
    have hnone : quoteCount [] = 0 := rfl
    omega
  | case6 c next rest hc ih =>
    rw [readInside, if_neg hc] at h
    obtain ⟨⟨tail, after'⟩, hrest, heq⟩ := Option.map_eq_some_iff.mp h
    cases heq
    rw [quoteCount_cons (c := c), quoteCount_cons (c := c), if_neg hc, ih hrest]
    rfl

/-- A value without the other quotes is read back. -/
lemma readInside_doubled (hvalue : ∀ c ∈ value, c ∉ smartQuotes)
    (hafter : ∀ c ∈ after.head?, isSingleQuote c = false) :
    readInside pairs (value.flatMap (fun c => if c = '\'' then ['\'', '\''] else [c]) ++
      '\'' :: after) = some (value, after) := by
  induction value with
  | nil =>
    cases after with
    | nil => exact if_pos (by decide)
    | cons next after =>
      have hnext : ¬isSingleQuote next = true := by
        rw [hafter next rfl]
        exact Bool.false_ne_true
      exact (if_pos (by decide)).trans (if_neg hnext)
  | cons c value ih =>
    have hrest := ih fun d hd => hvalue d (mem_cons_of_mem _ hd)
    rw [flatMap_cons, append_assoc]
    by_cases hc : c = '\''
    · have hquote : isSingleQuote '\'' = true := by decide
      rw [if_pos hc, cons_append, singleton_append, readInside, if_pos hquote,
        if_pos hquote, hrest, Option.map_some, pairs.ascii, hc]
    · have hother : isSingleQuote c = false := by
        have hsmart : smartQuotes.contains c = false := by
          rw [← Bool.not_eq_true, contains_iff_mem]
          exact hvalue c mem_cons_self
        rw [isSingleQuote, hsmart, decide_eq_false hc]
        rfl
      rw [if_neg hc, singleton_append, readInside_other hother, hrest, Option.map_some]

/-- What is put between the quotes: the quotes of ASCII twice, the others once. -/
lemma quoteCount_doubled (value : List Char) :
    quoteCount (value.flatMap fun c => if c = '\'' then ['\'', '\''] else [c]) +
      value.countP smartQuotes.contains = 2 * quoteCount value := by
  induction value with
  | nil => rfl
  | cons c value ih =>
    have hsplit (front back : List Char) :
        quoteCount (front ++ back) = quoteCount front + quoteCount back := countP_append
    rw [flatMap_cons, hsplit, countP_cons, quoteCount_cons]
    by_cases hc : c = '\''
    · subst hc
      have htwo : quoteCount ['\'', '\''] = 2 := by decide
      have hsmart : smartQuotes.contains '\'' = false := by decide
      have hquote : isSingleQuote '\'' = true := by decide
      rw [if_pos rfl, htwo, hsmart, hquote]
      simp only [Bool.false_eq_true, if_false, if_true]
      omega
    · have hquote : isSingleQuote c = smartQuotes.contains c := by
        rw [isSingleQuote, decide_eq_false hc, Bool.false_or]
      have hone : quoteCount [c] = if smartQuotes.contains c then 1 else 0 := by
        rw [quoteCount_cons, hquote]
        exact Nat.zero_add _
      rw [if_neg hc, hone, hquote]
      omega

/-- A doubled text is read back as it was exactly when it has none of the other quotes. -/
theorem read_doubled_iff (hafter : ∀ c ∈ after.head?, isSingleQuote c = false) :
    readString pairs (doubled value ++ after) = some (value, after) ↔
      ∀ c ∈ value, c ∉ smartQuotes := by
  have hopen : readString pairs (doubled value ++ after) =
      readInside pairs (value.flatMap (fun c => if c = '\'' then ['\'', '\''] else [c]) ++
        '\'' :: after) := by
    have hquote : isSingleQuote '\'' = true := by decide
    rw [doubled, append_assoc, cons_append, singleton_append, readString,
      if_pos hquote]
  rw [hopen]
  constructor
  · intro h c hc hsmart
    -- each of the other quotes is one quote too few
    have hread := quoteCount_readInside h
    have htext := quoteCount_doubled value
    have hsplit (front back : List Char) :
        quoteCount (front ++ back) = quoteCount front + quoteCount back := countP_append
    have hclose : quoteCount ('\'' :: after) = quoteCount after + 1 := quoteCount_cons
    rw [hsplit, hclose] at hread
    have hpos : 0 < value.countP smartQuotes.contains :=
      countP_pos_iff.mpr ⟨c, hc, contains_iff_mem.mpr hsmart⟩
    omega
  · intro hvalue
    exact readInside_doubled hvalue hafter

end

end Agenterm.Lib.PowerShell
