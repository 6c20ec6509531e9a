import Agenterm.Lib.Lines

/-!
# The lines of the MCP input

`read_bounded_line` and `read_input` of `mcp_stdio.rs`. A reader hands out what is left of the stream
in pieces of any sizes. Whatever they are, one call takes one line from the stream and judges it by
its length, and the calls together give all lines in their order.
-/

namespace Agenterm.Mcp

open Lib List

inductive BoundedLine where
  | eof
  | oversized
  | line (bytes : List UInt8)
deriving DecidableEq

/-- A buffered reader whose reads succeed: the bytes that are left, and how many of them, less one,
each call of `fill_buf` makes available. -/
structure BufRead where
  rest : List UInt8
  sizes : Nat → Nat

namespace BufRead

/-- The available bytes, none at the end only, and the reader for the next call. -/
def fillBuf (input : BufRead) : List UInt8 × BufRead :=
  (input.rest.take (input.sizes 0 + 1), { input with sizes := fun k => input.sizes (k + 1) })

def consume (input : BufRead) (count : Nat) : BufRead :=
  { input with rest := input.rest.drop count }

end BufRead

def newline : UInt8 := 10

/-- How much of the available bytes belongs to the line, its end included. -/
def consumedOf (available : List UInt8) : Nat :=
  ((available.findIdx? (· == newline)).map (· + 1)).getD available.length

lemma consumedOf_pos {available : List UInt8} (h : available ≠ []) : 0 < consumedOf available := by
  have hpos := length_pos_iff.mpr h
  unfold consumedOf
  cases available.findIdx? (· == newline) with
  | none => exact hpos
  | some i => exact Nat.succ_pos i

/-- The loop of `read_bounded_line`, with the line so far and whether it was given up. -/
def readBoundedLineFrom (maximum : Nat) (line : List UInt8) (oversized : Bool)
    (input : BufRead) : BoundedLine × BufRead :=
  let available := input.fillBuf.1
  let filled := input.fillBuf.2
  if _hempty : available = [] then
    if line.isEmpty && !oversized then (.eof, filled)
    else if oversized then (.oversized, filled)
    else (.line line, filled)
  else
    let newlineAt := available.findIdx? (· == newline)
    let consumed := consumedOf available
    let payload :=
      if newlineAt.isSome then available.take (consumed - 1) else available.take consumed
    let next :=
      if oversized then (line, true)
      else if line.length + payload.length > maximum then ([], true)
      else (line ++ payload, false)
    let left := filled.consume consumed
    if newlineAt.isSome then
      if next.2 then (.oversized, left) else (.line next.1, left)
    else
      readBoundedLineFrom maximum next.1 next.2 left
termination_by input.rest.length
decreasing_by
  have hpos := consumedOf_pos _hempty
  have hrest : input.rest ≠ [] := by
    intro hnil
    apply _hempty
    show input.rest.take _ = []
    rw [hnil, take_nil]
  have hlength := length_pos_iff.mpr hrest
  show (input.rest.drop (consumedOf available)).length < input.rest.length
  rw [length_drop]
  omega

def readBoundedLine (maximum : Nat) (input : BufRead) : BoundedLine × BufRead :=
  readBoundedLineFrom maximum [] false input

/-! ## One call -/

/-- What a segment of the stream is to the caller. -/
def judge (maximum : Nat) (segment : List UInt8) : BoundedLine :=
  if segment.length ≤ maximum then .line segment else .oversized

/-- What a call gives on a stream. -/
def lineOf (maximum : Nat) (stream : List UInt8) : BoundedLine :=
  if stream = [] then .eof else judge maximum (stream.takeWhile (· != newline))

/-- What the loop holds when it has seen this much of a line. -/
def held (maximum : Nat) (seen : List UInt8) : List UInt8 × Bool :=
  if seen.length ≤ maximum then (seen, false) else ([], true)

/-- The limit is tested piece by piece, and gives up the line where the whole is too long. -/
lemma held_append (maximum : Nat) (seen payload : List UInt8) :
    (if (held maximum seen).2 then ((held maximum seen).1, true)
      else if (held maximum seen).1.length + payload.length > maximum then ([], true)
      else ((held maximum seen).1 ++ payload, false)) = held maximum (seen ++ payload) := by
  unfold held
  rw [length_append]
  by_cases hseen : seen.length ≤ maximum
  · rw [if_pos hseen, if_neg Bool.false_ne_true]
    dsimp only
    by_cases hall : seen.length + payload.length ≤ maximum
    · rw [if_neg (by omega), if_pos hall]
    · rw [if_pos (by omega), if_neg hall]
  · rw [if_neg hseen, if_pos rfl, if_neg (by omega)]

/-- A line that has ended is judged by its length. -/
lemma judge_held (maximum : Nat) (seen : List UInt8) :
    (if (held maximum seen).2 then BoundedLine.oversized else .line (held maximum seen).1) =
      judge maximum seen := by
  unfold held judge
  split
  · rw [if_neg Bool.false_ne_true]
  · rw [if_pos rfl]

/-- What is left of a line where the stream ends. -/
lemma lineOf_held (maximum : Nat) {seen : List UInt8} (hseen : newline ∉ seen) :
    (if (held maximum seen).1.isEmpty && !(held maximum seen).2 then BoundedLine.eof
      else if (held maximum seen).2 then .oversized else .line (held maximum seen).1) =
      lineOf maximum seen := by
  by_cases hnil : seen = []
  · have hnothing : held maximum [] = ([], false) := if_pos (Nat.zero_le _)
    rw [hnil, hnothing]
    rfl
  · have hall : seen.takeWhile (· != newline) = seen := by
      have happend : (seen ++ []).takeWhile (· != newline) = seen ++ [].takeWhile (· != newline) := by
        apply takeWhile_append_of_pos
        intro a ha
        simpa using ne_of_mem_of_not_mem ha hseen
      rwa [append_nil, takeWhile_nil, append_nil] at happend
    have hnotEnd : ¬((held maximum seen).1.isEmpty && !(held maximum seen).2) = true := by
      unfold held
      split <;> simp [hnil]
    rw [if_neg hnotEnd, judge_held, lineOf, if_neg hnil, hall]

/-- The rest of a line of which something has been seen, whatever pieces it comes in. -/
lemma readBoundedLineFrom_held (maximum : Nat) {seen : List UInt8} (hseen : newline ∉ seen)
    (input : BufRead) {answer : BoundedLine × BufRead}
    (h : readBoundedLineFrom maximum (held maximum seen).1 (held maximum seen).2 input = answer) :
    answer.1 = lineOf maximum (seen ++ input.rest) ∧
      answer.2.rest = afterLine newline input.rest := by
  induction hn : input.rest.length using Nat.strong_induction_on generalizing seen input with
  | h n ih =>
    rw [readBoundedLineFrom] at h
    dsimp only at h
    have hrest : input.fillBuf.1 ++ input.rest.drop (input.sizes 0 + 1) = input.rest :=
      take_append_drop _ _
    split at h
    next hempty =>
      have hnil : input.rest = [] := by
        cases hcase : input.rest with
        | nil => rfl
        | cons byte rest =>
          rw [BufRead.fillBuf, hcase] at hempty
          cases hempty
      rw [hnil, append_nil, ← lineOf_held maximum hseen]
      have hleft : input.fillBuf.2.rest = [] := hnil
      subst h
      split
      · exact ⟨rfl, hleft⟩
      · split
        · exact ⟨rfl, hleft⟩
        · exact ⟨rfl, hleft⟩
    next hempty =>
      have hdrop : (input.fillBuf.2.consume (consumedOf input.fillBuf.1)).rest =
          input.rest.drop (consumedOf input.fillBuf.1) := rfl
      generalize input.fillBuf.1 = available at *
      rw [held_append] at h
      cases hfind : available.findIdx? (· == newline) with
      | some i =>
        -- The line ends in this piece.
        have hconsumed : consumedOf available = i + 1 := by
          rw [consumedOf, hfind]
          rfl
        obtain ⟨-, hafter⟩ := lines_of_findIdx? hfind (input.rest.drop (input.sizes 0 + 1))
        rw [hrest] at hafter
        have htake := takeWhile_of_findIdx? hfind (input.rest.drop (input.sizes 0 + 1))
        rw [hrest] at htake
        have hwithin : i < available.length := (List.findIdx?_eq_some_iff_getElem.mp hfind).1
        have hleft : (input.fillBuf.2.consume (consumedOf available)).rest =
            afterLine newline input.rest := by
          rw [hdrop, hconsumed, hafter, ← hrest, drop_append_of_le_length (by omega)]
          rw [hrest]
        have hline : lineOf maximum (seen ++ input.rest) =
            judge maximum (seen ++ available.take i) := by
          have hne : seen ++ input.rest ≠ [] := by
            rw [← hrest]
            simp [hempty]
          rw [lineOf, if_neg hne, ← htake, takeWhile_append_of_pos]
          intro a ha
          simpa using ne_of_mem_of_not_mem ha hseen
        rw [hline, ← judge_held, ← hleft]
        simp only [hfind, Option.isSome_some, if_true, hconsumed, Nat.add_sub_cancel] at h ⊢
        subst h
        split
        · exact ⟨rfl, rfl⟩
        · exact ⟨rfl, rfl⟩
      | none =>
        -- The line goes on behind this piece.
        have hconsumed : consumedOf available = available.length := by
          rw [consumedOf, hfind]
          rfl
        have hmem := not_mem_of_findIdx? hfind
        have hleft : (input.fillBuf.2.consume (consumedOf available)).rest =
            input.rest.drop (input.sizes 0 + 1) := by
          rw [hdrop, hconsumed, ← hrest, drop_left]
          rw [hrest]
        simp only [hfind, Option.isSome_none, Bool.false_eq_true, if_false, hconsumed,
          take_length] at h
        have hseen' : newline ∉ seen ++ available := by
          rw [mem_append, not_or]
          exact ⟨hseen, hmem⟩
        rw [hconsumed] at hleft
        have hshorter : (input.fillBuf.2.consume available.length).rest.length < n := by
          rw [hleft, ← hn, ← congrArg List.length hrest, length_append]
          have hpos := length_pos_iff.mpr hempty
          omega
        obtain ⟨hline, hafter⟩ := ih _ hshorter hseen' _ h rfl
        rw [hleft, append_assoc, hrest] at hline
        rw [hleft] at hafter
        rw [← hrest, afterLine_append_of_not_mem hmem]
        exact ⟨by rwa [hrest], hafter⟩

/-- One call takes the first line from the stream. -/
lemma readBoundedLine_eq (maximum : Nat) (input : BufRead) :
    (readBoundedLine maximum input).1 = lineOf maximum input.rest ∧
      (readBoundedLine maximum input).2.rest = afterLine newline input.rest := by
  have hnothing : held maximum [] = ([], false) := if_pos (Nat.zero_le _)
  have hcall := @readBoundedLineFrom_held maximum [] not_mem_nil input
    (readBoundedLine maximum input)
  rw [hnothing] at hcall
  exact hcall rfl

/-! ## All calls -/

lemma length_afterLine_lt {stream : List UInt8} (h : stream ≠ []) :
    (afterLine newline stream).length < stream.length := by
  have hall := congrArg List.length (@firstLine_append_afterLine UInt8 _ newline stream)
  rw [length_append] at hall
  have hpos : 0 < (firstLine newline stream).length := by
    cases stream with
    | nil => exact absurd rfl h
    | cons byte stream =>
      rw [firstLine]
      split
      · exact Nat.succ_pos _
      · exact Nat.succ_pos _
  omega

/-- The events that `read_input` sends: one for each line, up to the end. -/
def readInput (limit : Nat) (input : BufRead) : List BoundedLine :=
  let answer := readBoundedLine limit input
  if _hend : answer.1 = .eof then [.eof] else answer.1 :: readInput limit answer.2
termination_by input.rest.length
decreasing_by
  obtain ⟨hline, hrest⟩ := readBoundedLine_eq limit input
  have hne : input.rest ≠ [] := by
    intro hnil
    apply _hend
    rw [hline, hnil]
    rfl
  show (readBoundedLine limit input).2.rest.length < _
  rw [hrest]
  exact length_afterLine_lt hne

/-- The calls give the segments of the stream in their order, each judged by its length, and then the
end. -/
theorem readInput_segments (limit : Nat) (input : BufRead) :
    readInput limit input = (segments newline input.rest).map (judge limit) ++ [.eof] := by
  induction hn : input.rest.length using Nat.strong_induction_on generalizing input with
  | h n ih =>
    obtain ⟨hline, hrest⟩ := readBoundedLine_eq limit input
    rw [readInput]
    by_cases hnil : input.rest = []
    · have heof : (readBoundedLine limit input).1 = .eof := by
        rw [hline, hnil]
        rfl
      rw [dif_pos heof, hnil]
      rfl
    · have hjudged : (readBoundedLine limit input).1 =
          judge limit (input.rest.takeWhile (· != newline)) := by
        rw [hline, lineOf, if_neg hnil]
      have hnotEnd : (readBoundedLine limit input).1 ≠ .eof := by
        rw [hjudged, judge]
        split
        · exact BoundedLine.noConfusion
        · exact BoundedLine.noConfusion
      rw [dif_neg hnotEnd, hjudged, segments_eq hnil, map_cons, cons_append,
        ih _ (hn ▸ hrest ▸ length_afterLine_lt hnil) (readBoundedLine limit input).2 rfl, hrest]

end Agenterm.Mcp
