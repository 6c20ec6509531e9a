import Mathlib.Algebra.Order.Group.Nat
import Mathlib.Algebra.Ring.Nat
import Mathlib.Algebra.BigOperators.Group.List.Basic

/-!
# Editing a text field

`frontend/text_selection.rs`. The text is a list of characters; the functions find byte offsets and
cut the text at them, which stops the program where an offset is inside a character or behind the
end. No offset they compute is: what they do is to take, remove and replace slices of the list.
-/

namespace Agenterm.TextSelection

open List Option

structure TextCursor where
  anchor : Nat
  focus : Nat
deriving DecidableEq

namespace TextCursor

def at_ (offset : Nat) : TextCursor := { anchor := offset, focus := offset }

/-- The ends of the selection in ascending order. -/
def range (cursor : TextCursor) : Nat × Nat :=
  if cursor.anchor ≤ cursor.focus then (cursor.anchor, cursor.focus)
  else (cursor.focus, cursor.anchor)

def clamped (cursor : TextCursor) (len : Nat) : TextCursor :=
  { anchor := min cursor.anchor len, focus := min cursor.focus len }

end TextCursor

/-! ## Bytes of a text -/

def byteLen (text : List Char) : Nat := (text.map Char.utf8Size).sum

/-- The characters with the byte offsets at which they start. -/
def charIndicesFrom (start : Nat) : List Char → List (Nat × Char)
  | [] => []
  | c :: rest => (start, c) :: charIndicesFrom (start + c.utf8Size) rest

def byteOffset (text : List Char) (charIndex : Nat) : Nat :=
  ((charIndicesFrom 0 text)[charIndex]?.map Prod.fst).getD (byteLen text)

/-- The text before and behind a byte offset; there is none inside a character. -/
def splitAtByte : List Char → Nat → Option (List Char × List Char)
  | text, 0 => some ([], text)
  | [], _ + 1 => none
  | c :: rest, offset =>
    if c.utf8Size ≤ offset then
      (splitAtByte rest (offset - c.utf8Size)).map fun (front, back) => (c :: front, back)
    else none

/-- `&text[start..end]`. -/
def byteSlice (text : List Char) (start last : Nat) : Option (List Char) := do
  if last < start then none
  let (front, _) ← splitAtByte text last
  let (_, part) ← splitAtByte front start
  some part

/-- `text.replace_range(start..end, with)`. -/
def replaceRange (text : List Char) (start last : Nat) (replacement : List Char) :
    Option (List Char) := do
  if last < start then none
  let (front, back) ← splitAtByte text last
  let (before, _) ← splitAtByte front start
  some (before ++ replacement ++ back)

def insertStr (text : List Char) (offset : Nat) (insertion : List Char) : Option (List Char) := do
  let (front, back) ← splitAtByte text offset
  some (front ++ insertion ++ back)

/-! ## The selection -/

def byteRange (text : List Char) (start last : Nat) : Option (Nat × Nat) :=
  if start ≥ last then none
  else
    let startByte := byteOffset text start
    let endByte := byteOffset text last
    if startByte < endByte then some (startByte, endByte) else none

/-- The selected text when there is one; nothing at all where the program stops. -/
def selectedText (text : List Char) (cursor : TextCursor) : Option (Option (List Char)) :=
  match byteRange text cursor.range.1 cursor.range.2 with
  | none => some none
  | some (startByte, endByte) => (byteSlice text startByte endByte).map some

/-- The text without the selection, and the caret when there was a selection. -/
def deleteSelection (text : List Char) (cursor : TextCursor) :
    Option (List Char × Option TextCursor) :=
  match byteRange text cursor.range.1 cursor.range.2 with
  | none => some (text, none)
  | some (startByte, endByte) =>
    (replaceRange text startByte endByte []).map fun text =>
      (text, some (.at_ cursor.range.1))

def insert (text : List Char) (cursor : TextCursor) (insertion : List Char) :
    Option (List Char × TextCursor) :=
  let cursor := cursor.clamped text.length
  let startByte := byteOffset text cursor.range.1
  let edited :=
    match byteRange text cursor.range.1 cursor.range.2 with
    | some (selectionStart, selectionEnd) =>
      replaceRange text selectionStart selectionEnd insertion
    | none => insertStr text startByte insertion
  edited.map fun text => (text, .at_ (cursor.range.1 + insertion.length))

/-! ## Offsets -/

section
variable {text : List Char}

lemma utf8Size_pos (c : Char) : 0 < c.utf8Size := Char.utf8Size_pos c

lemma byteLen_cons (c : Char) (rest : List Char) :
    byteLen (c :: rest) = c.utf8Size + byteLen rest := by
  rw [byteLen, map_cons, sum_cons, ← byteLen]

lemma byteLen_append (front back : List Char) :
    byteLen (front ++ back) = byteLen front + byteLen back := by
  rw [byteLen, map_append, sum_append, ← byteLen, ← byteLen]

lemma getElem?_charIndicesFrom (start : Nat) (text : List Char) (i : Nat) :
    (charIndicesFrom start text)[i]?.map Prod.fst =
      if i < text.length then some (start + byteLen (text.take i)) else none := by
  induction text generalizing start i with
  | nil => simp [charIndicesFrom]
  | cons c rest ih =>
    cases i with
    | zero => simp [charIndicesFrom, byteLen]
    | succ i =>
      rw [charIndicesFrom, List.getElem?_cons_succ, ih, length_cons, take_succ_cons,
        byteLen_cons, Nat.add_assoc]
      simp only [Nat.add_lt_add_iff_right]

/-- The byte offset of a character is what the characters before it take. -/
lemma byteOffset_eq (text : List Char) (i : Nat) : byteOffset text i = byteLen (text.take i) := by
  rw [byteOffset, getElem?_charIndicesFrom]
  split
  · rw [Nat.zero_add]
    rfl
  · rw [take_of_length_le (by omega)]
    rfl

/-- At the offset of a character the text can be cut. -/
lemma splitAtByte_byteLen (front back : List Char) :
    splitAtByte (front ++ back) (byteLen front) = some (front, back) := by
  induction front with
  | nil =>
    show splitAtByte back 0 = _
    unfold splitAtByte
    cases back <;> rfl
  | cons c front ih =>
    have hpos := utf8Size_pos c
    rw [cons_append, byteLen_cons]
    cases hsum : c.utf8Size + byteLen front with
    | zero => omega
    | succ offset =>
      rw [splitAtByte, if_pos (by omega), ← hsum, Nat.add_sub_cancel_left, ih]
      · rfl
      · simp

lemma byteLen_eq_zero : byteLen text = 0 ↔ text = [] := by
  cases text with
  | nil => simp [byteLen]
  | cons c rest =>
    have hpos := utf8Size_pos c
    rw [byteLen_cons]
    simp only [reduceCtorEq, iff_false]
    omega

end

/-! ## Slices -/

section
variable (text : List Char) {start last : Nat}

/-- The characters from `start` up to `last`. -/
def charSlice (start last : Nat) : List Char := (text.take last).drop start

/-- A text is what is before a slice, the slice, and what is behind it. -/
lemma take_append_charSlice (h : start ≤ last) :
    text.take start ++ charSlice text start last = text.take last := by
  have htake : (text.take last).take start = text.take start := by
    rw [take_take, Nat.min_eq_left h]
  rw [charSlice, ← htake, take_append_drop]

lemma byteLen_take (h : start ≤ last) :
    byteLen (text.take last) = byteLen (text.take start) + byteLen (charSlice text start last) := by
  rw [← take_append_charSlice text h, byteLen_append]

lemma splitAtByte_byteOffset (i : Nat) :
    splitAtByte text (byteOffset text i) = some (text.take i, text.drop i) := by
  have hsplit := splitAtByte_byteLen (text.take i) (text.drop i)
  rwa [take_append_drop, ← byteOffset_eq] at hsplit

lemma splitAtByte_take (h : start ≤ last) :
    splitAtByte (text.take last) (byteOffset text start) =
      some (text.take start, charSlice text start last) := by
  rw [← take_append_charSlice text h, byteOffset_eq]
  exact splitAtByte_byteLen _ _

lemma byteOffset_le (h : start ≤ last) : ¬byteOffset text last < byteOffset text start := by
  rw [byteOffset_eq, byteOffset_eq, byteLen_take text h]
  omega

lemma byteSlice_eq (h : start ≤ last) :
    byteSlice text (byteOffset text start) (byteOffset text last) =
      some (charSlice text start last) := by
  unfold byteSlice
  rw [if_neg (byteOffset_le text h), splitAtByte_byteOffset]
  show (splitAtByte (text.take last) (byteOffset text start)).bind _ = _
  rw [splitAtByte_take text h]
  rfl

lemma replaceRange_eq (h : start ≤ last) (replacement : List Char) :
    replaceRange text (byteOffset text start) (byteOffset text last) replacement =
      some (text.take start ++ replacement ++ text.drop last) := by
  unfold replaceRange
  rw [if_neg (byteOffset_le text h), splitAtByte_byteOffset]
  show (splitAtByte (text.take last) (byteOffset text start)).bind _ = _
  rw [splitAtByte_take text h]
  rfl

lemma insertStr_eq (i : Nat) (insertion : List Char) :
    insertStr text (byteOffset text i) insertion =
      some (text.take i ++ insertion ++ text.drop i) := by
  unfold insertStr
  rw [splitAtByte_byteOffset]
  rfl

/-- There is a range of bytes where the slice has a character. -/
lemma byteRange_eq (h : start ≤ last) :
    byteRange text start last =
      if charSlice text start last = [] then none
      else some (byteOffset text start, byteOffset text last) := by
  have hlen := byteLen_take text h
  unfold byteRange
  dsimp only
  by_cases hslice : charSlice text start last = []
  · rw [if_pos hslice]
    rw [hslice] at hlen
    split
    · rfl
    · rw [if_neg]
      rw [byteOffset_eq, byteOffset_eq, hlen]
      exact Nat.lt_irrefl _
  · rw [if_neg hslice]
    have hpos : 0 < byteLen (charSlice text start last) :=
      Nat.pos_of_ne_zero (mt byteLen_eq_zero.mp hslice)
    have hne : ¬start ≥ last := by
      intro hge
      apply hslice
      rw [charSlice, drop_eq_nil_iff, length_take]
      omega
    rw [if_neg hne, if_pos]
    rw [byteOffset_eq, byteOffset_eq]
    omega

end

/-! ## Editing -/

lemma TextCursor.range_le (cursor : TextCursor) : cursor.range.1 ≤ cursor.range.2 := by
  unfold range
  split
  · assumption
  · omega

/-- The selection is the slice between anchor and caret. -/
lemma selectedText_eq (text : List Char) (cursor : TextCursor) :
    selectedText text cursor = some (
      if charSlice text cursor.range.1 cursor.range.2 = [] then none
      else some (charSlice text cursor.range.1 cursor.range.2)) := by
  unfold selectedText
  rw [byteRange_eq text cursor.range_le]
  by_cases hslice : charSlice text cursor.range.1 cursor.range.2 = []
  · rw [if_pos hslice, if_pos hslice]
  · rw [if_neg hslice, if_neg hslice]
    show (byteSlice _ _ _).map some = _
    rw [byteSlice_eq text cursor.range_le]
    rfl

/-- The slice is taken out, and the caret is where it was. -/
lemma deleteSelection_eq (text : List Char) (cursor : TextCursor) :
    deleteSelection text cursor = some (
      if charSlice text cursor.range.1 cursor.range.2 = [] then (text, none)
      else (text.take cursor.range.1 ++ text.drop cursor.range.2, some (.at_ cursor.range.1))) := by
  unfold deleteSelection
  rw [byteRange_eq text cursor.range_le]
  by_cases hslice : charSlice text cursor.range.1 cursor.range.2 = []
  · rw [if_pos hslice, if_pos hslice]
  · rw [if_neg hslice, if_neg hslice]
    show (replaceRange _ _ _ []).map _ = _
    rw [replaceRange_eq text cursor.range_le, append_nil]
    rfl

lemma clamped_range (cursor : TextCursor) (len : Nat) :
    (cursor.clamped len).range = (min cursor.range.1 len, min cursor.range.2 len) := by
  unfold TextCursor.clamped TextCursor.range
  dsimp only
  by_cases hle : cursor.anchor ≤ cursor.focus
  · rw [if_pos (by omega), if_pos hle]
  · rw [if_neg hle]
    split
    · rw [Prod.mk.injEq]
      omega
    · rfl

/-- An end behind the text is the end of the text. -/
lemma take_min_length (text : List Char) (i : Nat) : text.take (min i text.length) = text.take i := by
  rw [← take_eq_take_min]

lemma drop_min_length (text : List Char) (i : Nat) : text.drop (min i text.length) = text.drop i := by
  rcases Nat.le_total i text.length with h | h
  · rw [Nat.min_eq_left h]
  · rw [Nat.min_eq_right h, drop_length, drop_eq_nil_iff.mpr h]

/-- The insertion takes the place of the slice, and the caret stands behind it. -/
lemma insert_eq (text : List Char) (cursor : TextCursor) (insertion : List Char) :
    insert text cursor insertion = some
      (text.take cursor.range.1 ++ insertion ++ text.drop cursor.range.2,
        .at_ (min cursor.range.1 text.length + insertion.length)) := by
  have hle := (cursor.clamped text.length).range_le
  have hrange := clamped_range cursor text.length
  unfold insert
  dsimp only
  rw [byteRange_eq text hle]
  by_cases hslice : charSlice text (cursor.clamped text.length).range.1
      (cursor.clamped text.length).range.2 = []
  · rw [if_pos hslice]
    show (insertStr _ _ _).map _ = _
    -- Inside the text an empty slice has equal ends.
    have hends : (cursor.clamped text.length).range.1 = (cursor.clamped text.length).range.2 := by
      rw [charSlice, drop_eq_nil_iff, length_take] at hslice
      rw [hrange] at hslice hle ⊢
      dsimp only at hslice hle ⊢
      omega
    have hdrop : text.drop (cursor.clamped text.length).range.1 =
        text.drop (cursor.clamped text.length).range.2 := by rw [hends]
    rw [insertStr_eq, hdrop, hrange]
    dsimp only
    rw [take_min_length, drop_min_length]
    rfl
  · rw [if_neg hslice]
    show (replaceRange _ _ _ _).map _ = _
    rw [replaceRange_eq text hle, hrange]
    dsimp only
    rw [take_min_length, drop_min_length]
    rfl

/-! ## Words -/

section
variable (isAlphanumeric : Char → Bool)

def isWordChar (value : Char) : Bool := isAlphanumeric value || value = '_'

/-- How far the word goes to the left; an index out of range stops the program. -/
def wordStart (chars : List Char) : Nat → Option Nat
  | 0 => some 0
  | start + 1 => do
    let before ← chars[start]?
    if isWordChar isAlphanumeric before then wordStart chars start else some (start + 1)

/-- How far it goes to the right, with the number of characters that are left. -/
def wordEnd (chars : List Char) : Nat → Nat → Option Nat
  | 0, last => some last
  | left + 1, last => do
    let next ← chars[last]?
    if isWordChar isAlphanumeric next then wordEnd chars left (last + 1) else some last

def wordBounds (chars : List Char) (offset : Nat) : Option (Nat × Nat) := do
  if chars.isEmpty then return (0, 0)
  let index := min offset (chars.length - 1)
  let char ← chars[index]?
  if !isWordChar isAlphanumeric char then return (index, index + 1)
  let start ← wordStart isAlphanumeric chars index
  let last ← wordEnd isAlphanumeric chars (chars.length - (index + 1)) (index + 1)
  return (start, last)

/-- The characters from `first` to `last` belong to a word. -/
def WordBetween (chars : List Char) (first last : Nat) : Prop :=
  ∀ i c, first ≤ i → i < last → chars[i]? = some c → isWordChar isAlphanumeric c = true

lemma wordStart_spec {chars : List Char} {index : Nat} (h : index ≤ chars.length) :
    ∃ start ≤ index, wordStart isAlphanumeric chars index = some start ∧
      WordBetween isAlphanumeric chars start index := by
  induction index with
  | zero => exact ⟨0, Nat.le_refl 0, rfl, fun i c _ hi => absurd hi (Nat.not_lt_zero i)⟩
  | succ index ih =>
    obtain ⟨start, hstart, heq, hword⟩ := ih (by omega)
    have hget : chars[index]? = some chars[index] := List.getElem?_eq_getElem (by omega)
    rw [wordStart, hget]
    simp only [bind_eq_bind, bind_some]
    split
    next hchar =>
      refine ⟨start, by omega, heq, ?_⟩
      intro i c hi hlt hc
      by_cases hlast : i = index
      · rw [hlast, hget] at hc
        rwa [← some.inj hc]
      · exact hword i c hi (by omega) hc
    next => exact ⟨index + 1, Nat.le_refl _, rfl, fun i c hi hlt => absurd hlt (by omega)⟩

lemma wordEnd_spec {chars : List Char} {left last : Nat} (h : last + left ≤ chars.length) :
    ∃ stop, last ≤ stop ∧ stop ≤ last + left ∧
      wordEnd isAlphanumeric chars left last = some stop ∧
      WordBetween isAlphanumeric chars last stop := by
  induction left generalizing last with
  | zero =>
    exact ⟨last, Nat.le_refl _, Nat.le_refl _, rfl, fun i c hi hlt => absurd hlt (by omega)⟩
  | succ left ih =>
    obtain ⟨stop, hle, hmax, heq, hword⟩ := @ih (last + 1) (by omega)
    have hget : chars[last]? = some chars[last] := List.getElem?_eq_getElem (by omega)
    rw [wordEnd, hget]
    simp only [bind_eq_bind, bind_some]
    split
    next hchar =>
      refine ⟨stop, by omega, by omega, heq, ?_⟩
      intro i c hi hlt hc
      by_cases hfirst : i = last
      · rw [hfirst, hget] at hc
        rwa [← some.inj hc]
      · exact hword i c (by omega) hlt hc
    next =>
      exact ⟨last, Nat.le_refl _, by omega, rfl, fun i c hi hlt => absurd hlt (by omega)⟩

/-- Double-clicking a text selects characters of the text, and more than one only of a word. -/
lemma wordBounds_spec (chars : List Char) (offset : Nat) :
    ∃ start last, wordBounds isAlphanumeric chars offset = some (start, last) ∧ start ≤ last ∧
      last ≤ chars.length ∧ (chars ≠ [] → start < last) ∧
      (start + 1 < last → WordBetween isAlphanumeric chars start last) := by
  unfold wordBounds
  by_cases hnil : chars = []
  · rw [hnil]
    exact ⟨0, 0, rfl, Nat.le_refl 0, Nat.le_refl 0, fun h => absurd rfl h, fun h => absurd h (by decide)⟩
  · have hpos := length_pos_iff.mpr hnil
    have hindex : min offset (chars.length - 1) < chars.length := by omega
    have hget := List.getElem?_eq_getElem hindex
    rw [if_neg (by simpa using hnil)]
    generalize min offset (chars.length - 1) = index at *
    simp only [hget, bind_eq_bind, bind_some]
    by_cases hchar : isWordChar isAlphanumeric chars[index] = true
    · obtain ⟨start, hstart, hstartEq, hbefore⟩ :=
        wordStart_spec isAlphanumeric (Nat.le_of_lt hindex)
      obtain ⟨stop, hstop, hmax, hstopEq, hbehind⟩ :=
        @wordEnd_spec isAlphanumeric chars (chars.length - (index + 1)) (index + 1) (by omega)
      rw [if_neg (by simp [hchar]), hstartEq, hstopEq]
      refine ⟨start, stop, rfl, by omega, by omega, fun _ => by omega, fun _ => ?_⟩
      intro i c hi hlt hc
      rcases Nat.lt_trichotomy i index with hlower | hsame | hupper
      · exact hbefore i c hi hlower hc
      · rw [hsame, hget] at hc
        rwa [← some.inj hc]
      · exact hbehind i c hupper hlt hc
    · rw [if_pos (by simp [hchar])]
      exact ⟨index, index + 1, rfl, by omega, by omega, fun _ => by omega, fun h => absurd h (by omega)⟩

end

/-! ## Offsets of a native edit control -/

def lenUtf16 (c : Char) : Nat := if c.val.toNat < 0x10000 then 1 else 2

/-- The code units of a text. -/
def utf16Len (text : List Char) : Nat := (text.map lenUtf16).sum

/-- The loop of `utf16_edit_offset_to_char_index`. -/
def utf16Loop (target : Nat) : List Char → Nat → Nat → Nat
  | [], _, charIndex => charIndex
  | character :: rest, consumedUtf16, charIndex =>
    if consumedUtf16 ≥ target then charIndex
    else
      utf16Loop target rest (consumedUtf16 + lenUtf16 character)
        (if character ≠ '\r' then charIndex + 1 else charIndex)

def utf16EditOffsetToCharIndex (rawText : List Char) (utf16Offset : Nat) : Nat :=
  utf16Loop utf16Offset rawText 0 0

/-- The text as the draft has it. -/
def normalized (rawText : List Char) : List Char := rawText.filter (· ≠ '\r')

lemma lenUtf16_pos (c : Char) : 0 < lenUtf16 c := by
  unfold lenUtf16
  split <;> omega

lemma length_normalized_cons (c : Char) (rest : List Char) (charIndex : Nat) :
    charIndex + (normalized (c :: rest)).length =
      (if c ≠ '\r' then charIndex + 1 else charIndex) + (normalized rest).length := by
  unfold normalized
  by_cases hc : c = '\r'
  · simp [hc]
  · simp [hc]
    omega

/-- The loop counts on, and no further than the characters that are left. -/
lemma utf16Loop_bounds (target : Nat) (rest : List Char) (consumed charIndex : Nat) :
    charIndex ≤ utf16Loop target rest consumed charIndex ∧
      utf16Loop target rest consumed charIndex ≤ charIndex + (normalized rest).length := by
  induction rest generalizing consumed charIndex with
  | nil => exact ⟨Nat.le_refl _, Nat.le_add_right _ _⟩
  | cons c rest ih =>
    rw [utf16Loop, length_normalized_cons]
    have hnext := ih (consumed + lenUtf16 c) (if c ≠ '\r' then charIndex + 1 else charIndex)
    have hstep : charIndex ≤ if c ≠ '\r' then charIndex + 1 else charIndex := by
      split <;> omega
    split
    · omega
    · omega

lemma utf16Loop_mono {target later : Nat} (h : target ≤ later) (rest : List Char)
    (consumed charIndex : Nat) :
    utf16Loop target rest consumed charIndex ≤ utf16Loop later rest consumed charIndex := by
  induction rest generalizing consumed charIndex with
  | nil => exact Nat.le_refl _
  | cons c rest ih =>
    have hbounds := utf16Loop_bounds later (c :: rest) consumed charIndex
    by_cases hreached : consumed ≥ target
    · rw [utf16Loop, if_pos hreached]
      exact hbounds.1
    · have hlater : ¬consumed ≥ later := by omega
      rw [utf16Loop, if_neg hreached, utf16Loop, if_neg hlater]
      exact ih _ _

/-- At the offset of a character the loop has counted the characters before it. -/
lemma utf16Loop_boundary (rest : List Char) (i consumed charIndex : Nat) :
    utf16Loop (consumed + utf16Len (rest.take i)) rest consumed charIndex =
      charIndex + (normalized (rest.take i)).length := by
  induction rest generalizing i consumed charIndex with
  | nil => rw [take_nil]; rfl
  | cons c rest ih =>
    cases i with
    | zero =>
      rw [utf16Loop, take_zero, if_pos (show consumed + utf16Len [] ≤ consumed from Nat.le_refl consumed)]
      rfl
    | succ i =>
      have hpos := lenUtf16_pos c
      have hunits : utf16Len ((c :: rest).take (i + 1)) = lenUtf16 c + utf16Len (rest.take i) := by
        rw [take_succ_cons, utf16Len, map_cons, sum_cons, ← utf16Len]
      rw [hunits, utf16Loop, if_neg (by omega), ← Nat.add_assoc, ih, take_succ_cons,
        length_normalized_cons]

/-! ## The field -/

/-- For every text, caret, anchor and insertion the edits are the slices of the list, no offset is
inside a character or out of range, and a native offset counts characters. -/
theorem textField_edits (isAlphanumeric : Char → Bool) (text insertion : List Char)
    (cursor : TextCursor) :
    let slice := charSlice text cursor.range.1 cursor.range.2
    (selectedText text cursor = some (if slice = [] then none else some slice)) ∧
      (deleteSelection text cursor = some (
        if slice = [] then (text, none)
        else (text.take cursor.range.1 ++ text.drop cursor.range.2,
          some (.at_ cursor.range.1)))) ∧
      (slice ≠ [] → (text.take cursor.range.1).length = cursor.range.1) ∧
      (∃ edited caret, insert text cursor insertion = some (edited, .at_ caret) ∧
        edited = text.take cursor.range.1 ++ insertion ++ text.drop cursor.range.2 ∧
        edited.take caret = text.take cursor.range.1 ++ insertion ∧ caret ≤ edited.length) ∧
      (∀ offset, ∃ start last, wordBounds isAlphanumeric text offset = some (start, last) ∧
        start ≤ last ∧ last ≤ text.length) ∧
      (∀ offset, utf16EditOffsetToCharIndex text offset ≤ (normalized text).length) ∧
      (∀ offset later, offset ≤ later →
        utf16EditOffsetToCharIndex text offset ≤ utf16EditOffsetToCharIndex text later) ∧
      ∀ i, utf16EditOffsetToCharIndex text (utf16Len (text.take i)) =
        (normalized (text.take i)).length := by
  intro slice
  refine ⟨selectedText_eq text cursor, deleteSelection_eq text cursor, ?_, ?_, ?_, ?_, ?_, ?_⟩
  · intro hslice
    have hstart : cursor.range.1 < text.length := by
      by_contra hbehind
      apply hslice
      show (text.take cursor.range.2).drop cursor.range.1 = []
      rw [drop_eq_nil_iff, length_take]
      omega
    rw [length_take]
    omega
  · have hcaret : (text.take cursor.range.1 ++ insertion).length =
        min cursor.range.1 text.length + insertion.length := by
      rw [length_append, length_take]
    refine ⟨_, _, insert_eq text cursor insertion, rfl, ?_, ?_⟩
    · rw [← hcaret, take_left]
    · rw [← hcaret, @List.length_append Char (text.take cursor.range.1 ++ insertion)]
      exact Nat.le_add_right _ _
  · intro offset
    obtain ⟨start, last, heq, hle, hlast, -, -⟩ := wordBounds_spec isAlphanumeric text offset
    exact ⟨start, last, heq, hle, hlast⟩
  · intro offset
    have hbound := (utf16Loop_bounds offset text 0 0).2
    rwa [Nat.zero_add] at hbound
  · intro offset later h
    exact utf16Loop_mono h text 0 0
  · intro i
    have hboundary := utf16Loop_boundary text i 0 0
    rwa [Nat.zero_add, Nat.zero_add] at hboundary

end Agenterm.TextSelection
