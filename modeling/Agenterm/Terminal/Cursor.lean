import Agenterm.Common
import Agenterm.Lib.Utf8
import Mathlib.Data.List.Induction
import Mathlib.Tactic.IntervalCases

/-!
# The cursor shape

`terminal_cursor.rs`: the tracker of the control sequence that sets the shape of the cursor
(DECSCUSR). It reads the bytes of the terminal next to the emulator.
-/

namespace Agenterm.Terminal

open List

inductive TerminalCursorShape where
  | block
  | underline
  | bar
deriving DecidableEq

structure TerminalCursorAppearance where
  shape : TerminalCursorShape
  blinking : Bool
deriving DecidableEq

def TerminalCursorAppearance.default : TerminalCursorAppearance :=
  { shape := .block, blinking := true }

inductive ParseState where
  | ground
  | escape
  | csi (parameter : Nat) (hasParameter space valid : Bool)
deriving DecidableEq

structure DecscusrTracker where
  state : ParseState
  appearance : TerminalCursorAppearance
deriving DecidableEq

namespace DecscusrTracker

def default : DecscusrTracker := { state := .ground, appearance := .default }

def newCsi : ParseState := .csi 0 false false true

/-- `parameter.saturating_mul(10).saturating_add(digit)` of a `u16`. -/
def nextParameter (parameter digit : Nat) : Nat :=
  min (min (parameter * 10) 65535 + digit) 65535

/-- `apply_parameter`. -/
def applyParameter (appearance : TerminalCursorAppearance) (parameter : Nat) :
    TerminalCursorAppearance :=
  match parameter with
  | 0 | 1 => { shape := .block, blinking := true }
  | 2 => { shape := .block, blinking := false }
  | 3 => { shape := .underline, blinking := true }
  | 4 => { shape := .underline, blinking := false }
  | 5 => { shape := .bar, blinking := true }
  | 6 => { shape := .bar, blinking := false }
  | _ => appearance

def isAsciiDigit (byte : UInt8) : Bool := 0x30 ≤ byte.toNat && byte.toNat ≤ 0x39

/-- A byte inside a control sequence. -/
def feedCsi (tracker : DecscusrTracker) (parameter : Nat) (hasParameter space valid : Bool)
    (byte : UInt8) : DecscusrTracker :=
  if byte = 0x1b then
    { tracker with state := .escape }
  else if isAsciiDigit byte && !space then
    { tracker with state := .csi (nextParameter parameter (byte.toNat - 0x30)) true space valid }
  else if byte = 0x20 && !space then
    { tracker with state := .csi parameter hasParameter true valid }
  else if byte = 0x71 then
    let appearance :=
      if valid && space then
        applyParameter tracker.appearance (if hasParameter then parameter else 0)
      else tracker.appearance
    { state := .ground, appearance }
  else if 0x40 ≤ byte.toNat && byte.toNat ≤ 0x7e then
    { tracker with state := .ground }
  else
    { tracker with state := .csi parameter hasParameter space false }

def feedByte (tracker : DecscusrTracker) (byte : UInt8) : DecscusrTracker :=
  match tracker.state with
  | .ground =>
    if byte = 0x1b then { tracker with state := .escape }
    -- the 8-bit introducer, which is also a continuation byte of UTF-8
    else if byte = 0x9b then { tracker with state := newCsi }
    else { tracker with state := .ground }
  | .escape =>
    if byte = 0x5b then { tracker with state := newCsi }
    else if byte = 0x1b then { tracker with state := .escape }
    else { tracker with state := .ground }
  | .csi parameter hasParameter space valid =>
    feedCsi tracker parameter hasParameter space valid byte

def feed (tracker : DecscusrTracker) (bytes : List UInt8) : DecscusrTracker :=
  bytes.foldl feedByte tracker

end DecscusrTracker

/-!
The 8-bit introducer of a control sequence is also a continuation byte, so printable text can hold
a control sequence: a character whose encoding ends with that byte, digits, a space and a `q`.
Text leaves the cursor as it was exactly when it hides no such sequence outside another one
(`printable_keeps_iff`). The tracker is outside all sequences behind a text whose introducers are
all followed by a final character (`ground_iff_closed`), and inside a valid one exactly behind the
front part of a hidden sequence (`csi_iff_open`).
-/

open Lib.Utf8

/-- Text without control characters. -/
def Printable (text : List Char) : Prop := ∀ c ∈ text, isControl c = false

lemma printable_of_all {text : List Char} (h : (text.all fun c => !isControl c) = true) :
    Printable text := fun c hc => by simpa using all_eq_true.mp h c hc

/-- The encoding has the 8-bit introducer. -/
def Introduces (c : Char) : Prop := 0x9b ∈ String.utf8EncodeChar c

/-- The encoding ends with the first introducer in it. -/
def EndsIntroducing (c : Char) : Prop :=
  ∃ front, String.utf8EncodeChar c = front ++ [0x9b] ∧ 0x9b ∉ front

/-- A character that ends a control sequence. -/
def Final (c : Char) : Prop := 0x40 ≤ c.toNat ∧ c.toNat ≤ 0x7e

/-- Every introducer is followed by a final character. -/
def Closed (text : List Char) : Prop :=
  ∀ u x v, text = u ++ x :: v → Introduces x → ∃ f ∈ v, Final f

def digitsValue (digits : List Char) : Nat :=
  digits.foldl (fun value d => value * 10 + (d.toNat - 0x30)) 0

/-- The text behind an introducer outside a control sequence. -/
structure Opens (text : List Char) (digits : List Char) (space : Bool) : Prop where
  shape : ∃ before c, text = before ++ c :: (digits ++ if space then [' '] else []) ∧
    Closed before ∧ EndsIntroducing c
  digits : ∀ d ∈ digits, d.isDigit = true

/-- A control sequence that sets the cursor is hidden in the text. -/
def Hides (text : List Char) : Prop :=
  ∃ front digits after, text = front ++ 'q' :: after ∧ Opens front digits true ∧
    digitsValue digits ≤ 6

variable {bytes : List UInt8} {digits more : List Char}

namespace DecscusrTracker

variable {a : TerminalCursorAppearance} {c : Char} {p : Nat} {h s v : Bool}

lemma feed_append (t : DecscusrTracker) (l m : List UInt8) :
    t.feed (l ++ m) = (t.feed l).feed m := foldl_append

/-! ## Bytes -/

lemma feed_ground (hescape : 0x1b ∉ bytes) (hcsi : 0x9b ∉ bytes) :
    feed ⟨.ground, a⟩ bytes = ⟨.ground, a⟩ := by
  induction bytes with
  | nil => rfl
  | cons b bytes ih =>
    rw [mem_cons, not_or] at hescape hcsi
    have hbyte : feedByte ⟨.ground, a⟩ b = ⟨.ground, a⟩ := by
      unfold feedByte
      dsimp only
      rw [if_neg (Ne.symm hescape.1), if_neg (Ne.symm hcsi.1)]
    rw [feed, foldl_cons, hbyte]
    exact ih hescape.2 hcsi.2

/-- Bytes outside ASCII make a control sequence invalid, and do not end it. -/
lemma feed_csi_high (hhigh : ∀ b ∈ bytes, 0x80 ≤ b.toNat) :
    feed ⟨.csi p h s v, a⟩ bytes = ⟨.csi p h s (if bytes = [] then v else false), a⟩ := by
  induction bytes generalizing v with
  | nil => rfl
  | cons b bytes ih =>
    have hb := hhigh b mem_cons_self
    have hbyte : feedByte ⟨.csi p h s v, a⟩ b = ⟨.csi p h s false, a⟩ := by
      have hne (n : UInt8) (hn : n.toNat < 0x80) : b ≠ n := by
        rintro rfl
        omega
      unfold feedByte feedCsi isAsciiDigit
      dsimp only
      rw [if_neg (hne 0x1b (by decide)), if_neg (by simp; omega),
        if_neg (by simp [hne 0x20 (by decide)]), if_neg (hne 0x71 (by decide)),
        if_neg (by simp; omega)]
    rw [feed, foldl_cons, hbyte]
    refine (ih fun b' hb' => hhigh b' (mem_cons_of_mem _ hb')).trans ?_
    rw [if_neg (cons_ne_nil b bytes), ite_self]

/-! ## Characters -/

lemma ascii_or_high (hc : isControl c = false) :
    (0x20 ≤ c.toNat ∧ c.toNat < 0x7f) ∨ 0xa0 ≤ c.toNat := by
  unfold isControl at hc
  simp only [Bool.or_eq_false_iff, decide_eq_false_iff_not, Bool.and_eq_false_iff] at hc
  omega

lemma byte_toNat (hc : c.toNat < 0x80) : (UInt8.ofNat c.toNat).toNat = c.toNat :=
  toNat_byte (by omega)

lemma byte_eq_iff (hc : c.toNat < 0x80) {d : Char} (hd : d.toNat < 0x80) :
    UInt8.ofNat c.toNat = UInt8.ofNat d.toNat ↔ c = d := by
  constructor
  · intro heq
    have hnat := congrArg UInt8.toNat heq
    rw [byte_toNat hc, byte_toNat hd] at hnat
    exact Char.ext (UInt32.toNat_inj.mp hnat)
  · rintro rfl
    rfl

lemma escape_not_mem (hc : isControl c = false) : 0x1b ∉ String.utf8EncodeChar c := by
  intro hmem
  rcases ascii_or_high hc with ⟨hlow, hascii⟩ | hhigh
  · rw [encode_ascii (by omega), mem_singleton] at hmem
    have hnat := congrArg UInt8.toNat hmem
    rw [byte_toNat (by omega)] at hnat
    have : (0x1b : UInt8).toNat = 0x1b := rfl
    omega
  · have := encode_high (by omega) _ hmem
    exact absurd this (by decide)

/-- Characters of ASCII do not introduce anything. -/
lemma high_of_introduces (hc : Introduces c) : 0x80 ≤ c.toNat := by
  by_contra hascii
  unfold Introduces at hc
  rw [encode_ascii (by omega), mem_singleton] at hc
  have hnat := congrArg UInt8.toNat hc
  rw [byte_toNat (by omega)] at hnat
  have : (0x9b : UInt8).toNat = 0x9b := rfl
  omega

lemma introduces_of_ends (hc : EndsIntroducing c) : Introduces c := by
  obtain ⟨front, hencode, -⟩ := hc
  unfold Introduces
  rw [hencode]
  exact mem_append_right _ (mem_singleton_self _)

lemma feed_ground_char (hc : isControl c = false) (hplain : ¬ Introduces c) :
    feed ⟨.ground, a⟩ (String.utf8EncodeChar c) = ⟨.ground, a⟩ :=
  feed_ground (escape_not_mem hc) hplain

/-- An introducer starts a control sequence, which is valid if nothing follows in the character. -/
lemma feed_introducer (hc : isControl c = false) (hintroduces : Introduces c) :
    ∃ valid, (valid = true ↔ EndsIntroducing c) ∧
      feed ⟨.ground, a⟩ (String.utf8EncodeChar c) = ⟨.csi 0 false false valid, a⟩ := by
  obtain ⟨front, back, hencode, hfront⟩ := eq_append_cons_of_mem hintroduces
  have hbytes := encode_high (high_of_introduces hintroduces)
  have hescape : 0x1b ∉ front := fun hmem =>
    escape_not_mem hc (hencode ▸ mem_append_left _ hmem)
  refine ⟨if back = [] then true else false, ?_, ?_⟩
  · constructor
    · intro hvalid
      have hback : back = [] := by
        by_contra hne
        rw [if_neg hne] at hvalid
        cases hvalid
      exact ⟨front, hback ▸ hencode, hfront⟩
    · rintro ⟨front', hencode', hfront'⟩
      rw [if_pos]
      -- the first introducer is the last byte
      by_contra hne
      rw [hencode] at hencode'
      obtain ⟨back', last, rfl⟩ := (eq_nil_or_concat back).resolve_left hne
      have hsplit : front ++ 0x9b :: back' ++ [last] = front' ++ [0x9b] := by
        simpa using hencode'
      have hinit := (append_inj' hsplit rfl).1
      exact hfront' (hinit ▸ by simp)
  · rw [hencode, feed_append, feed_ground hescape hfront]
    show feed ⟨newCsi, a⟩ back = _
    rw [newCsi, feed_csi_high]
    intro b hb
    exact hbytes b (hencode ▸ mem_append_right _ (mem_cons_of_mem _ hb))

/-- What a printable character of ASCII does inside a control sequence. -/
lemma feed_csi_ascii (hlow : 0x20 ≤ c.toNat) (hascii : c.toNat < 0x7f) :
    feed ⟨.csi p h s v, a⟩ (String.utf8EncodeChar c) =
      if c.isDigit && !s then ⟨.csi (nextParameter p (c.toNat - 0x30)) true s v, a⟩
      else if c = ' ' && !s then ⟨.csi p h true v, a⟩
      else if c = 'q' then
        ⟨.ground, if v && s then applyParameter a (if h then p else 0) else a⟩
      else if 0x40 ≤ c.toNat then ⟨.ground, a⟩
      else ⟨.csi p h s false, a⟩ := by
  have hnat := byte_toNat (c := c) (by omega)
  have hspace : UInt8.ofNat c.toNat = 0x20 ↔ c = ' ' :=
    byte_eq_iff (by omega) (d := ' ') (by decide)
  have hq : UInt8.ofNat c.toNat = 0x71 ↔ c = 'q' := byte_eq_iff (by omega) (d := 'q') (by decide)
  have hdigit : isAsciiDigit (UInt8.ofNat c.toNat) = c.isDigit := by
    unfold isAsciiDigit Char.isDigit
    rw [hnat]
    rfl
  have hescape : UInt8.ofNat c.toNat ≠ 0x1b := by
    intro heq
    have := congrArg UInt8.toNat heq
    rw [hnat] at this
    have : (0x1b : UInt8).toNat = 0x1b := rfl
    omega
  rw [encode_ascii (by omega)]
  show feedCsi ⟨.csi p h s v, a⟩ p h s v (UInt8.ofNat c.toNat) = _
  unfold feedCsi
  rw [if_neg hescape, hdigit, hnat]
  simp only [hspace, hq, show c.toNat ≤ 0x7e from by omega, and_true, Bool.and_eq_true,
    decide_eq_true_eq]

/-! ## Where the tracker is behind a text -/

/-- The tracker behind a text, from the ground state. -/
def behind (a : TerminalCursorAppearance) (text : List Char) : DecscusrTracker :=
  feed ⟨.ground, a⟩ (encode text)

variable {text : List Char}

lemma behind_append (text more : List Char) :
    behind a (text ++ more) = (behind a text).feed (encode more) := by
  rw [behind, encode_append, feed_append]
  rfl

lemma behind_snoc (text : List Char) (c : Char) :
    behind a (text ++ [c]) = (behind a text).feed (String.utf8EncodeChar c) := by
  rw [behind_append, encode_singleton]

lemma closed_snoc (text : List Char) (c : Char) :
    Closed (text ++ [c]) ↔ Final c ∨ Closed text ∧ ¬ Introduces c := by
  constructor
  · intro hclosed
    by_cases hfinal : Final c
    · exact .inl hfinal
    · refine .inr ⟨fun u x v heq hx => ?_, fun hc => ?_⟩
      · obtain ⟨f, hf, hffinal⟩ := hclosed u x (v ++ [c]) (by rw [heq]; simp) hx
        rcases mem_append.mp hf with hf | hf
        · exact ⟨f, hf, hffinal⟩
        · exact absurd (mem_singleton.mp hf ▸ hffinal) hfinal
      · obtain ⟨f, hf, -⟩ := hclosed text c [] rfl hc
        cases hf
  · intro h u x v heq hx
    rcases eq_nil_or_concat v with rfl | ⟨v', last, rfl⟩
    · -- the introducer would be the last character
      have hlast : c = x := by
        have hends := (append_inj' heq rfl).2
        exact (List.cons.inj hends).1
      subst hlast
      rcases h with hfinal | ⟨-, hplain⟩
      · have hhigh := high_of_introduces hx
        unfold Final at hfinal
        omega
      · exact absurd hx hplain
    · have hsplit : text ++ [c] = (u ++ x :: v') ++ [last] := by simpa using heq
      have hends := append_inj' hsplit rfl
      have hlast : c = last := (List.cons.inj hends.2).1
      rcases h with hfinal | ⟨hclosed, -⟩
      · exact ⟨last, by simp, hlast ▸ hfinal⟩
      · obtain ⟨f, hf, hffinal⟩ := hclosed u x v' hends.1 hx
        exact ⟨f, by simp [hf], hffinal⟩

lemma isDigit_iff : c.isDigit = true ↔ 0x30 ≤ c.toNat ∧ c.toNat ≤ 0x39 := by
  unfold Char.isDigit
  rw [Bool.and_eq_true, decide_eq_true_eq, decide_eq_true_eq]
  exact Iff.rfl

lemma printable_of_append {text : List Char} (h : Printable (text ++ more)) :
    Printable text ∧ Printable more :=
  ⟨fun c hc => h c (mem_append_left _ hc), fun c hc => h c (mem_append_right _ hc)⟩

/-- Behind a printable text the tracker is outside all sequences exactly when they are closed; it
is never behind an escape. -/
theorem ground_iff_closed (a : TerminalCursorAppearance) (h : Printable text) :
    ((behind a text).state = .ground ↔ Closed text) ∧ (behind a text).state ≠ .escape := by
  induction text using List.reverseRecOn with
  | nil =>
    refine ⟨iff_of_true rfl ?_, nofun⟩
    intro u x v heq
    cases u <;> cases heq
  | append_singleton text c ih =>
    have hc := h c (mem_append_right _ (mem_singleton_self c))
    obtain ⟨ihground, ihescape⟩ := ih (printable_of_append h).1
    rw [behind_snoc, closed_snoc]
    generalize behind a text = t at ihground ihescape ⊢
    obtain ⟨state, b⟩ := t
    cases state with
    | escape => exact absurd rfl ihescape
    | ground =>
      have hclosed : Closed text := ihground.mp rfl
      by_cases hintroduces : Introduces c
      · obtain ⟨valid, -, hfeed⟩ := feed_introducer hc hintroduces (a := b)
        have hhigh := high_of_introduces hintroduces
        rw [hfeed]
        refine ⟨iff_of_false nofun ?_, nofun⟩
        rintro (hfinal | ⟨-, hplain⟩)
        · unfold Final at hfinal
          omega
        · exact hplain hintroduces
      · rw [feed_ground_char hc hintroduces]
        exact ⟨iff_of_true rfl (.inr ⟨hclosed, hintroduces⟩), nofun⟩
    | csi p hasParameter space valid =>
      have hopen : ¬ Closed text := fun hclosed => by cases ihground.mpr hclosed
      rcases ascii_or_high hc with ⟨hlow, hascii⟩ | hhigh
      · rw [feed_csi_ascii hlow hascii]
        split
        · rename_i hdigit
          have hrange := isDigit_iff.mp (Bool.and_eq_true _ _ ▸ hdigit).1
          refine ⟨iff_of_false nofun ?_, nofun⟩
          rintro (⟨hfinal, -⟩ | ⟨hclosed, -⟩)
          · omega
          · exact hopen hclosed
        · split
          · rename_i hspace
            rw [Bool.and_eq_true, decide_eq_true_eq] at hspace
            refine ⟨iff_of_false nofun ?_, nofun⟩
            rintro (⟨hfinal, -⟩ | ⟨hclosed, -⟩)
            · rw [hspace.1] at hfinal
              exact absurd hfinal (by decide)
            · exact hopen hclosed
          · split
            · rename_i hq
              refine ⟨iff_of_true rfl (.inl ?_), nofun⟩
              rw [hq]
              exact ⟨by decide, by decide⟩
            · split
              · rename_i hfinal
                exact ⟨iff_of_true rfl (.inl ⟨hfinal, by omega⟩), nofun⟩
              · rename_i hother
                refine ⟨iff_of_false nofun ?_, nofun⟩
                rintro (⟨hfinal, -⟩ | ⟨hclosed, -⟩)
                · exact hother hfinal
                · exact hopen hclosed
      · rw [feed_csi_high (encode_high (by omega))]
        refine ⟨iff_of_false nofun ?_, nofun⟩
        rintro (⟨-, hfinal⟩ | ⟨hclosed, -⟩)
        · omega
        · exact hopen hclosed

/-! ## Valid sequences -/

lemma digitsValue_snoc (digits : List Char) (d : Char) :
    digitsValue (digits ++ [d]) = digitsValue digits * 10 + (d.toNat - 0x30) := by
  rw [digitsValue, foldl_append]
  rfl

/-- Digits are collected, up to the greatest value. -/
lemma feed_digits (hdigits : ∀ d ∈ digits, d.isDigit = true) :
    feed ⟨.csi 0 false false v, a⟩ (encode digits) =
      ⟨.csi (min (digitsValue digits) 65535) (!digits.isEmpty) false v, a⟩ := by
  induction digits using List.reverseRecOn with
  | nil => rfl
  | append_singleton digits d ih =>
    have hd := hdigits d (mem_append_right _ (mem_singleton_self d))
    have hrange := isDigit_iff.mp hd
    rw [encode_append, encode_singleton, feed_append,
      ih fun d' hd' => hdigits d' (mem_append_left _ hd'),
      feed_csi_ascii (by omega) (by omega), if_pos (by rw [hd]; rfl), digitsValue_snoc,
      nextParameter]
    congr 2
    · omega
    · simp

/-- Behind the front part of a hidden sequence the tracker is inside a valid one. -/
lemma behind_open {space : Bool} (h : Printable text) (hopens : Opens text digits space)
    (a : TerminalCursorAppearance) :
    ∃ b, behind a text =
      ⟨.csi (min (digitsValue digits) 65535) (!digits.isEmpty) space true, b⟩ := by
  obtain ⟨before, c, rfl, hclosed, hends⟩ := hopens.shape
  obtain ⟨hbefore, hrest⟩ := printable_of_append h
  have hc := hrest c mem_cons_self
  have hground := ((ground_iff_closed a hbefore).1).mpr hclosed
  obtain ⟨valid, hvalid, hfeed⟩ := feed_introducer hc (introduces_of_ends hends)
    (a := (behind a before).appearance)
  rw [hvalid.mpr hends] at hfeed
  refine ⟨(behind a before).appearance, ?_⟩
  have hstart : behind a before = ⟨.ground, (behind a before).appearance⟩ := by
    rw [← hground]
  rw [behind_append, hstart, ← singleton_append, encode_append, encode_singleton, feed_append,
    hfeed, encode_append, feed_append, feed_digits hopens.digits]
  cases space with
  | false => rfl
  | true =>
    rw [if_pos rfl, encode_singleton, feed_csi_ascii (by decide) (by decide)]
    rfl

/-- Only there. -/
lemma opens_of_csi (h : Printable text) {b : TerminalCursorAppearance}
    (hbehind : behind a text = ⟨.csi p hasParameter s true, b⟩) :
    ∃ digits, Opens text digits s ∧ p = min (digitsValue digits) 65535 ∧
      hasParameter = !digits.isEmpty := by
  induction text using List.reverseRecOn generalizing p hasParameter s b with
  | nil => cases hbehind
  | append_singleton text c ih =>
    have hc := h c (mem_append_right _ (mem_singleton_self c))
    have htext := (printable_of_append h).1
    have hclosed := ground_iff_closed a htext
    rw [behind_snoc] at hbehind
    generalize hbefore : behind a text = t at hbehind hclosed
    obtain ⟨state, b'⟩ := t
    cases state with
    | escape => exact absurd rfl hclosed.2
    | ground =>
      by_cases hintroduces : Introduces c
      · obtain ⟨valid, hvalid, hfeed⟩ := feed_introducer hc hintroduces (a := b')
        rw [hfeed] at hbehind
        cases hbehind
        refine ⟨[], ⟨⟨text, c, rfl, hclosed.1.mp rfl, hvalid.mp rfl⟩, ?_⟩, rfl, rfl⟩
        simp
      · rw [feed_ground_char hc hintroduces] at hbehind
        cases hbehind
    | csi p' h' s' v' =>
      rcases ascii_or_high hc with ⟨hlow, hascii⟩ | hhigh
      · rw [feed_csi_ascii hlow hascii] at hbehind
        split at hbehind
        · rename_i hdigit
          rw [Bool.and_eq_true, Bool.not_eq_true'] at hdigit
          cases hbehind
          obtain ⟨digits, hopens, rfl, -⟩ := ih htext hbefore
          obtain ⟨before, i, hshape, hbeforeClosed, hends⟩ := hopens.shape
          refine ⟨digits ++ [c], ⟨⟨before, i, ?_, hbeforeClosed, hends⟩, ?_⟩, ?_, ?_⟩
          · rw [hshape, hdigit.2]
            simp
          · intro d hd
            rcases mem_append.mp hd with hd | hd
            · exact hopens.digits d hd
            · rw [mem_singleton.mp hd]
              exact hdigit.1
          · rw [digitsValue_snoc, nextParameter]
            omega
          · simp
        · split at hbehind
          · rename_i hspace
            rw [Bool.and_eq_true, decide_eq_true_eq, Bool.not_eq_true'] at hspace
            cases hbehind
            obtain ⟨digits, hopens, hp, hh⟩ := ih htext hbefore
            obtain ⟨before, i, hshape, hbeforeClosed, hends⟩ := hopens.shape
            refine ⟨digits, ⟨⟨before, i, ?_, hbeforeClosed, hends⟩, hopens.digits⟩, hp, hh⟩
            rw [hshape, hspace.1, hspace.2]
            simp
          · split at hbehind
            · cases hbehind
            · split at hbehind <;> cases hbehind
      · rw [feed_csi_high (encode_high (by omega)), if_neg (encode_ne_nil c)] at hbehind
        cases hbehind

/-! ## The appearance -/

lemma applyParameter_large (hp : 6 < p) : applyParameter a p = a := by
  obtain ⟨k, rfl⟩ : ∃ k, p = k + 7 := ⟨p - 7, by omega⟩
  rfl

lemma applyParameter_small (hp : p ≤ 6) (a b : TerminalCursorAppearance) :
    applyParameter a p = applyParameter b p := by
  interval_cases p <;> rfl

/-- A character changes the appearance only at the end of a valid sequence. -/
lemma appearance_snoc (h : Printable (text ++ [c])) :
    (behind a (text ++ [c])).appearance = (behind a text).appearance ∨
      c = 'q' ∧ ∃ digits, Opens text digits true ∧ (behind a (text ++ [c])).appearance =
        applyParameter (behind a text).appearance (min (digitsValue digits) 65535) := by
  have hc := h c (mem_append_right _ (mem_singleton_self c))
  have htext := (printable_of_append h).1
  have hescape := (ground_iff_closed a htext).2
  rw [behind_snoc]
  generalize hbehind : behind a text = t at hescape ⊢
  obtain ⟨state, b⟩ := t
  cases state with
  | escape => exact absurd rfl hescape
  | ground =>
    by_cases hintroduces : Introduces c
    · obtain ⟨valid, -, hfeed⟩ := feed_introducer hc hintroduces (a := b)
      rw [hfeed]
      exact .inl rfl
    · rw [feed_ground_char hc hintroduces]
      exact .inl rfl
  | csi p' h' s' v' =>
    rcases ascii_or_high hc with ⟨hlow, hascii⟩ | hhigh
    · rw [feed_csi_ascii hlow hascii]
      split
      · exact .inl rfl
      · split
        · exact .inl rfl
        · split
          · rename_i hq
            by_cases hvalid : (v' && s') = true
            · rw [Bool.and_eq_true] at hvalid
              obtain ⟨rfl, rfl⟩ := hvalid
              obtain ⟨digits, hopens, rfl, rfl⟩ := opens_of_csi htext hbehind
              refine .inr ⟨hq, digits, hopens, ?_⟩
              rw [Bool.and_self, if_pos rfl]
              -- without digits the parameter is zero
              cases digits <;> rfl
            · rw [if_neg hvalid]
              exact .inl rfl
          · split <;> exact .inl rfl
    · rw [feed_csi_high (encode_high (by omega))]
      exact .inl rfl

lemma hides_append (h : Hides text) : Hides (text ++ more) := by
  obtain ⟨front, digits, after, rfl, hopens, hvalue⟩ := h
  exact ⟨front, digits, after ++ more, by simp, hopens, hvalue⟩

/-- Text that hides no sequence keeps the appearance. -/
lemma appearance_of_not_hides (h : Printable text) (hplain : ¬ Hides text) :
    (behind a text).appearance = a := by
  induction text using List.reverseRecOn with
  | nil => rfl
  | append_singleton text c ih =>
    have hbefore := ih (printable_of_append h).1 fun hhides => hplain (hides_append hhides)
    rcases appearance_snoc h (a := a) with hkept | ⟨rfl, digits, hopens, happlied⟩
    · exact hkept.trans hbefore
    · have hlarge : 6 < digitsValue digits := by
        by_contra hsmall
        exact hplain ⟨text, digits, [], rfl, hopens, by omega⟩
      rw [happlied, applyParameter_large (by omega), hbefore]

/-- Behind a hidden sequence the appearance does not depend on what it was. -/
lemma behind_hidden {front : List Char} (h : Printable front) (hopens : Opens front digits true)
    (hvalue : digitsValue digits ≤ 6) (a : TerminalCursorAppearance) :
    behind a (front ++ ['q']) = ⟨.ground, applyParameter .default (digitsValue digits)⟩ := by
  obtain ⟨b, hbehind⟩ := behind_open h hopens a
  rw [behind_snoc, hbehind, feed_csi_ascii (by decide) (by decide)]
  show (⟨.ground, _⟩ : DecscusrTracker) = _
  rw [Nat.min_eq_left (by omega), Bool.and_self, if_pos rfl, applyParameter_small hvalue .default b]
  cases digits <;> rfl

lemma foldl_feed (chunks : List (List UInt8)) (t : DecscusrTracker) :
    chunks.foldl feed t = t.feed chunks.flatten := by
  rw [feed, foldl_flatten]
  rfl

/-- **Printable text** leaves every appearance of the cursor as it was, in whatever chunks it
comes, exactly when it hides no sequence that sets it. -/
theorem printable_keeps_iff (h : Printable text) :
    (∀ a (chunks : List (List UInt8)), chunks.flatten = encode text →
      (chunks.foldl feed ⟨.ground, a⟩).appearance = a) ↔ ¬ Hides text := by
  constructor
  · rintro hkeeps ⟨front, digits, after, rfl, hopens, hvalue⟩
    have hfront := (printable_of_append h).1
    -- the appearance behind the text is the same from every start
    have hsame (a : TerminalCursorAppearance) : (behind a (front ++ 'q' :: after)).appearance =
        (feed ⟨.ground, applyParameter .default (digitsValue digits)⟩
          (encode after)).appearance := by
      rw [show front ++ 'q' :: after = (front ++ ['q']) ++ after by simp, behind_append,
        behind_hidden hfront hopens hvalue]
    have hkept (a : TerminalCursorAppearance) :
        (behind a (front ++ 'q' :: after)).appearance = a := by
      have hone := hkeeps a [encode (front ++ 'q' :: after)] (by simp)
      rwa [foldl_feed, flatten_singleton] at hone
    have hblock := (hkept ⟨.block, true⟩).symm.trans ((hsame _).trans
      ((hsame _).symm.trans (hkept ⟨.bar, true⟩)))
    cases hblock
  · intro hplain a chunks hchunks
    rw [foldl_feed, hchunks]
    exact appearance_of_not_hides h hplain

theorem printable_keeps_word :
    ¬ Hides ['a', ' ', 'q'] ∧ (feed ⟨.ground, .default⟩ (encode ['a', ' ', 'q'])).appearance =
      .default := by
  have hprintable : Printable ['a', ' ', 'q'] := printable_of_all (by decide)
  have hplain : ¬ Hides ['a', ' ', 'q'] := by
    rintro ⟨front, digits, after, htext, hopens, -⟩
    obtain ⟨before, c, rfl, -, hends⟩ := hopens.shape
    have hmem : c ∈ ['a', ' ', 'q'] := by
      rw [htext]
      simp
    have hhigh := high_of_introduces (introduces_of_ends hends)
    simp only [mem_cons, not_mem_nil, or_false] at hmem
    rcases hmem with rfl | rfl | rfl <;> exact absurd hhigh (by decide)
  refine ⟨hplain, ?_⟩
  have hkeeps := (printable_keeps_iff hprintable).mpr hplain .default
    [encode ['a', ' ', 'q']] (by simp)
  rwa [foldl_feed, flatten_singleton] at hkeeps

/-- A letter with a caron in front of `4 q`. -/
theorem printable_sets_cursor :
    Printable ['\u011b', '4', ' ', 'q'] ∧
      (feed .default (encode ['\u011b', '4', ' ', 'q'])).appearance =
        { shape := .underline, blinking := false } :=
  ⟨printable_of_all (by decide), by decide⟩

end DecscusrTracker

end Agenterm.Terminal
