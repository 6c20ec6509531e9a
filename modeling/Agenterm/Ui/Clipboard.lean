import Agenterm.Common
import Agenterm.Lib.Utf8

/-!
# Pasted text

`ui_clipboard.rs`: clipboard text is normalized for the terminal or for the composer, and what
goes to the terminal is framed by the markers of bracketed paste. A normalized text has no controls
but the carriage return and the tab, so the end marker is at the end only (`bracketed_paste_safe`).
-/

namespace Agenterm.Clipboard

open Lib.Utf8 List

/-- The loop of both normalizations: CRLF, CR and LF become `newline`, and controls but the tab are
dropped. -/
def normalizePaste (newline : Char) : List Char → List Char
  | [] => []
  | '\r' :: '\n' :: rest => newline :: normalizePaste newline rest
  | c :: rest =>
    if c = '\r' || c = '\n' then newline :: normalizePaste newline rest
    else if c = '\t' || !isControl c then c :: normalizePaste newline rest
    else normalizePaste newline rest

def normalizeTerminalPaste (text : List Char) : List Char := normalizePaste '\r' text

def startMarker : List UInt8 := [0x1b, 0x5b, 0x32, 0x30, 0x30, 0x7e]
def endMarker : List UInt8 := [0x1b, 0x5b, 0x32, 0x30, 0x31, 0x7e]

def terminalPasteBytes (text : List Char) (bracketed : Bool) : List UInt8 :=
  (if bracketed then startMarker else []) ++ encode text ++ if bracketed then endMarker else []

/-! ## Normalization -/

section
variable {newline c : Char} {rest : List Char}

/-- A character that is not the front half of a CRLF. -/
lemma normalizePaste_cons (h : c = '\r' → rest.head? ≠ some '\n') :
    normalizePaste newline (c :: rest) =
      if c = '\r' || c = '\n' then newline :: normalizePaste newline rest
      else if c = '\t' || !isControl c then c :: normalizePaste newline rest
      else normalizePaste newline rest := by
  rw [normalizePaste]
  rintro rest' rfl rfl
  exact h rfl rfl

/-- What is left after normalization: the new line, the tab, and what is not a control. -/
lemma mem_normalizePaste {text : List Char} (h : c ∈ normalizePaste newline text) :
    c = newline ∨ c = '\t' ∨ isControl c = false := by
  induction text using normalizePaste.induct with
  | case1 => cases h
  | case2 rest ih =>
    rw [normalizePaste, mem_cons] at h
    exact h.elim .inl ih
  | case3 d rest hpair hline ih =>
    rw [normalizePaste, if_pos hline, mem_cons] at h
    · exact h.elim .inl ih
    · exact hpair
  | case4 d rest hpair hline hkept ih =>
    rw [normalizePaste, if_neg hline, if_pos hkept, mem_cons] at h
    · rcases h with rfl | h
      · simpa using Or.inr hkept
      · exact ih h
    · exact hpair
  | case5 d rest hpair hline hkept ih =>
    rw [normalizePaste, if_neg hline, if_neg hkept] at h
    · exact ih h
    · exact hpair

/-- Text that has nothing to normalize. -/
lemma normalizePaste_of_normal {text : List Char}
    (h : ∀ c ∈ text, c = '\r' ∨ c = '\t' ∨ isControl c = false) :
    normalizePaste '\r' text = text := by
  induction text with
  | nil => rfl
  | cons c rest ih =>
    have hlf (c : Char) (hc : c = '\r' ∨ c = '\t' ∨ isControl c = false) : c ≠ '\n' := by
      rintro rfl
      revert hc
      decide
    have hc := h c mem_cons_self
    have hrest := ih fun d hd => h d (mem_cons_of_mem _ hd)
    rw [normalizePaste_cons]
    · rw [hrest]
      by_cases hcr : c = '\r'
      · rw [hcr]
        rfl
      · rw [if_neg (by simp [hcr, hlf c hc]), if_pos (by simpa using hc.resolve_left hcr)]
    · intro _ hhead
      exact hlf '\n' (h '\n' (mem_cons_of_mem _ (mem_of_mem_head? hhead))) rfl

/-- A line ending in one of its three styles. -/
inductive LineEnding where
  | crlf
  | cr
  | lf

def LineEnding.text : LineEnding → List Char
  | crlf => ['\r', '\n']
  | cr => ['\r']
  | lf => ['\n']

/-- Texts that differ in the style of their line endings only. A carriage return that ends a line is
not followed by a line feed, which would make it a CRLF. -/
inductive SameLines : List Char → List Char → Prop where
  | nil : SameLines [] []
  | char {c : Char} {text other : List Char} (hcr : c ≠ '\r') (hlf : c ≠ '\n')
      (rest : SameLines text other) : SameLines (c :: text) (c :: other)
  | ending {text other : List Char} (style style' : LineEnding)
      (htext : style = .cr → text.head? ≠ some '\n')
      (hother : style' = .cr → other.head? ≠ some '\n') (rest : SameLines text other) :
      SameLines (style.text ++ text) (style'.text ++ other)

lemma normalizePaste_ending (style : LineEnding) (hrest : style = .cr → rest.head? ≠ some '\n') :
    normalizePaste newline (style.text ++ rest) = newline :: normalizePaste newline rest := by
  cases style with
  | crlf =>
    show normalizePaste newline ('\r' :: '\n' :: rest) = _
    rw [normalizePaste]
  | cr =>
    show normalizePaste newline ('\r' :: rest) = _
    rw [normalizePaste_cons fun _ => hrest rfl]
    rfl
  | lf =>
    show normalizePaste newline ('\n' :: rest) = _
    rw [normalizePaste_cons fun h => absurd h (by decide)]
    rfl

/-- Both normalizations forget the style of the line endings. -/
lemma SameLines.normalizePaste {text other : List Char} (h : SameLines text other) :
    normalizePaste newline text = normalizePaste newline other := by
  induction h with
  | nil => rfl
  | char hcr hlf rest ih =>
    rw [normalizePaste_cons fun h => absurd h hcr, normalizePaste_cons fun h => absurd h hcr, ih]
  | ending style style' htext hother rest ih =>
    rw [normalizePaste_ending style htext, normalizePaste_ending style' hother, ih]

/-- A text of these lines with line endings of one style. -/
def joinLines (style : LineEnding) : List (List Char) → List Char
  | [] => []
  | [line] => line
  | line :: next :: lines => line ++ style.text ++ joinLines style (next :: lines)

lemma SameLines.line {line text other : List Char} (hline : ∀ c ∈ line, c ≠ '\r' ∧ c ≠ '\n')
    (h : SameLines text other) : SameLines (line ++ text) (line ++ other) := by
  induction line with
  | nil => exact h
  | cons c line ih =>
    obtain ⟨hcr, hlf⟩ := hline c mem_cons_self
    exact .char hcr hlf (ih fun d hd => hline d (mem_cons_of_mem _ hd))

/-- A line, or an ending that begins with a carriage return, comes after a carriage return. -/
lemma joinLines_head {style : LineEnding} (hstyle : style = .cr) {lines : List (List Char)}
    (hlines : ∀ line ∈ lines, ∀ c ∈ line, c ≠ '\r' ∧ c ≠ '\n') :
    (joinLines style lines).head? ≠ some '\n' := by
  subst hstyle
  have hhead {line : List Char} (hline : ∀ c ∈ line, c ≠ '\r' ∧ c ≠ '\n') :
      line.head? ≠ some '\n' := fun h => (hline '\n' (mem_of_mem_head? h)).2 rfl
  match lines with
  | [] => exact fun h => nomatch h
  | [line] => exact hhead (hlines line mem_cons_self)
  | line :: next :: lines =>
    have hline := hlines line mem_cons_self
    cases line with
    | nil => exact fun h => absurd (Option.some.inj h) (by decide)
    | cons c line => exact fun h => @hhead (c :: line) hline h

/-- Lines joined by two styles. -/
lemma sameLines_joinLines (style style' : LineEnding) {lines : List (List Char)}
    (hlines : ∀ line ∈ lines, ∀ c ∈ line, c ≠ '\r' ∧ c ≠ '\n') :
    SameLines (joinLines style lines) (joinLines style' lines) := by
  induction lines with
  | nil => exact .nil
  | cons line lines ih =>
    have hline := hlines line mem_cons_self
    have hrest := fun line hl => hlines line (mem_cons_of_mem _ hl)
    cases lines with
    | nil =>
      have := SameLines.line hline .nil
      rwa [append_nil] at this
    | cons next lines =>
      rw [joinLines, joinLines, append_assoc, append_assoc]
      exact .line hline (.ending style style' (fun h => joinLines_head h hrest)
        (fun h => joinLines_head h hrest) (ih hrest))

end

/-! ## Framing -/

/-- A body without ESC is closed by the one end marker of the frame. -/
lemma endMarker_last {body : List UInt8} (hbody : (0x1b : UInt8) ∉ body) {front back : List UInt8}
    (h : startMarker ++ body ++ endMarker = front ++ endMarker ++ back) :
    front = startMarker ++ body ∧ back = [] := by
  cases front with
  | nil =>
    -- the markers differ in their fifth byte
    have hfifth : some (0x30 : UInt8) = some 0x31 := congrArg (fun bytes => bytes[4]?) h
    exact absurd hfifth (by decide)
  | cons b front =>
    -- after the first byte there is one ESC on the left, that of the end marker
    have hesc : (0x1b : UInt8) ∉ [0x5b, 0x32, 0x30, 0x30, 0x7e] ++ body :=
      fun hmem => (mem_append.mp hmem).elim (by decide) hbody
    rw [append_assoc (b :: front)] at h
    obtain ⟨hb, htail⟩ := List.cons.inj h
    obtain ⟨hfront, -, hback⟩ := (append_cons_inj_of_notMem hesc (by decide)).mp htail
    constructor
    · rw [← hb, ← hfront]
      rfl
    · exact (self_eq_append_right.mp hback)

/-- A normalized paste keeps the carriage return and the tab of all controls, so its frame is closed
once, at the end, and it is the same in each style of line endings. -/
theorem bracketed_paste_safe (text : List Char) :
    (∀ c ∈ normalizeTerminalPaste text, isControl c = true → c = '\r' ∨ c = '\t') ∧
      (∀ b ∈ encode (normalizeTerminalPaste text), b.toNat < 0x20 → b = 0x0d ∨ b = 0x09) ∧
      terminalPasteBytes (normalizeTerminalPaste text) true =
        startMarker ++ encode (normalizeTerminalPaste text) ++ endMarker ∧
      (∀ front back : List UInt8,
        terminalPasteBytes (normalizeTerminalPaste text) true = front ++ endMarker ++ back →
        front = startMarker ++ encode (normalizeTerminalPaste text) ∧ back = []) ∧
      normalizeTerminalPaste (normalizeTerminalPaste text) = normalizeTerminalPaste text ∧
      ∀ other : List Char, SameLines text other →
        normalizeTerminalPaste text = normalizeTerminalPaste other ∧
          ∀ bracketed : Bool, terminalPasteBytes (normalizeTerminalPaste text) bracketed =
            terminalPasteBytes (normalizeTerminalPaste other) bracketed := by
  have hkept : ∀ c ∈ normalizeTerminalPaste text, c = '\r' ∨ c = '\t' ∨ isControl c = false :=
    fun c hc => mem_normalizePaste hc
  have hbytes : ∀ b ∈ encode (normalizeTerminalPaste text),
      b.toNat < 0x20 → b = 0x0d ∨ b = 0x09 := by
    intro b hb hlow
    obtain ⟨c, hc, hbc⟩ := mem_encode_ascii hb (by omega)
    rcases hkept c hc with rfl | rfl | hplain
    · exact .inl (UInt8.toNat_inj.mp hbc.symm)
    · exact .inr (UInt8.toNat_inj.mp hbc.symm)
    · have hcontrol : isControl c = true := by simp [isControl, hbc, hlow]
      exact absurd hcontrol (by rw [hplain]; exact Bool.false_ne_true)
  have hesc : (0x1b : UInt8) ∉ encode (normalizeTerminalPaste text) := fun hmem =>
    (hbytes _ hmem (by decide)).elim (by decide) (by decide)
  refine ⟨?_, hbytes, rfl, ?_, normalizePaste_of_normal hkept, ?_⟩
  · intro c hc hcontrol
    rcases hkept c hc with hcr | htab | hplain
    · exact .inl hcr
    · exact .inr htab
    · exact absurd (hcontrol.symm.trans hplain) (by decide)
  · intro front back h
    exact endMarker_last hesc h
  · intro other hsame
    have hsame : normalizeTerminalPaste text = normalizeTerminalPaste other := hsame.normalizePaste
    exact ⟨hsame, fun bracketed => by rw [hsame]⟩

/-- Two lines and an end marker, in two styles. -/
theorem bracketed_paste_safe_lines :
    SameLines (joinLines .crlf [['a'], '\u001b' :: "[201~".toList])
        (joinLines .lf [['a'], '\u001b' :: "[201~".toList]) ∧
      terminalPasteBytes (normalizeTerminalPaste
          (joinLines .crlf [['a'], '\u001b' :: "[201~".toList])) true =
        terminalPasteBytes (normalizeTerminalPaste
          (joinLines .lf [['a'], '\u001b' :: "[201~".toList])) true := by
  have hsame : SameLines (joinLines .crlf [['a'], '\u001b' :: "[201~".toList])
      (joinLines .lf [['a'], '\u001b' :: "[201~".toList]) :=
    sameLines_joinLines .crlf .lf (by simp)
  exact ⟨hsame, ((bracketed_paste_safe _).2.2.2.2.2 _ hsame).2 true⟩

/-- The framing does not normalize: what it is given goes between the markers. -/
theorem unnormalized_paste_escapes :
    (0x1b : UInt8) ∈ encode ('\u001b' :: "[201~".toList) ∧
      terminalPasteBytes ('\u001b' :: "[201~".toList) true =
        startMarker ++ encode ('\u001b' :: "[201~".toList) ++ endMarker ∧
      terminalPasteBytes ('\u001b' :: "[201~".toList) true =
        startMarker ++ endMarker ++ endMarker := by
  decide

end Agenterm.Clipboard
