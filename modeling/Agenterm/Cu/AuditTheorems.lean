import Agenterm.Cu.Audit
import Agenterm.Lib.Lines
import Mathlib.Data.List.Induction

/-!
# Pages of the audit log

A log of well-formed lines, and a client that asks for page after page. A window falls into the
older lines, which the next window ends with, and the lines it shows (`window_cut`); one line that
fills the whole window is shown by no page. `Page` says what a page of a window answers,
`follows_lines` what the pages give together, and `paging_lossless` when that is the whole log.
-/

namespace Agenterm.Cu.Audit

open List Lib

open Lib (unlines located)

/-! ## Cursors -/

variable {cursor : Option String} {limits : Limits} {line : List UInt8} {lines : List (List UInt8)}
  {max n offset : Nat} {query : AuditQuery} {read : List (Nat × List UInt8)}

lemma hexValue_digitChar (h : n < 16) : hexValue (Nat.digitChar n) = some n := by
  have hall : ∀ n < 16, hexValue (Nat.digitChar n) = some n := by decide
  exact hall n h

lemma digitChar_ne (h : n < 16) : Nat.digitChar n ≠ ':' ∧ Nat.digitChar n ≠ '+' := by
  have hall : ∀ n < 16, Nat.digitChar n ≠ ':' ∧ Nat.digitChar n ≠ '+' := by decide
  exact hall n h

lemma lt_of_mem_base16 {width digit : Nat} (h : digit ∈ base16 width n) : digit < 16 := by
  induction width generalizing n with
  | zero => exact absurd h not_mem_nil
  | succ width ih =>
    rcases mem_append.mp h with hmem | hmem
    · exact ih hmem
    · rw [mem_singleton.mp hmem]
      omega

lemma length_base16 (width n : Nat) : (base16 width n).length = width := by
  induction width generalizing n with
  | zero => rfl
  | succ width ih =>
    rw [base16, length_append, ih]
    rfl

/-- The digits of a number denote it. -/
lemma ofBase16_base16 {width : Nat} (h : n < 16 ^ width) : ofBase16 (base16 width n) = n := by
  induction width generalizing n with
  | zero =>
    have hn : n = 0 := by omega
    rw [hn]
    rfl
  | succ width ih =>
    have hdiv : n / 16 < 16 ^ width := by
      rw [Nat.div_lt_iff_lt_mul (by omega), ← Nat.pow_succ]
      exact h
    have hfold : ofBase16 (base16 (width + 1) n)
        = ofBase16 (base16 width (n / 16)) * 16 + n % 16 := by
      unfold ofBase16
      rw [base16, foldl_append]
      rfl
    rw [hfold, ih hdiv]
    omega

lemma mapM_hexValue {digits : List Nat} (h : ∀ digit ∈ digits, digit < 16) :
    (digits.map Nat.digitChar).mapM hexValue = some digits := by
  induction digits with
  | nil => rfl
  | cons digit digits ih =>
    have hrest := ih fun other hother => h other (mem_cons_of_mem _ hother)
    rw [map_cons, mapM_cons, hexValue_digitChar (h digit mem_cons_self), hrest]
    rfl

lemma fromHex_base16 (h : n < 2 ^ 64) : fromHex ((base16 16 n).map Nat.digitChar) = some n := by
  have hvalue : ofBase16 (base16 16 n) = n := ofBase16_base16 h
  have hdigits : ((base16 16 n).map Nat.digitChar).mapM hexValue = some (base16 16 n) :=
    mapM_hexValue fun digit hmem => lt_of_mem_base16 hmem
  have hlength : ((base16 16 n).map Nat.digitChar).length = 16 := by
    rw [length_map, length_base16]
  -- the first digit is not a sign
  have hplain : withoutPlus ((base16 16 n).map Nat.digitChar)
      = (base16 16 n).map Nat.digitChar := by
    refine if_neg fun hhead => ?_
    obtain ⟨digit, hmem, hdigit⟩ := mem_map.mp (mem_of_head? hhead)
    exact (digitChar_ne (lt_of_mem_base16 hmem)).2 hdigit
  have hnonempty : ((base16 16 n).map Nat.digitChar).isEmpty = false := by
    rw [isEmpty_eq_false_iff]
    intro hnil
    rw [hnil] at hlength
    cases hlength
  unfold fromHex
  rw [hplain, if_neg (by rw [hnonempty]; exact Bool.noConfusion), hdigits, Option.bind_some,
    hvalue, if_pos h]

lemma bytesOfHex_hexDigest (bytes : List UInt8) :
    bytesOfHex (hexDigest bytes).toList = some bytes := by
  rw [toList_hexDigest]
  induction bytes with
  | nil => rfl
  | cons byte bytes ih =>
    have hbyte := byte.toNat_lt
    have hsum : byte.toNat / 16 * 16 + byte.toNat % 16 = byte.toNat := Nat.div_add_mod' _ _
    rw [flatMap_cons, cons_append, cons_append, nil_append, bytesOfHex,
      hexValue_digitChar (by omega), hexValue_digitChar (by omega), ih]
    show some (UInt8.ofNat (byte.toNat / 16 * 16 + byte.toNat % 16) :: bytes) = some (byte :: bytes)
    rw [hsum, UInt8.ofNat_toNat]

lemma colon_notMem_hexDigest (bytes : List UInt8) : ':' ∉ (hexDigest bytes).toList := by
  intro hmem
  exact absurd (isLowerHex_hexDigest hmem) (by decide)

/-- A cursor is read back. -/
lemma parseCursor_encodeCursor {byteEnd : Nat} {identityDigest : List UInt8}
    (hend : byteEnd < 2 ^ 64) (hdigest : identityDigest.length = 32) :
    parseCursor (encodeCursor ⟨byteEnd, identityDigest⟩) = .ok ⟨byteEnd, identityDigest⟩ := by
  have htext : (encodeCursor ⟨byteEnd, identityDigest⟩).toList = [':'].intercalate
      ["v1".toList, (base16 16 byteEnd).map Nat.digitChar,
        (hexDigest identityDigest).toList] := by
    unfold encodeCursor
    simp [List.intercalate]
  have hfields : (encodeCursor ⟨byteEnd, identityDigest⟩).toList.splitOn ':'
      = ["v1".toList, (base16 16 byteEnd).map Nat.digitChar,
        (hexDigest identityDigest).toList] := by
    rw [htext]
    refine splitOn_intercalate ':' (fun field hfield => ?_) (cons_ne_nil _ _)
    rw [mem_cons, mem_cons, mem_singleton] at hfield
    rcases hfield with hfield | hfield | hfield
    · rw [hfield]
      decide
    · rw [hfield]
      intro hmem
      obtain ⟨digit, hdigit, hcolon⟩ := mem_map.mp hmem
      exact (digitChar_ne (lt_of_mem_base16 hdigit)).1 hcolon
    · rw [hfield]
      exact colon_notMem_hexDigest _
  have hlength : (hexDigest identityDigest).toList.length = 64 := by
    rw [length_hexDigest, hdigest]
  unfold parseCursor
  rw [hfields]
  dsimp only
  rw [if_neg (fun h => h rfl), fromHex_base16 hend]
  dsimp only
  rw [if_neg (fun h => h hlength), bytesOfHex_hexDigest]

/-! ## Windows -/

/-- A line of the log. -/
structure WellFormed {Record : Type} (json : AuditJson Record) (line : List UInt8) : Prop where
  no_newline : newline ∉ line
  not_blank : line.all isAsciiWhitespace = false
  is_object : (json.parse line).isSome

section
variable {Record : Type} {json : AuditJson Record}

lemma WellFormed.ne_nil (h : WellFormed json line) : line ≠ [] := by
  rintro rfl
  exact absurd h.not_blank nofun

lemma linesOf_newline (start : Nat) (line bytes : List UInt8) :
    linesOf start line (newline :: bytes)
      = (if line.isEmpty then [] else [(start, line)])
        ++ linesOf (start + line.length + 1) [] bytes := by
  rw [linesOf, if_pos rfl]

lemma linesOf_byte {byte : UInt8} (h : byte ≠ newline) (start : Nat) (line bytes : List UInt8) :
    linesOf start line (byte :: bytes) = linesOf start (line ++ [byte]) bytes := by
  rw [linesOf, if_neg h]

lemma linesOf_line (hline : newline ∉ line) (start : Nat) (before rest : List UInt8)
    (hnonempty : before ++ line ≠ []) :
    linesOf start before (line ++ newline :: rest)
      = (start, before ++ line) :: linesOf (start + (before ++ line).length + 1) [] rest := by
  induction line generalizing before with
  | nil =>
    rw [append_nil] at hnonempty ⊢
    have hempty : before.isEmpty = false := isEmpty_eq_false_iff.mpr hnonempty
    rw [nil_append, linesOf_newline, hempty]
    rfl
  | cons byte line ih =>
    obtain ⟨hbyte, hline⟩ := not_or.mp (mt mem_cons.mpr hline)
    have happend : before ++ byte :: line = before ++ [byte] ++ line := append_cons ..
    rw [cons_append, linesOf_byte (Ne.symm hbyte), happend]
    exact ih hline (before ++ [byte]) (happend ▸ hnonempty)

/-- The lines of a window of whole lines. -/
lemma linesOf_unlines (h : ∀ line ∈ lines, WellFormed json line) (start : Nat) :
    linesOf start [] (unlines newline lines) = located start lines := by
  induction lines generalizing start with
  | nil => rfl
  | cons line lines ih =>
    have hline := h line mem_cons_self
    have hrest := ih fun other hother => h other (mem_cons_of_mem _ hother)
    rw [unlines_cons, linesOf_line hline.no_newline start [] _ hline.ne_nil, hrest]
    rfl

lemma afterNewline_eq (hline : newline ∉ line) (start : Nat) (rest : List UInt8) :
    afterNewline start (line ++ newline :: rest) = (start + line.length + 1, rest) := by
  have hfirst : line.findIdx? (· = newline) = none := by
    rw [List.findIdx?_eq_none_iff]
    intro byte hbyte
    rw [decide_eq_false_iff_not]
    rintro rfl
    exact hline hbyte
  have hfound : (line ++ newline :: rest).findIdx? (· = newline) = some line.length := by
    rw [List.findIdx?_append, hfirst, List.findIdx?_cons]
    simp
  unfold afterNewline
  rw [hfound]
  have hdrop : (line ++ newline :: rest).drop (line.length + 1) = rest := by
    rw [append_cons]
    exact drop_left' (by simp)
  dsimp only
  rw [hdrop]

/-- How a window falls into lines: the older ones, a line that fills the window and is lost, and
those that it has as a whole. -/
structure Cut (byteMax : Nat) (lines older lost whole : List (List UInt8)) : Prop where
  lines_eq : lines = older ++ lost ++ whole
  lost_fills : ∀ line ∈ lost, line.length + 1 = byteMax
  lost_alone : lost ≠ [] → whole = []
  lost_older : older = [] → lost = []
  whole_short : older ≠ [] → ∀ line ∈ whole, line.length + 1 < byteMax
  whole_fits : older = [] → (unlines newline whole).length ≤ byteMax
  progress : lines ≠ [] → older.length < lines.length

/-- The window at the end of some lines of a file. -/
lemma window_cut (newer : List (List UInt8)) {byteMax : Nat}
    (hlines : ∀ line ∈ lines, WellFormed json line)
    (hfits : ∀ line ∈ lines, line.length + 1 ≤ byteMax) (hpositive : 0 < byteMax) :
    let stop := (unlines newline lines).length
    let window := windowOf (unlines newline (lines ++ newer)) stop byteMax
    ∃ older lost whole, Cut byteMax lines older lost whole ∧
      window.contentStart = (unlines newline (older ++ lost)).length ∧
      window.content = unlines newline whole ∧ (window.start > 0 ↔ older ≠ []) ∧
      (older ≠ [] → (if window.contentStart < stop then window.contentStart else window.start)
        = (unlines newline older).length) := by
  intro stop window
  have hcontent (start : Nat) (hstart : start ≤ stop) :
      ((unlines newline (lines ++ newer)).drop start).take (stop - start)
        = (unlines newline lines).drop start := by
    rw [unlines_append, drop_append_of_le_length hstart]
    exact take_left' (length_drop ..)
  by_cases hall : stop ≤ byteMax
  · -- the window starts the file
    have hwindow : window = ⟨0, 0, unlines newline lines⟩ := by
      show windowOf _ stop byteMax = _
      unfold windowOf
      have hlen : min stop byteMax = stop := by omega
      have hread := hcontent 0 (Nat.zero_le _)
      rw [Nat.sub_zero, drop_zero] at hread
      simp only [hlen, Nat.sub_self, drop_zero, hread]
      rfl
    refine ⟨[], [], lines, ⟨rfl, ?_, ?_, ?_, ?_, ?_, ?_⟩, ?_, ?_, ?_, ?_⟩
    · exact fun line hmem => absurd hmem not_mem_nil
    · exact fun h => absurd rfl h
    · exact fun _ => rfl
    · exact fun h => absurd rfl h
    · exact fun _ => hall
    · exact fun h => length_pos_of_ne_nil h
    · rw [hwindow]
      rfl
    · rw [hwindow]
    · rw [hwindow]
      simp
    · exact fun h => absurd rfl h
  · have hstart : stop - min stop byteMax = stop - byteMax := by omega
    have hafter : stop - byteMax > 0 := by omega
    have hinside : stop - byteMax < (unlines newline lines).length := by
      show stop - byteMax < stop
      omega
    obtain ⟨before, line, after, hsplit, hbefore, hline, hdrop⟩ :=
      exists_cut newline hinside
    have hmem : line ∈ lines := by
      rw [hsplit]
      exact mem_append_right _ mem_cons_self
    have hstop : stop = (unlines newline before).length + (line.length + 1)
        + (unlines newline after).length := by
      show (unlines newline lines).length = _
      rw [hsplit, length_unlines_append, length_unlines_cons]
      omega
    have hlineFits := hfits line hmem
    -- the first newline of the window is the one behind the line that was cut
    have hwindow : window = ⟨stop - byteMax,
        (unlines newline before).length + line.length + 1, unlines newline after⟩ := by
      show windowOf _ stop byteMax = _
      have hread := hcontent (stop - byteMax) (by omega)
      have hlen : stop - (stop - byteMax) = min stop byteMax := by omega
      have hnewline : newline ∉ line.drop (stop - byteMax - (unlines newline before).length) :=
        fun h => (hlines line hmem).no_newline (mem_of_mem_drop h)
      have hfirst := afterNewline_eq hnewline (stop - byteMax) (unlines newline after)
      rw [length_drop] at hfirst
      rw [hlen, hdrop] at hread
      unfold windowOf
      simp only [hstart, hread, if_pos hafter, hfirst]
      congr 1
      omega
    have hwhole : ∀ other ∈ after, other.length + 1 < byteMax := by
      intro other hother
      have hlength := length_lt_of_mem newline hother
      omega
    by_cases hlast : after = []
    · -- the line that was cut is the last one: it fills the window
      subst hlast
      rw [unlines_nil, length_nil] at hstop
      have hfull : (unlines newline before).length = stop - byteMax := by omega
      have holder : before ≠ [] := by
        rintro rfl
        rw [unlines_nil, length_nil] at hfull
        omega
      refine ⟨before, [line], [], ⟨?_, ?_, ?_, ?_, ?_, ?_, ?_⟩, ?_, ?_, ?_, ?_⟩
      · rw [append_nil]
        exact hsplit
      · intro other hother
        rw [mem_singleton.mp hother]
        omega
      · exact fun _ => rfl
      · exact fun h => absurd h holder
      · exact fun _ => hwhole
      · exact fun h => absurd h holder
      · intro _
        rw [hsplit, length_append, length_cons]
        omega
      · rw [hwindow, length_unlines_append, length_unlines_cons, unlines_nil,
          length_nil]
        rfl
      · rw [hwindow]
      · rw [hwindow]
        exact ⟨fun _ => holder, fun _ => hafter⟩
      · intro _
        rw [hwindow]
        show (if (unlines newline before).length + line.length + 1 < stop then _ else _) = _
        rw [if_neg (by omega), hfull]
    · have hrest : 0 < (unlines newline after).length := by
        obtain ⟨other, rest, rfl⟩ := exists_cons_of_ne_nil hlast
        rw [length_unlines_cons]
        omega
      have hcut : (unlines newline (before ++ [line])).length
          = (unlines newline before).length + line.length + 1 := by
        rw [length_unlines_append, length_unlines_cons, unlines_nil, length_nil]
        omega
      have holder : before ++ [line] ≠ [] := by
        intro h
        exact absurd (append_eq_nil_iff.mp h).2 (cons_ne_nil _ _)
      refine ⟨before ++ [line], [], after, ⟨?_, ?_, ?_, ?_, ?_, ?_, ?_⟩, ?_, ?_, ?_, ?_⟩
      · rw [hsplit, append_nil, append_assoc, singleton_append]
      · exact fun other hother => absurd hother not_mem_nil
      · exact fun h => absurd rfl h
      · exact fun _ => rfl
      · exact fun _ => hwhole
      · exact fun h => absurd h holder
      · intro _
        have hnonempty := length_pos_of_ne_nil hlast
        rw [hsplit, length_append, length_append, length_cons]
        show before.length + 1 < before.length + (after.length + 1)
        omega
      · rw [hwindow, append_nil, hcut]
      · rw [hwindow]
      · rw [hwindow]
        exact ⟨fun _ => holder, fun _ => hafter⟩
      · intro _
        rw [hwindow, hcut]
        show (if (unlines newline before).length + line.length + 1 < stop then _ else _) = _
        rw [if_pos (by omega)]

/-! ## Scans -/

/-- The record of a line, if it matches. -/
def AuditQuery.found (query : AuditQuery) (json : AuditJson Record) (line : List UInt8) :
    Option Record :=
  (json.parse line).filter (query.accepts json)

/-- The scan that has read these lines. -/
def Scan.ofLines (json : AuditJson Record) (query : AuditQuery) (offset max : Nat)
    (read : List (Nat × List UInt8)) (truncatedScan : Bool) : Scan Record :=
  let matching := read.filterMap fun entry => query.found json entry.2
  { scanned := read.length
    matched := matching.length
    malformed := 0
    records := (matching.drop offset).take max
    truncatedScan
    oldestScannedStart := read.getLast?.map Prod.fst }

/-- What is added to the records of a page. -/
lemma take_drop_snoc {α : Type} (matching : List α) (offset max : Nat) (value : α) :
    ((matching ++ [value]).drop offset).take max
      = if matching.length ≥ offset ∧ ((matching.drop offset).take max).length < max then
          (matching.drop offset).take max ++ [value]
        else
          (matching.drop offset).take max := by
  by_cases hoffset : matching.length ≥ offset
  · rw [drop_append_of_le_length hoffset, take_append, length_take]
    by_cases hroom : (matching.drop offset).length < max
    · rw [if_pos ⟨hoffset, by omega⟩, take_of_length_le (l := [value])]
      rw [length_singleton]
      omega
    · rw [if_neg (by omega), Nat.sub_eq_zero_of_le (by omega), take_zero, append_nil]
  · rw [if_neg (fun h => hoffset h.1), drop_of_length_le (by simp; omega),
      drop_of_length_le (by omega)]

lemma scan_step (query : AuditQuery) {scanMax : Nat} {entry : Nat × List UInt8}
    (hentry : WellFormed json entry.2) {rest : List (Nat × List UInt8)}
    (hroom : read.length < scanMax) :
    scan json query offset max scanMax (entry :: rest)
        (Scan.ofLines json query offset max read false)
      = scan json query offset max scanMax rest
        (Scan.ofLines json query offset max (read ++ [entry]) false) := by
  obtain ⟨start, line⟩ := entry
  obtain ⟨value, hvalue⟩ := Option.isSome_iff_exists.mp hentry.is_object
  have hscanned : ¬ (Scan.ofLines json query offset max read false).scanned = scanMax := by
    show ¬ read.length = scanMax
    omega
  rw [scan, if_neg (by rw [hentry.not_blank]; exact Bool.noConfusion), if_neg hscanned]
  dsimp only
  rw [hvalue]
  dsimp only
  by_cases haccepts : query.accepts json value = true
  · have hfound : query.found json line = some value := by
      unfold AuditQuery.found
      rw [hvalue, Option.filter_some_pos haccepts]
    rw [if_neg (by rw [haccepts]; exact Bool.noConfusion)]
    congr 1
    unfold Scan.ofLines
    simp only [filterMap_append, filterMap_cons, hfound, filterMap_nil,
      length_append, length_singleton, take_drop_snoc, List.getLast?_append,
      List.getLast?_singleton, Option.some_or, Option.map_some]
  · rw [Bool.not_eq_true] at haccepts
    have hfound : query.found json line = none := by
      unfold AuditQuery.found
      rw [hvalue, Option.filter_some_neg haccepts]
    rw [if_pos (by rw [haccepts]; rfl)]
    congr 1
    unfold Scan.ofLines
    simp only [filterMap_append, filterMap_cons, hfound, filterMap_nil,
      append_nil, length_append, length_singleton, List.getLast?_append,
      List.getLast?_singleton, Option.some_or, Option.map_some]

/-- A scan reads as many lines as it may, and notices when there are more. -/
lemma scan_eq (query : AuditQuery) {scanMax : Nat} {rest : List (Nat × List UInt8)}
    (hrest : ∀ entry ∈ rest, WellFormed json entry.2) (hroom : read.length ≤ scanMax) :
    scan json query offset max scanMax rest (Scan.ofLines json query offset max read false)
      = Scan.ofLines json query offset max (read ++ rest.take (scanMax - read.length))
        (decide (scanMax < read.length + rest.length)) := by
  induction rest generalizing read with
  | nil =>
    have hnot : ¬ scanMax < read.length + ([] : List (Nat × List UInt8)).length := by
      rw [length_nil]
      omega
    rw [scan, take_nil, append_nil, decide_eq_false hnot]
  | cons entry rest ih =>
    have hentry := hrest entry mem_cons_self
    by_cases hfull : read.length = scanMax
    · have hmore : scanMax < read.length + (entry :: rest).length := by
        rw [length_cons]
        omega
      have hscanned : (Scan.ofLines json query offset max read false).scanned = scanMax := hfull
      rw [decide_eq_true hmore, hfull, Nat.sub_self, take_zero, append_nil, scan,
        if_neg (by rw [hentry.not_blank]; exact Bool.noConfusion), if_pos hscanned]
      rfl
    · have hsnoc : (read ++ [entry]).length = read.length + 1 := length_append
      have htake : scanMax - read.length = scanMax - (read ++ [entry]).length + 1 := by omega
      rw [scan_step query hentry (by omega),
        ih (fun other hother => hrest other (mem_cons_of_mem _ hother)) (by omega), htake,
        take_succ_cons, append_assoc, singleton_append, hsnoc, length_cons]
      congr 2
      rw [Nat.add_assoc, Nat.add_comm 1]

/-! ## Pages -/

/-- How a page divides the lines that its window ends with: the older ones, which the next window
ends with, one that is lost, and those that it shows. -/
structure Split (byteMax : Nat) (lines older lost shown : List (List UInt8)) : Prop where
  lines_eq : lines = older ++ lost ++ shown
  lost_fills : ∀ line ∈ lost, line.length + 1 = byteMax
  lost_older : older = [] → lost = []
  shown_short : older ≠ [] → ∀ line ∈ shown, line.length + 1 < byteMax
  shown_rest : older = [] → ∀ line ∈ shown.tail, line.length + 1 < byteMax
  progress : lines ≠ [] → older.length < lines.length

/-- The records that the lines of a page may show, newest first. -/
def AuditQuery.matching (query : AuditQuery) (json : AuditJson Record)
    (lines : List (List UInt8)) : List Record :=
  lines.reverse.filterMap (query.found json)

/-- What a page answers when its window shows these lines. -/
structure Page (json : AuditJson Record) (query : AuditQuery) (limits : Limits)
    (identityDigest : List UInt8) (older shown : List (List UInt8)) (reply : AuditReply Record) :
    Prop where
  records_eq : reply.records = ((query.matching json shown).drop limits.offset).take limits.max
  malformed_eq : reply.malformed = 0
  nextOffset_eq : reply.nextOffset =
    if (query.matching json shown).length > limits.offset + reply.records.length then
      some (limits.offset + reply.records.length)
    else
      none
  nextCursor_eq : reply.nextCursor =
    if older = [] then none
    else some (encodeCursor ⟨(unlines newline older).length, identityDigest⟩)

lemma length_matching_le (query : AuditQuery) (lines : List (List UInt8)) :
    (query.matching json lines).length ≤ lines.length := by
  have hlength := length_filterMap_le (query.found json) lines.reverse
  rwa [length_reverse] at hlength

lemma filterMap_located (query : AuditQuery) (start : Nat) (lines : List (List UInt8)) :
    ((located start lines).reverse.filterMap fun entry => query.found json entry.2)
      = query.matching json lines := by
  unfold AuditQuery.matching
  rw [← map_located start lines, ← map_reverse, filterMap_map,
    map_located start lines]
  rfl

lemma mem_located {start : Nat} {entry : Nat × List UInt8} (h : entry ∈ located start lines) :
    entry.2 ∈ lines := by
  rw [← map_located start lines]
  exact mem_map_of_mem h

/-- The scan of a window that shows all its lines, or the newest of them. -/
lemma scan_window (query : AuditQuery) (offset max scanMax start : Nat)
    (hlines : ∀ line ∈ lines, WellFormed json line) :
    scan json query offset max scanMax (located start lines).reverse (.empty Record)
      = Scan.ofLines json query offset max ((located start lines).reverse.take scanMax)
        (decide (scanMax < lines.length)) := by
  have hempty : Scan.empty Record = Scan.ofLines json query offset max [] false := by
    unfold Scan.ofLines
    simp only [filterMap_nil, drop_nil, take_nil]
    rfl
  have hentries : ∀ entry ∈ (located start lines).reverse, WellFormed json entry.2 :=
    fun entry hentry => hlines entry.2 (mem_located (mem_reverse.mp hentry))
  rw [hempty, scan_eq query hentries (Nat.zero_le scanMax), nil_append, length_nil,
    Nat.sub_zero, Nat.zero_add, length_reverse, length_located]

/-- What a scan that has read the lines of a page answers. -/
lemma page_of_scan (query : AuditQuery) (limits : Limits) {identityDigest : List UInt8}
    {older shown : List (List UInt8)} {truncatedScan truncatedBytes : Bool} {nextEnd : Option Nat}
    (scannedBytes : Nat)
    (hread : (read.filterMap fun entry => query.found json entry.2) = query.matching json shown)
    (hnext : nextEnd = if older = [] then none else some (unlines newline older).length) :
    Page json query limits identityDigest older shown
      (queryReply query limits (Scan.ofLines json query limits.offset limits.max read truncatedScan)
        scannedBytes truncatedBytes
        (nextEnd.map fun byteEnd => encodeCursor { byteEnd, identityDigest })) := by
  have hrecords : (Scan.ofLines json query limits.offset limits.max read truncatedScan).records
      = ((query.matching json shown).drop limits.offset).take limits.max := by
    unfold Scan.ofLines
    rw [hread]
  have hmatched : (Scan.ofLines json query limits.offset limits.max read truncatedScan).matched
      = (query.matching json shown).length := by
    unfold Scan.ofLines
    rw [hread]
  refine ⟨hrecords, rfl, ?_, ?_⟩
  · unfold queryReply
    dsimp only
    rw [hmatched]
    by_cases hmore : (query.matching json shown).length > limits.offset
        + (Scan.ofLines json query limits.offset limits.max read truncatedScan).records.length
    · rw [if_pos (decide_eq_true hmore), if_pos hmore]
    · rw [if_neg (by simpa using hmore), if_neg hmore]
  · show nextEnd.map _ = _
    rw [hnext]
    by_cases holder : older = []
    · rw [if_pos holder, if_pos holder]
      rfl
    · rw [if_neg holder, if_neg holder]
      rfl

/-- The page of the window at the end of some lines. -/
lemma page_of_window (limits : Limits) (identityDigest : List UInt8) (newer : List (List UInt8))
    (hlines : ∀ line ∈ lines, WellFormed json line)
    (hfits : ∀ line ∈ lines, line.length + 1 ≤ limits.byteMax) (hbyteMax : 0 < limits.byteMax)
    (hscanMax : 0 < limits.scanMax) :
    ∃ older lost shown, Split limits.byteMax lines older lost shown ∧
      shown.length ≤ limits.scanMax ∧
      ∀ query offset, Page json query { limits with offset } identityDigest older shown
        (readWindow json query { limits with offset } (unlines newline (lines ++ newer))
          identityDigest (unlines newline lines).length) := by
  obtain ⟨older, lost, whole, hcut, hstart, hcontent, htruncated, hnext⟩ :=
    window_cut newer hlines hfits hbyteMax
  have hwhole : ∀ line ∈ whole, WellFormed json line := by
    intro line hmem
    refine hlines line ?_
    rw [hcut.lines_eq]
    exact mem_append_right _ hmem
  have hscan (query : AuditQuery) (offset : Nat) := scan_window query offset limits.max
    limits.scanMax (unlines newline (older ++ lost)).length hwhole
  by_cases hmore : limits.scanMax < whole.length
  · -- the scan stops at the oldest of the lines that it may read
    have hwhole_ne : whole ≠ [] := by
      rintro rfl
      exact absurd hmore (Nat.not_lt_zero _)
    have hlost : lost = [] := by
      by_contra h
      exact hwhole_ne (hcut.lost_alone h)
    obtain ⟨first, shown, hsplit, hlength⟩ :
        ∃ first shown, whole = first ++ shown ∧ shown.length = limits.scanMax :=
      ⟨whole.take (whole.length - limits.scanMax), whole.drop (whole.length - limits.scanMax),
        (take_append_drop ..).symm, by rw [length_drop]; omega⟩
    have hfirst : first ≠ [] := by
      rintro rfl
      rw [hsplit, nil_append] at hmore
      omega
    have holder : older ++ first ≠ [] := fun h => hfirst (append_eq_nil_iff.mp h).2
    have hread : (located (unlines newline (older ++ lost)).length whole).reverse.take
        limits.scanMax = (located (unlines newline (older ++ first)).length shown).reverse := by
      rw [hlost, append_nil, hsplit, located_append newline, reverse_append,
        ← length_unlines_append]
      exact take_left' (by rw [length_reverse, length_located, hlength])
    refine ⟨older ++ first, [], shown, ⟨?_, ?_, ?_, ?_, ?_, ?_⟩, Nat.le_of_eq hlength,
      fun query offset => ?_⟩
    · rw [hcut.lines_eq, hlost, hsplit, append_nil, append_nil, append_assoc]
    · exact fun line hmem => absurd hmem not_mem_nil
    · exact fun _ => rfl
    · intro _ line hmem
      by_cases hnone : older = []
      · -- the window starts the file, and has a line that is not shown
        have hall := hcut.whole_fits hnone
        have hline := length_lt_of_mem newline hmem
        obtain ⟨other, rest, rfl⟩ := exists_cons_of_ne_nil hfirst
        rw [hsplit, length_unlines_append, length_unlines_cons] at hall
        omega
      · refine hcut.whole_short hnone line ?_
        rw [hsplit]
        exact mem_append_right _ hmem
    · exact fun h => absurd h holder
    · intro _
      have hsum : (older ++ first ++ shown).length = (older ++ first).length + shown.length :=
        length_append
      rw [hcut.lines_eq, hlost, hsplit, append_nil, ← append_assoc, hsum]
      omega
    · have hlast : (located (unlines newline (older ++ first)).length shown).reverse.getLast?.map
          Prod.fst = some (unlines newline (older ++ first)).length := by
        cases shown with
        | nil =>
          rw [length_nil] at hlength
          omega
        | cons line rest => rw [located, List.getLast?_reverse]; rfl
      unfold readWindow
      dsimp only
      rw [hcontent, hstart, linesOf_unlines hwhole, hscan query offset, hread, decide_eq_true hmore]
      refine page_of_scan query { limits with offset } _ (filterMap_located query _ shown) ?_
      rw [if_neg holder]
      exact hlast
  · have hread : (located (unlines newline (older ++ lost)).length whole).reverse.take
        limits.scanMax = (located (unlines newline (older ++ lost)).length whole).reverse := by
      refine take_of_length_le ?_
      rw [length_reverse, length_located]
      omega
    refine ⟨older, lost, whole, ⟨hcut.lines_eq, hcut.lost_fills, hcut.lost_older, hcut.whole_short,
      ?_, hcut.progress⟩, by omega, fun query offset => ?_⟩
    · intro hnone line hmem
      have hall := hcut.whole_fits hnone
      cases whole with
      | nil => exact absurd hmem not_mem_nil
      | cons first rest =>
        have hline := length_lt_of_mem newline hmem
        rw [length_unlines_cons] at hall
        show line.length + 1 < limits.byteMax
        rw [tail_cons] at hline
        omega
    · unfold readWindow
      dsimp only
      rw [hcontent, hstart, linesOf_unlines hwhole, hscan query offset, hread,
        decide_eq_false hmore]
      refine page_of_scan query { limits with offset } _ (filterMap_located query _ whole) ?_
      by_cases holder : older = []
      · have hnot : ¬ (windowOf (unlines newline (lines ++ newer))
            (unlines newline lines).length limits.byteMax).start > 0 :=
          fun h => htruncated.mp h holder
        rw [if_pos holder, decide_eq_false hnot]
        rfl
      · rw [if_neg holder, decide_eq_true (htruncated.mpr holder), ← hnext holder, hstart]
        rfl

/-! ## Paging -/

/-- The query of a client for one page. -/
def ask (json : AuditJson Record) (sha256 : List UInt8 → Fin 32 → UInt8) (file : AuditFile)
    (query : AuditQuery) (cursor : Option String) (offset : Nat) :
    Except CuError (AuditReply Record) :=
  queryAt json sha256 .works (some file) { query with cursor, offset := some offset }

/-- A client that goes on with `next_offset` within a window and then with `next_cursor`, until both
are absent, and the replies it gets. -/
inductive Follows (ask : Option String → Nat → Except CuError (AuditReply Record)) :
    Option String → Nat → List (AuditReply Record) → Prop
  | last (cursor : Option String) (offset : Nat) (reply : AuditReply Record)
    (asked : ask cursor offset = .ok reply) (no_offset : reply.nextOffset = none)
    (no_cursor : reply.nextCursor = none) : Follows ask cursor offset [reply]
  | within (cursor : Option String) (offset next : Nat) (reply : AuditReply Record)
    (replies : List (AuditReply Record)) (asked : ask cursor offset = .ok reply)
    (has_offset : reply.nextOffset = some next) (follows : Follows ask cursor next replies) :
    Follows ask cursor offset (reply :: replies)
  | across (cursor : Option String) (offset : Nat) (next : String) (reply : AuditReply Record)
    (replies : List (AuditReply Record)) (asked : ask cursor offset = .ok reply)
    (no_offset : reply.nextOffset = none) (has_cursor : reply.nextCursor = some next)
    (follows : Follows ask (some next) 0 replies) : Follows ask cursor offset (reply :: replies)

/-- The client gets the same replies each time. -/
lemma follows_unique {ask : Option String → Nat → Except CuError (AuditReply Record)}
    {replies replies' : List (AuditReply Record)} (h : Follows ask cursor offset replies)
    (h' : Follows ask cursor offset replies') : replies = replies' := by
  induction h generalizing replies' with
  | last cursor offset reply hasked hoffset hcursor =>
    cases h' with
    | last _ _ other hasked' _ _ =>
      obtain rfl := Except.ok.inj (hasked.symm.trans hasked')
      rfl
    | within _ _ next other rest hasked' hnext _ =>
      obtain rfl := Except.ok.inj (hasked.symm.trans hasked')
      exact absurd (hoffset.symm.trans hnext) nofun
    | across _ _ next other rest hasked' _ hnext _ =>
      obtain rfl := Except.ok.inj (hasked.symm.trans hasked')
      exact absurd (hcursor.symm.trans hnext) nofun
  | within cursor offset next reply rest hasked hnext _ ih =>
    cases h' with
    | last _ _ other hasked' hoffset _ =>
      obtain rfl := Except.ok.inj (hasked.symm.trans hasked')
      exact absurd (hoffset.symm.trans hnext) nofun
    | within _ _ next' other rest' hasked' hnext' hfollows =>
      obtain rfl := Except.ok.inj (hasked.symm.trans hasked')
      obtain rfl := Option.some.inj (hnext.symm.trans hnext')
      rw [ih hfollows]
    | across _ _ next' other rest' hasked' hoffset _ _ =>
      obtain rfl := Except.ok.inj (hasked.symm.trans hasked')
      exact absurd (hoffset.symm.trans hnext) nofun
  | across cursor offset next reply rest hasked hoffset hnext _ ih =>
    cases h' with
    | last _ _ other hasked' _ hcursor =>
      obtain rfl := Except.ok.inj (hasked.symm.trans hasked')
      exact absurd (hcursor.symm.trans hnext) nofun
    | within _ _ next' other rest' hasked' hnext' _ =>
      obtain rfl := Except.ok.inj (hasked.symm.trans hasked')
      exact absurd (hoffset.symm.trans hnext') nofun
    | across _ _ next' other rest' hasked' _ hnext' hfollows =>
      obtain rfl := Except.ok.inj (hasked.symm.trans hasked')
      obtain rfl := Option.some.inj (hnext.symm.trans hnext')
      rw [ih hfollows]

lemma bounded_eq_ok {name : String} {value least greatest found : Nat} :
    bounded name value least greatest = .ok found ↔
      found = value ∧ least ≤ value ∧ value ≤ greatest := by
  unfold bounded
  rw [ite_error_eq_ok]
  constructor
  · rintro ⟨hrange, hfound⟩
    exact ⟨(Except.ok.inj hfound).symm, by omega, by omega⟩
  · rintro ⟨rfl, hleast, hgreatest⟩
    exact ⟨by omega, rfl⟩

/-- The numbers of a query that is accepted. -/
lemma limits_eq_ok (h : query.limits = .ok limits) :
    0 < limits.max ∧ 0 < limits.scanMax ∧ limits.scanMax ≤ 100000 ∧ 0 < limits.byteMax ∧
      ∀ cursor offset, offset ≤ 100000 →
        ({ query with cursor, offset := some offset } : AuditQuery).limits
          = .ok { limits with offset } := by
  unfold AuditQuery.limits at h
  rw [ite_error_eq_ok, bind_eq_ok] at h
  obtain ⟨hrequest, offset', hoffset, h⟩ := h
  obtain ⟨max, hmax, h⟩ := bind_eq_ok.mp h
  obtain ⟨scanMax, hscanMax, h⟩ := bind_eq_ok.mp h
  obtain ⟨byteMax, hbyteMax, h⟩ := bind_eq_ok.mp h
  rw [ite_error_eq_ok] at h
  obtain ⟨houtcome, h⟩ := h
  cases h
  refine ⟨?_, ?_, ?_, ?_, fun cursor offset hle => ?_⟩
  · obtain ⟨rfl, hleast, -⟩ := bounded_eq_ok.mp hmax
    exact hleast
  · obtain ⟨rfl, hleast, -⟩ := bounded_eq_ok.mp hscanMax
    exact hleast
  · obtain ⟨rfl, -, hgreatest⟩ := bounded_eq_ok.mp hscanMax
    exact hgreatest
  · obtain ⟨rfl, hleast, -⟩ := bounded_eq_ok.mp hbyteMax
    show 0 < query.byteMax.getD defaultQueryByteMax
    omega
  · unfold AuditQuery.limits
    rw [ite_error_eq_ok]
    refine ⟨hrequest, bind_eq_ok.mpr ⟨offset, ?_, bind_eq_ok.mpr ⟨max, hmax,
      bind_eq_ok.mpr ⟨scanMax, hscanMax, bind_eq_ok.mpr ⟨byteMax, hbyteMax, ?_⟩⟩⟩⟩⟩
    · exact bounded_eq_ok.mpr ⟨rfl, Nat.zero_le _, hle⟩
    · exact if_neg houtcome

lemma length_auditIdentityDigest (sha256 : List UInt8 → Fin 32 → UInt8)
    (filesystemId objectId : UInt64) :
    (auditIdentityDigest sha256 filesystemId objectId).length = 32 := length_ofFn

/-- A cursor that names the window at the end of some lines of a file, none at the newest. -/
def Names (sha256 : List UInt8 → Fin 32 → UInt8) (file : AuditFile) (cursor : Option String)
    (lines newer : List (List UInt8)) : Prop :=
  (cursor = none ∧ newer = []) ∨
    cursor = some (encodeCursor ⟨(unlines newline lines).length,
      auditIdentityDigest sha256 file.filesystemId file.objectId⟩)

lemma ask_eq (sha256 : List UInt8 → Fin 32 → UInt8) {file : AuditFile}
    (hlimits : query.limits = .ok limits) (hoffset : offset ≤ 100000) {newer : List (List UInt8)}
    (hbytes : file.bytes = unlines newline (lines ++ newer))
    (hnames : Names sha256 file cursor lines newer) :
    ask json sha256 file query cursor offset
      = .ok (readWindow json { query with cursor, offset := some offset } { limits with offset }
        (unlines newline (lines ++ newer))
        (auditIdentityDigest sha256 file.filesystemId file.objectId)
        (unlines newline lines).length) := by
  have haccepted := (limits_eq_ok hlimits).2.2.2.2 cursor offset hoffset
  have hstop : (unlines newline lines).length ≤ file.bytes.length := by
    rw [hbytes, length_unlines_append]
    omega
  unfold ask queryAt
  rw [haccepted]
  rcases hnames with ⟨rfl, rfl⟩ | rfl
  · rw [append_nil] at hbytes ⊢
    simp only [bind, Except.bind, unavailable, AuditIo.works, Option.any_none, hbytes]
    rw [if_neg Bool.noConfusion, if_neg (Nat.lt_irrefl _)]
  · have hread := parseCursor_encodeCursor (Nat.lt_of_le_of_lt hstop file.length_lt)
      (length_auditIdentityDigest sha256 file.filesystemId file.objectId)
    simp only [bind, Except.bind, unavailable, AuditIo.works, hread, Except.map, Option.any_some,
      ne_eq, not_true_eq_false, decide_false]
    rw [if_neg Bool.noConfusion, if_neg (by omega), hbytes]

/-- The records that a client gets from a page on, none of which is counted as malformed. -/
def Gives (ask : Option String → Nat → Except CuError (AuditReply Record)) (cursor : Option String)
    (offset : Nat) (records : List Record) : Prop :=
  ∃ replies, Follows ask cursor offset replies ∧
    replies.flatMap (fun reply => reply.records) = records ∧
    ∀ reply ∈ replies, reply.malformed = 0

/-- What the pages of one window answer. -/
def Shows (ask : Option String → Nat → Except CuError (AuditReply Record)) (cursor : Option String)
    (max : Nat) (next : Option String) (matching : List Record) : Prop :=
  ∀ offset ≤ 100000, ∃ reply, ask cursor offset = .ok reply ∧
    reply.records = (matching.drop offset).take max ∧ reply.malformed = 0 ∧
    reply.nextOffset = (if matching.length > offset + reply.records.length then
      some (offset + reply.records.length) else none) ∧
    reply.nextCursor = next

lemma gives_cons {ask : Option String → Nat → Except CuError (AuditReply Record)}
    {cursor' : Option String} {offset' : Nat} {reply : AuditReply Record} {records : List Record}
    (hmalformed : reply.malformed = 0) (hrest : Gives ask cursor' offset' records)
    (hfollows : ∀ replies, Follows ask cursor' offset' replies →
      Follows ask cursor offset (reply :: replies)) :
    Gives ask cursor offset (reply.records ++ records) := by
  obtain ⟨replies, hreplies, rfl, hnone⟩ := hrest
  exact ⟨reply :: replies, hfollows replies hreplies, rfl,
    forall_mem_cons.mpr ⟨hmalformed, hnone⟩⟩

/-- The pages of a window give what it shows, and then what the next windows give. -/
lemma gives_window {ask : Option String → Nat → Except CuError (AuditReply Record)}
    {next : Option String} {matching older : List Record} (hmax : 0 < max)
    (hshows : Shows ask cursor max next matching) (hlength : matching.length ≤ 100000)
    (hnext : (next = none ∧ older = []) ∨ ∃ cursor', next = some cursor' ∧
      Gives ask (some cursor') 0 older) (hoffset : offset ≤ matching.length) :
    Gives ask cursor offset (matching.drop offset ++ older) := by
  induction hleft : matching.length - offset using Nat.strongRecOn generalizing offset with
  | _ left ih =>
    obtain ⟨reply, hasked, hrecords, hmalformed, hnextOffset, hcursor⟩ :=
      hshows offset (by omega)
    have hshown : reply.records.length = min max (matching.length - offset) := by
      rw [hrecords, length_take, length_drop]
    by_cases hmore : matching.length > offset + reply.records.length
    · -- the page is full, and the window goes on behind it
      rw [if_pos hmore] at hnextOffset
      have hnextLe : offset + reply.records.length ≤ matching.length := by omega
      have hrest := ih _ (by omega) hnextLe rfl
      have hsplit : matching.drop offset
          = reply.records ++ matching.drop (offset + reply.records.length) := by
        have hfull : reply.records.length = max := by omega
        rw [hfull, hrecords, ← drop_drop, take_append_drop]
      rw [hsplit, append_assoc]
      exact gives_cons hmalformed hrest fun replies hreplies =>
        .within cursor offset _ reply replies hasked hnextOffset hreplies
    · rw [if_neg hmore] at hnextOffset
      have hall : reply.records = matching.drop offset := by
        rw [hrecords, take_of_length_le]
        rw [length_drop]
        omega
      rw [← hall]
      rcases hnext with ⟨hnone, rfl⟩ | ⟨cursor', hsome, hrest⟩
      · refine ⟨[reply], .last cursor offset reply hasked hnextOffset (hcursor.trans hnone), rfl,
          fun other hother => ?_⟩
        rw [mem_singleton.mp hother]
        exact hmalformed
      · exact gives_cons hmalformed hrest fun replies hreplies =>
          .across cursor offset cursor' reply replies hasked hnextOffset (hcursor.trans hsome)
            hreplies

/-- The lines that pages show: of those behind the first, the ones shorter than a window. -/
def shownLines (byteMax : Nat) : List (List UInt8) → List (List UInt8)
  | [] => []
  | first :: rest => first :: rest.filter fun line => line.length + 1 < byteMax

lemma shownLines_split {byteMax : Nat} {older lost shown : List (List UInt8)}
    (h : Split byteMax lines older lost shown) :
    shownLines byteMax lines = shownLines byteMax older ++ shown := by
  rw [h.lines_eq]
  cases older with
  | nil =>
    rw [h.lost_older rfl]
    cases shown with
    | nil => rfl
    | cons first rest =>
      show first :: rest.filter _ = first :: rest
      rw [filter_eq_self.mpr]
      exact fun line hmem => decide_eq_true (h.shown_rest rfl line hmem)
  | cons first rest =>
    have hlost : lost.filter (fun line => line.length + 1 < byteMax) = [] := by
      rw [filter_eq_nil_iff]
      intro line hmem
      have hfills := h.lost_fills line hmem
      simp only [decide_eq_true_eq]
      omega
    have hshown : shown.filter (fun line => line.length + 1 < byteMax) = shown :=
      filter_eq_self.mpr fun line hmem =>
        decide_eq_true (h.shown_short (cons_ne_nil _ _) line hmem)
    show first :: (rest ++ lost ++ shown).filter _ = first :: rest.filter _ ++ shown
    rw [filter_append, filter_append, hlost, hshown, append_nil, cons_append]

lemma matching_append (query : AuditQuery) (lines lines' : List (List UInt8)) :
    query.matching json (lines ++ lines')
      = query.matching json lines' ++ query.matching json lines := by
  unfold AuditQuery.matching
  rw [reverse_append, filterMap_append]

/-- The pages from the window at the end of some lines on give what those lines show. -/
lemma gives_lines (sha256 : List UInt8 → Fin 32 → UInt8) {file : AuditFile}
    (hlimits : query.limits = .ok limits) {newer : List (List UInt8)}
    (hbytes : file.bytes = unlines newline (lines ++ newer))
    (hlines : ∀ line ∈ lines, WellFormed json line)
    (hfits : ∀ line ∈ lines, line.length + 1 ≤ limits.byteMax)
    (hnames : Names sha256 file cursor lines newer) :
    Gives (ask json sha256 file query) cursor 0
      (query.matching json (shownLines limits.byteMax lines)) := by
  obtain ⟨hmax, hscanMax, hscanLe, hbyteMax, -⟩ := limits_eq_ok hlimits
  induction hlength : lines.length using Nat.strongRecOn generalizing cursor lines newer with
  | _ length ih =>
    obtain ⟨older, lost, shown, hsplit, hshownLe, hpage⟩ := page_of_window limits
      (auditIdentityDigest sha256 file.filesystemId file.objectId) newer hlines hfits hbyteMax
      hscanMax
    have hshows : Shows (ask json sha256 file query) cursor limits.max
        (if older = [] then none else some (encodeCursor ⟨(unlines newline older).length,
          auditIdentityDigest sha256 file.filesystemId file.objectId⟩))
        (query.matching json shown) := by
      intro offset hoffset
      have hfound := hpage { query with cursor, offset := some offset } offset
      exact ⟨_, ask_eq sha256 hlimits hoffset hbytes hnames, hfound.records_eq,
        hfound.malformed_eq, hfound.nextOffset_eq, hfound.nextCursor_eq⟩
    have hmatching : (query.matching json shown).length ≤ 100000 :=
      Nat.le_trans (length_matching_le query shown) (Nat.le_trans hshownLe hscanLe)
    have hnext : ((if older = [] then none else some (encodeCursor
          ⟨(unlines newline older).length,
            auditIdentityDigest sha256 file.filesystemId file.objectId⟩)) = none ∧
          query.matching json (shownLines limits.byteMax older) = []) ∨
        ∃ cursor', (if older = [] then none else some (encodeCursor
          ⟨(unlines newline older).length,
            auditIdentityDigest sha256 file.filesystemId file.objectId⟩)) = some cursor' ∧
          Gives (ask json sha256 file query) (some cursor') 0
            (query.matching json (shownLines limits.byteMax older)) := by
      by_cases holder : older = []
      · subst holder
        exact .inl ⟨if_pos rfl, rfl⟩
      · -- the next window ends with the older lines
        have hlines_ne : lines ≠ [] := by
          rintro rfl
          have hnil := hsplit.lines_eq
          rw [append_assoc] at hnil
          exact holder (append_eq_nil_iff.mp hnil.symm).1
        have hmem (line : List UInt8) (hline : line ∈ older) : line ∈ lines := by
          rw [hsplit.lines_eq, append_assoc]
          exact mem_append_left _ hline
        have hprogress := hsplit.progress hlines_ne
        have hbytesOlder : file.bytes = unlines newline (older ++ (lost ++ shown ++ newer)) := by
          rw [hbytes, hsplit.lines_eq, append_assoc, append_assoc, append_assoc]
        exact .inr ⟨_, if_neg holder, ih older.length (by omega) hbytesOlder
          (fun line hline => hlines line (hmem line hline))
          (fun line hline => hfits line (hmem line hline)) (.inr rfl) rfl⟩
    have hgives := gives_window hmax hshows hmatching hnext (Nat.zero_le _)
    rw [drop_zero] at hgives
    rwa [shownLines_split hsplit, matching_append]

/-- Lines that do not match may be left out, and only those. -/
lemma filterMap_filter_eq_iff {α β : Type} (f : α → Option β) (p : α → Bool) (l : List α) :
    (l.filter p).filterMap f = l.filterMap f ↔ ∀ a ∈ l, (f a).isSome → p a = true := by
  induction l with
  | nil => simp
  | cons a l ih =>
    rw [forall_mem_cons, ← ih]
    by_cases hp : p a = true
    · rw [filter_cons_of_pos hp]
      cases hf : f a with
      | none =>
        rw [filterMap_cons_none hf, filterMap_cons_none hf]
        simp
      | some b =>
        rw [filterMap_cons_some hf, filterMap_cons_some hf, List.cons.injEq]
        simp [hp]
    · rw [filter_cons_of_neg hp]
      cases hf : f a with
      | none =>
        rw [filterMap_cons_none hf]
        simp
      | some b =>
        -- a line that matches is missing
        have hshort : ((l.filter p).filterMap f).length ≤ (l.filterMap f).length :=
          (filter_sublist.filterMap f).length_le
        rw [filterMap_cons_some hf]
        refine ⟨fun h => ?_, fun h => absurd (h.1 rfl) hp⟩
        rw [h, length_cons] at hshort
        omega

/-- The pages show every line that matches when each line behind the first that matches is shorter
than a window. -/
lemma matching_shownLines_iff (query : AuditQuery) (byteMax : Nat) (lines : List (List UInt8)) :
    query.matching json (shownLines byteMax lines) = query.matching json lines ↔
      ∀ line ∈ lines.tail, (query.found json line).isSome → line.length + 1 < byteMax := by
  cases lines with
  | nil => simp [shownLines]
  | cons first rest =>
    have hiff := filterMap_filter_eq_iff (query.found json)
      (fun line => decide (line.length + 1 < byteMax)) rest
    simp only [decide_eq_true_eq] at hiff
    rw [tail_cons, ← hiff]
    have hmatching (lines : List (List UInt8)) :
        query.matching json lines = (lines.filterMap (query.found json)).reverse := by
      unfold AuditQuery.matching
      rw [filterMap_reverse]
    rw [hmatching, hmatching, reverse_inj, shownLines]
    cases hf : query.found json first with
    | none => rw [filterMap_cons_none hf, filterMap_cons_none hf]
    | some value =>
      rw [filterMap_cons_some hf, filterMap_cons_some hf, List.cons.injEq]
      simp

lemma gives_unique {ask : Option String → Nat → Except CuError (AuditReply Record)}
    {records records' : List Record} (h : Gives ask cursor offset records)
    (h' : Gives ask cursor offset records') : records = records' := by
  obtain ⟨replies, hfollows, rfl, -⟩ := h
  obtain ⟨replies', hfollows', rfl, -⟩ := h'
  rw [follows_unique hfollows hfollows']

/-- A client that pages through a log of well-formed lines, none of which with its newline is longer
than a window, gets every record that matches once, newest first, and none counted as malformed,
exactly when no line that matches, other than the first, fills a whole window. -/
theorem paging_lossless (json : AuditJson Record) (sha256 : List UInt8 → Fin 32 → UInt8)
    (file : AuditFile) (query : AuditQuery) (limits : Limits) (lines : List (List UInt8))
    (hlimits : query.limits = .ok limits) (hbytes : file.bytes = unlines newline lines)
    (hlines : ∀ line ∈ lines, WellFormed json line)
    (hfits : ∀ line ∈ lines, line.length + 1 ≤ limits.byteMax) :
    Gives (ask json sha256 file query) none 0 (query.matching json lines) ↔
      ∀ line ∈ lines.tail, (query.found json line).isSome → line.length + 1 < limits.byteMax := by
  rw [← append_nil lines] at hbytes
  have hgives := gives_lines sha256 hlimits hbytes hlines hfits (.inl ⟨rfl, rfl⟩)
  rw [← matching_shownLines_iff query limits.byteMax lines]
  constructor
  · intro hall
    exact gives_unique hgives hall
  · intro hsame
    rwa [hsame] at hgives

end

/-- Any line as an object with none of the fields of a filter. -/
def objectJson : AuditJson Unit where
  parse := fun _ => some ()
  requestId := fun _ => none
  verb := fun _ => none
  outcome := fun _ => none
  tsMs := fun _ => none

/-- `{}`, with spaces behind it. -/
def objectLine (spaces : Nat) : List UInt8 := 0x7b :: 0x7d :: List.replicate spaces 0x20

/-- All records, in windows of 1024 bytes. -/
def allQuery : AuditQuery where
  requestId := none
  verb := none
  outcome := none
  sinceMs := none
  offset := none
  max := none
  scanMax := none
  byteMax := some 1024
  cursor := none

/-- A file of two such lines. -/
def objectFile (spaces : Nat) (h : spaces ≤ 1024) : AuditFile where
  filesystemId := 1
  objectId := 2
  bytes := unlines newline [objectLine 0, objectLine spaces]
  length_lt := by
    rw [length_unlines_cons, length_unlines_cons, unlines_nil]
    simp only [objectLine, length_cons, length_replicate, length_nil]
    omega

lemma objectLine_wellFormed (spaces : Nat) : WellFormed objectJson (objectLine spaces) where
  no_newline := by
    unfold objectLine
    simp only [mem_cons, mem_replicate, not_or]
    exact ⟨by decide, by decide, fun h => absurd h.2 (by decide)⟩
  not_blank := rfl
  is_object := rfl

lemma objectLines_wellFormed (spaces : Nat) :
    ∀ line ∈ [objectLine 0, objectLine spaces], WellFormed objectJson line := by
  intro line hline
  rw [mem_cons, mem_singleton] at hline
  rcases hline with rfl | rfl
  · exact objectLine_wellFormed 0
  · exact objectLine_wellFormed spaces

lemma objectLines_fit {spaces : Nat} (h : spaces ≤ 1021) :
    ∀ line ∈ [objectLine 0, objectLine spaces], line.length + 1 ≤ 1024 := by
  intro line hline
  rw [mem_cons, mem_singleton] at hline
  rcases hline with rfl | rfl
  · decide
  · simp only [objectLine, length_cons, length_replicate]
    omega

lemma allQuery_limits : allQuery.limits = .ok ⟨0, 200, 10000, 1024⟩ := rfl

theorem paging_lossless_two :
    Gives (ask objectJson (fun _ _ => 0) (objectFile 1020 (by decide)) allQuery) none 0
      [(), ()] := by
  refine (paging_lossless objectJson (fun _ _ => 0) (objectFile 1020 (by decide)) allQuery _ _
    allQuery_limits rfl (objectLines_wellFormed 1020) (objectLines_fit (by decide))).mpr ?_
  intro line hline _
  obtain rfl := mem_singleton.mp hline
  simp only [objectLine, length_cons, length_replicate]
  omega

/-- A line of 1024 bytes with its newline is not found in windows of 1024 bytes. -/
theorem paging_loses_line :
    (∀ line ∈ [objectLine 0, objectLine 1021],
      WellFormed objectJson line ∧ line.length + 1 ≤ 1024) ∧
    ¬ Gives (ask objectJson (fun _ _ => 0) (objectFile 1021 (by decide)) allQuery) none 0
      (allQuery.matching objectJson [objectLine 0, objectLine 1021]) := by
  refine ⟨fun line hline => ⟨objectLines_wellFormed 1021 line hline,
    objectLines_fit (Nat.le_refl _) line hline⟩, fun hall => ?_⟩
  have hbytes : (objectFile 1021 (by decide)).bytes
      = unlines newline ([objectLine 0, objectLine 1021] ++ []) := rfl
  have hgives := gives_lines (fun _ _ => 0) allQuery_limits hbytes (objectLines_wellFormed 1021)
    (objectLines_fit (Nat.le_refl _)) (.inl ⟨rfl, rfl⟩)
  have hsame := gives_unique hgives hall
  have hone : shownLines 1024 [objectLine 0, objectLine 1021] = [objectLine 0] := by
    have hlength : (objectLine 1021).length + 1 = 1024 := by
      simp only [objectLine, length_cons, length_replicate]
    show objectLine 0 :: [objectLine 1021].filter _ = _
    rw [filter_cons_of_neg]
    · rfl
    · simp only [decide_eq_true_eq]
      omega
  rw [hone] at hsame
  exact absurd (congrArg List.length hsame) (by decide)

end Agenterm.Cu.Audit
