import Agenterm.Terminal.Redaction
import Agenterm.Lib.Scanner
import Mathlib.Data.List.Find

/-!
# Redaction is independent of chunking, and hides every secret

The loop of `redactProxyStreamChunk` is a streaming scanner in the sense of `Lib.Scanner`: its
tokens are the bytes it copies and the needles it replaces (`Segment`), and it waits exactly
while a longer needle could still match. `redactProxyStreamChunk_eq_scan` makes the
connection; chunk independence is then the library's, and secrecy is an induction along the
scan (`secret_overlaps_replaced`).
-/

namespace Agenterm

open List

/-- What the loop does in one round: copy a byte, or replace a needle. -/
inductive Segment where
  | literal (byte : UInt8)
  | replaced (needle : List UInt8)
deriving DecidableEq

namespace Segment

/-- The bytes of the stream the segment stands for. -/
def source : Segment → List UInt8
  | literal byte => [byte]
  | replaced needle => needle

/-- The bytes it puts into the output. -/
def render : Segment → List UInt8
  | literal byte => [byte]
  | replaced _ => proxyRedactionMarker

/-- The bytes of the stream that a list of segments covers. -/
def sources (segments : List Segment) : List UInt8 := segments.flatMap source

def IsLiteral : Segment → Prop
  | literal _ => True
  | replaced _ => False

end Segment

/-! ## The loop as a scanner -/

variable {needle pending remaining stream : List UInt8} {needles : List (List UInt8)}

lemma mem_orderedNeedles : needle ∈ orderedNeedles needles ↔ needle ∈ needles ∧ needle ≠ [] := by
  unfold orderedNeedles
  rw [mem_insertionSort, mem_filter]
  simp

/-- The needle the loop replaces at the front of `remaining`: the first of the ordered needles
that it starts with. -/
def firstMatch (needles : List (List UInt8)) (remaining : List UInt8) : Option (List UInt8) :=
  (orderedNeedles needles).find? fun needle => needle.isPrefixOf remaining

lemma firstMatch_eq_some (h : firstMatch needles remaining = some needle) :
    needle ∈ needles ∧ needle ≠ [] ∧ needle <+: remaining := by
  have hmem := mem_orderedNeedles.mp (mem_of_find?_eq_some h)
  have hprefix := List.find?_some h
  exact ⟨hmem.1, hmem.2, isPrefixOf_iff_prefix.mp hprefix⟩

/-- Where no needle is replaced, the input starts with none. -/
lemma firstMatch_eq_none (h : firstMatch needles remaining = none) (hmem : needle ∈ needles)
    (hne : needle ≠ []) : ¬ needle <+: remaining := by
  intro hprefix
  have hnot := List.find?_eq_none.mp h needle (mem_orderedNeedles.mpr ⟨hmem, hne⟩)
  exact hnot (List.isPrefixOf_iff_prefix.mpr hprefix)

/-- While no needle can grow beyond the input, what follows the input does not change which
needles it starts with. -/
lemma isPrefixOf_append_of_not_couldGrow {ordered : List (List UInt8)}
    (h : couldGrow ordered remaining = false) (hmem : needle ∈ ordered) (later : List UInt8) :
    needle.isPrefixOf (remaining ++ later) = needle.isPrefixOf remaining := by
  rw [Bool.eq_iff_iff, isPrefixOf_iff_prefix, isPrefixOf_iff_prefix]
  constructor
  · intro hlong
    rcases Nat.lt_or_ge remaining.length needle.length with hlt | hge
    · have hgrow : remaining <+: needle :=
        prefix_of_prefix_length_le (prefix_append remaining later) hlong hlt.le
      have hno := any_eq_false.mp h needle hmem
      simp [hlt, hgrow] at hno
    · exact prefix_of_prefix_length_le hlong (prefix_append remaining later) hge
  · intro hshort
    exact hshort.trans (prefix_append remaining later)

lemma firstMatch_append (h : couldGrow (orderedNeedles needles) remaining = false)
    (later : List UInt8) : firstMatch needles (remaining ++ later) = firstMatch needles remaining :=
  List.find?_congr fun _ hmem => isPrefixOf_append_of_not_couldGrow h hmem later

/-- The segment at the front of `remaining`. -/
def frontSegment (needles : List (List UInt8)) (remaining : List UInt8) : Segment :=
  match firstMatch needles remaining with
  | some needle => .replaced needle
  | none => .literal (remaining.headD 0)

lemma frontSegment_source (h : remaining ≠ []) :
    (frontSegment needles remaining).source ≠ [] ∧
      (frontSegment needles remaining).source <+: remaining := by
  unfold frontSegment
  split
  · rename_i needle hmatch
    obtain ⟨-, hne, hprefix⟩ := firstMatch_eq_some hmatch
    exact ⟨hne, hprefix⟩
  · obtain ⟨byte, later, rfl⟩ := exists_cons_of_ne_nil h
    exact ⟨by simp [Segment.source], later, rfl⟩

/-- The redaction loop, as a scanner. -/
def redactionScanner (needles : List (List UInt8)) : Lib.Scanner UInt8 Segment where
  token := frontSegment needles
  source := Segment.source
  wait := couldGrow (orderedNeedles needles)
  source_ne_nil _ h := (frontSegment_source h).1
  prefix_source _ h := (frontSegment_source h).2
  stable := by
    intro remaining later hne hwait
    obtain ⟨byte, rest, rfl⟩ := exists_cons_of_ne_nil hne
    unfold frontSegment
    rw [firstMatch_append hwait]
    rfl

/-- When the loop stops before the end of the input. -/
def stopsAt (needles : List (List UInt8)) (flush : Bool) (remaining : List UInt8) : Bool :=
  !flush && couldGrow (orderedNeedles needles) remaining

/-- The loop stops at the end of the input, and where it waits. -/
lemma redactLoop_stop {flush : Bool} {consumed : Nat}
    (h : pending.drop consumed = [] ∨
      stopsAt needles flush (pending.drop consumed) = true) (fuel : Nat) (output : List UInt8) :
    redactLoop (orderedNeedles needles) flush pending fuel consumed output
      = (output, consumed) := by
  cases fuel with
  | zero => rfl
  | succ fuel =>
    unfold redactLoop
    split
    · rfl
    · rename_i byte later hcons
      rw [hcons] at h
      have hstop := h.resolve_left (by simp)
      exact if_pos hstop

/-- One round of the loop takes the segment at the front. -/
lemma redactLoop_round {flush : Bool} {consumed : Nat} (hne : pending.drop consumed ≠ [])
    (hgo : stopsAt needles flush (pending.drop consumed) = false) (fuel : Nat)
    (output : List UInt8) :
    redactLoop (orderedNeedles needles) flush pending (fuel + 1) consumed output
      = redactLoop (orderedNeedles needles) flush pending fuel
          (consumed + (frontSegment needles (pending.drop consumed)).source.length)
          (output ++ (frontSegment needles (pending.drop consumed)).render) := by
  rw [redactLoop]
  split
  · rename_i hnil
    exact absurd hnil hne
  · rename_i byte later hcons
    rw [hcons] at hgo ⊢
    have hopen : ¬ (!flush && couldGrow (orderedNeedles needles) (byte :: later)) = true := by
      rw [← stopsAt, hgo]
      decide
    simp only [if_neg hopen, frontSegment, firstMatch]
    cases (orderedNeedles needles).find? fun needle => needle.isPrefixOf (byte :: later) with
    | none => rfl
    | some needle => rfl

/-- The loop, run with enough fuel, makes the scanner's segments. -/
lemma redactLoop_eq_scan (needles : List (List UInt8)) (flush : Bool) (pending : List UInt8)
    {fuel consumed : Nat} (output : List UInt8)
    (hfuel : (pending.drop consumed).length ≤ fuel) {segments : List Segment}
    {left : List UInt8}
    (hscan : (redactionScanner needles).scan (stopsAt needles flush) (pending.drop consumed)
      = (segments, left)) :
    redactLoop (orderedNeedles needles) flush pending fuel consumed output
      = (output ++ segments.flatMap Segment.render,
          consumed + (Segment.sources segments).length) := by
  induction fuel generalizing consumed output segments with
  | zero =>
    have hnil : pending.drop consumed = [] := length_eq_zero_iff.mp (by omega)
    rw [hnil, (redactionScanner needles).scan_stop (.inl rfl)] at hscan
    obtain ⟨rfl, -⟩ := Prod.mk.inj hscan
    rw [redactLoop_stop (.inl hnil)]
    simp [Segment.sources]
  | succ fuel ih =>
    by_cases hend : pending.drop consumed = [] ∨
        stopsAt needles flush (pending.drop consumed) = true
    · rw [(redactionScanner needles).scan_stop hend] at hscan
      obtain ⟨rfl, -⟩ := Prod.mk.inj hscan
      rw [redactLoop_stop hend]
      simp [Segment.sources]
    · obtain ⟨hne, hgo⟩ := not_or.mp hend
      have hgo' : stopsAt needles flush (pending.drop consumed) = false := by simpa using hgo
      have hrest : (redactionScanner needles).rest (pending.drop consumed)
          = pending.drop
              (consumed + (frontSegment needles (pending.drop consumed)).source.length) := by
        rw [← drop_drop]
        rfl
      have hshorter := (redactionScanner needles).length_rest_lt hne
      rw [(redactionScanner needles).scan_token hne hgo'] at hscan
      obtain ⟨rfl, hleft⟩ := Prod.mk.inj hscan
      rw [redactLoop_round hne hgo', ih _ (by rw [← hrest]; omega) (Prod.ext rfl (hrest ▸ hleft)),
        ← hrest]
      simp [Segment.sources, redactionScanner, Nat.add_assoc]

/-- Without needles every byte is copied. -/
lemma scan_no_needles (flush : Bool) (bytes : List UInt8) :
    (redactionScanner []).scan (stopsAt [] flush) bytes = (bytes.map Segment.literal, []) := by
  induction bytes with
  | nil => exact (redactionScanner []).scan_stop (.inl rfl)
  | cons byte later ih =>
    have hgo : stopsAt [] flush (byte :: later) = false := by
      cases flush with
      | false => rfl
      | true => rfl
    have hrest : (redactionScanner []).rest (byte :: later) = later := rfl
    rw [(redactionScanner []).scan_token (by simp) hgo, hrest, ih]
    rfl

lemma render_literals (bytes : List UInt8) :
    (bytes.map Segment.literal).flatMap Segment.render = bytes := by
  induction bytes with
  | nil => rfl
  | cons byte later ih => rw [map_cons, flatMap_cons, ih]; rfl

lemma sources_literals (bytes : List UInt8) :
    Segment.sources (bytes.map Segment.literal) = bytes := by
  induction bytes with
  | nil => rfl
  | cons byte later ih =>
    conv_rhs => rw [← ih]
    rfl

/-- A chunk's output and new tail, as the scanner's segments and what it leaves. -/
theorem redactProxyStreamChunk_eq_scan (h : needles ≠ [] ∨ pending = []) (bytes : List UInt8)
    (flush : Bool) :
    redactProxyStreamChunk pending needles bytes flush
      = (((redactionScanner needles).scan (stopsAt needles flush)
            (pending ++ bytes)).1.flatMap Segment.render,
          ((redactionScanner needles).scan (stopsAt needles flush) (pending ++ bytes)).2) := by
  by_cases hneedles : needles = []
  · obtain rfl : pending = [] := h.resolve_left (not_not_intro hneedles)
    subst hneedles
    rw [nil_append, scan_no_needles, render_literals]
    rfl
  · rcases hscan : (redactionScanner needles).scan (stopsAt needles flush) (pending ++ bytes)
      with ⟨segments, left⟩
    have hsource := (redactionScanner needles).scan_source (stopsAt needles flush)
      (pending ++ bytes)
    rw [hscan] at hsource
    have hloop := @redactLoop_eq_scan needles flush (pending ++ bytes) _ 0 [] (le_refl _)
      segments left hscan
    rw [drop_zero, nil_append, Nat.zero_add] at hloop
    have hleft : (pending ++ bytes).drop (Segment.sources segments).length = left := by
      rw [← hsource]
      exact List.drop_left
    simp only [redactProxyStreamChunk, List.isEmpty_iff, if_neg hneedles, hloop, hleft]

/-! ## Whole streams -/

lemma stopsAt_true (needles : List (List UInt8)) :
    stopsAt needles true = fun _ => false := rfl

lemma stopsAt_false (needles : List (List UInt8)) :
    stopsAt needles false = (redactionScanner needles).wait := rfl

/-- The segments of a stream, in the order in which the calls for its chunks make them. -/
def streamSegments (needles : List (List UInt8)) (pending : List UInt8)
    (chunks : List (List UInt8)) (last : List UInt8) : List Segment :=
  ((redactionScanner needles).feed pending chunks).1
    ++ (redactionScanner needles).scanAll
        (((redactionScanner needles).feed pending chunks).2 ++ last)

lemma streamSegments_eq_scanAll (needles : List (List UInt8)) (pending : List UInt8)
    (chunks : List (List UInt8)) (last : List UInt8) :
    streamSegments needles pending chunks last
      = (redactionScanner needles).scanAll (pending ++ chunks.flatten ++ last) :=
  ((redactionScanner needles).scanAll_feed pending chunks last).symm

/-- The output of a stream is that of its segments, and the flush leaves nothing pending. -/
theorem redactProxyStream_eq_segments {needles : List (List UInt8)} {pending : List UInt8}
    (h : needles ≠ [] ∨ pending = []) (chunks : List (List UInt8)) (last : List UInt8) :
    redactProxyStream needles pending chunks last
      = ((streamSegments needles pending chunks last).flatMap Segment.render, []) := by
  induction chunks generalizing pending with
  | nil =>
    rw [redactProxyStream, redactProxyStreamChunk_eq_scan h, stopsAt_true,
      (redactionScanner needles).scan_all_left]
    rfl
  | cons chunk chunks ih =>
    rw [redactProxyStream, redactProxyStreamChunk_eq_scan h, stopsAt_false]
    have hpending : needles ≠ [] ∨
        ((redactionScanner needles).scan (redactionScanner needles).wait
          (pending ++ chunk)).2 = [] := by
      by_cases hneedles : needles = []
      · refine .inr ?_
        rw [hneedles, ← stopsAt_false, scan_no_needles]
      · exact .inl hneedles
    simp only [ih hpending, streamSegments, (redactionScanner needles).feed_cons,
      flatMap_append, append_assoc]

/-- **Chunk independence.** However a stream is cut into chunks, the concatenated output is
that of the whole stream in one flushed call, and nothing stays pending. -/
theorem redactProxyStream_chunk_independent (needles chunks : List (List UInt8))
    (last : List UInt8) :
    redactProxyStream needles [] chunks last
      = redactProxyStreamChunk [] needles (chunks.flatten ++ last) true := by
  have hone := @redactProxyStream_eq_segments needles [] (.inr rfl) []
    (chunks.flatten ++ last)
  rw [redactProxyStream_eq_segments (.inr rfl), streamSegments_eq_scanAll]
  rw [redactProxyStream, streamSegments_eq_scanAll] at hone
  rw [hone]
  simp

example : redactProxyStream [[1], [1, 2]] [] [[3, 1], [], [2]] [1]
    = ([3] ++ proxyRedactionMarker ++ proxyRedactionMarker, []) := by decide

/-! ## Secrecy -/

lemma replaced_mem_scanAll
    (h : Segment.replaced needle ∈ (redactionScanner needles).scanAll stream) :
    needle ∈ needles ∧ needle ≠ [] := by
  induction stream using (redactionScanner needles).scan_induction with
  | nil => simp at h
  | token r hr ih =>
    rw [(redactionScanner needles).scanAll_token hr, mem_cons] at h
    rcases h with hfront | hlater
    · cases hmatch : firstMatch needles r with
      | none => simp [redactionScanner, frontSegment, hmatch] at hfront
      | some found =>
        obtain rfl : needle = found := by
          simpa [redactionScanner, frontSegment, hmatch] using hfront
        exact ⟨(firstMatch_eq_some hmatch).1, (firstMatch_eq_some hmatch).2.1⟩
    · exact ih hlater

/-- Every occurrence of a secret overlaps a replaced span. -/
theorem secret_overlaps_replaced {secret : List UInt8} (hmem : secret ∈ needles)
    (hne : secret ≠ []) (stream before after : List UInt8)
    (hstream : stream = before ++ secret ++ after) :
    ∃ pre needle post,
      (redactionScanner needles).scanAll stream = pre ++ .replaced needle :: post ∧
        (Segment.sources pre).length < before.length + secret.length ∧
        before.length < (Segment.sources pre).length + needle.length := by
  have hpos := length_pos_of_ne_nil hne
  induction stream using (redactionScanner needles).scan_induction generalizing before with
  | nil => simp [hne] at hstream
  | token r hr ih =>
    have hsplit := (redactionScanner needles).source_append_rest hr
    rw [(redactionScanner needles).scanAll_token hr]
    -- the front segment either reaches into the occurrence or ends before it
    by_cases hreach : before.length < ((redactionScanner needles).token r).source.length
    · cases hmatch : firstMatch needles r with
      | some needle =>
        have htoken : (redactionScanner needles).token r = .replaced needle := by
          simp [redactionScanner, frontSegment, hmatch]
        rw [htoken] at hreach ⊢
        refine ⟨[], needle, _, rfl, ?_, ?_⟩
        · simp only [Segment.sources, flatMap_nil, length_nil]
          omega
        · simpa [Segment.sources, Segment.source] using hreach
      | none =>
        have hwidth : ((redactionScanner needles).token r).source.length = 1 := by
          simp [redactionScanner, frontSegment, hmatch, Segment.source]
        have hbefore : before = [] := length_eq_zero_iff.mp (by omega)
        rw [hbefore, nil_append] at hstream
        exact absurd ⟨after, hstream.symm⟩ (firstMatch_eq_none hmatch hmem hne)
    · obtain ⟨before', hbefore⟩ : ((redactionScanner needles).token r).source <+: before := by
        refine @List.prefix_of_prefix_length_le _ _ _ r ?_ ?_ ?_
        · exact (redactionScanner needles).prefix_source r hr
        · rw [hstream, append_assoc]
          exact prefix_append _ _
        · omega
      have hrest : (redactionScanner needles).rest r = before' ++ secret ++ after := by
        apply (append_right_inj ((redactionScanner needles).token r).source).mp
        rw [← append_assoc, ← append_assoc, hbefore, ← hstream]
        exact hsplit
      obtain ⟨pre, needle, post, hsegments, hstart, hend⟩ := ih before' hrest
      have hlen := congrArg List.length hbefore
      rw [length_append] at hlen
      refine ⟨(redactionScanner needles).token r :: pre, needle, post, ?_, ?_, ?_⟩
      · rw [hsegments, cons_append]
      · simp only [Segment.sources, flatMap_cons, length_append] at hstart ⊢
        omega
      · simp only [Segment.sources, flatMap_cons, length_append] at hend ⊢
        omega

lemma sources_append (xs ys : List Segment) :
    Segment.sources (xs ++ ys) = Segment.sources xs ++ Segment.sources ys :=
  flatMap_append

/-- A run of literals is copied as it is, a byte a segment. -/
lemma eq_map_literal {run : List Segment} (h : ∀ segment ∈ run, segment.IsLiteral) :
    run = (Segment.sources run).map Segment.literal := by
  induction run with
  | nil => rfl
  | cons segment run ih =>
    have hrun := ih fun s hs => h s (mem_cons_of_mem _ hs)
    cases segment with
    | literal byte =>
      conv_lhs => rw [hrun]
      rfl
    | replaced needle => exact (h _ mem_cons_self).elim

/-- The segments from some point on are those of the stream from there on. -/
lemma scanAll_suffix {pre post : List Segment}
    (h : (redactionScanner needles).scanAll stream = pre ++ post) :
    (redactionScanner needles).scanAll (Segment.sources post) = post := by
  induction stream using (redactionScanner needles).scan_induction generalizing pre with
  | nil =>
    rw [(redactionScanner needles).scanAll_nil] at h
    obtain ⟨-, rfl⟩ := append_eq_nil_iff.mp h.symm
    simp [Segment.sources]
  | token r hr ih =>
    cases pre with
    | nil =>
      have hsource := (redactionScanner needles).scanAll_source r
      rw [h, nil_append] at hsource
      rw [Segment.sources]
      exact (congrArg _ hsource).trans h
    | cons segment pre =>
      rw [(redactionScanner needles).scanAll_token hr, cons_append] at h
      exact ih (List.cons.inj h).2

/-- No run of bytes copied literally contains a secret. -/
theorem literal_run_hides_secret {secret : List UInt8} (hmem : secret ∈ needles)
    (hne : secret ≠ []) {pre run post : List Segment}
    (hsegments : (redactionScanner needles).scanAll stream = pre ++ run ++ post)
    (hliteral : ∀ segment ∈ run, segment.IsLiteral) : ¬ secret <:+: run.flatMap Segment.render := by
  rintro ⟨a, b, hinfix⟩
  have hrun := eq_map_literal hliteral
  rw [hrun, render_literals] at hinfix
  -- from the start of the secret on, the segments are those of an input that begins with it
  have hsuffix : (redactionScanner needles).scanAll stream
      = (pre ++ a.map Segment.literal) ++ ((secret ++ b).map Segment.literal ++ post) := by
    rw [hsegments, hrun, ← hinfix]
    simp
  have hscan := scanAll_suffix hsuffix
  rw [sources_append, sources_literals, append_assoc] at hscan
  have hr : secret ++ (b ++ Segment.sources post) ≠ [] := by simp [hne]
  have hfront : (redactionScanner needles).token (secret ++ (b ++ Segment.sources post))
      = .literal (secret.head hne) := by
    obtain ⟨byte, later, rfl⟩ := exists_cons_of_ne_nil hne
    rw [(redactionScanner needles).scanAll_token hr] at hscan
    exact (List.cons.inj hscan).1
  cases hmatch : firstMatch needles (secret ++ (b ++ Segment.sources post)) with
  | none => exact firstMatch_eq_none hmatch hmem hne (prefix_append _ _)
  | some needle => simp [redactionScanner, frontSegment, hmatch] at hfront

/-- **Secrecy.** The output of a stream, however it is chunked, is made of segments that cover
the stream in order: literal bytes, copied unchanged, and replaced secrets, shown as the
marker. Every occurrence of a secret overlaps a replaced one, no run of literals contains a
secret, and nothing is left behind after the flush. -/
theorem redactProxyStream_hides_secrets (needles chunks : List (List UInt8))
    (last : List UInt8) :
    redactProxyStream needles [] chunks last
        = ((streamSegments needles [] chunks last).flatMap Segment.render, []) ∧
      Segment.sources (streamSegments needles [] chunks last) = chunks.flatten ++ last ∧
      (∀ needle, .replaced needle ∈ streamSegments needles [] chunks last →
        needle ∈ needles ∧ needle ≠ []) ∧
      ∀ secret ∈ needles, secret ≠ [] →
        (∀ before after, chunks.flatten ++ last = before ++ secret ++ after →
          ∃ pre needle post,
            streamSegments needles [] chunks last = pre ++ .replaced needle :: post ∧
              (Segment.sources pre).length < before.length + secret.length ∧
              before.length < (Segment.sources pre).length + needle.length) ∧
        ∀ pre run post, streamSegments needles [] chunks last = pre ++ run ++ post →
          (∀ segment ∈ run, segment.IsLiteral) →
          ¬ secret <:+: run.flatMap Segment.render := by
  refine ⟨redactProxyStream_eq_segments (.inr rfl) chunks last, ?_⟩
  rw [streamSegments_eq_scanAll, nil_append]
  refine ⟨(redactionScanner needles).scanAll_source _, fun needle => replaced_mem_scanAll, ?_⟩
  intro secret hmem hne
  exact ⟨fun before after => secret_overlaps_replaced hmem hne _ before after,
    fun pre run post => literal_run_hides_secret hmem hne⟩

end Agenterm
