import Agenterm.Lib.Occurrences
import Agenterm.Terminal.Tab

/-!
# The confirmation of a proxy in the output

A tab that waits for a marker looks at each chunk of output behind the end of the chunks before it.
What was observed is one stream: the marker is reported where it stands somewhere in it, wherever the
chunks were cut.
-/

namespace Agenterm.TerminalTab

open Lib List

variable {marker stream : List UInt8} {tab : TerminalTab}

lemma containsMarker_iff {bytes : List UInt8} :
    containsMarker marker bytes = true ↔ ∃ i, OccursAt marker i bytes := by
  unfold containsMarker
  rw [← infix_iff_occursAt, any_eq_true]
  constructor
  · intro ⟨tail, htail, hfront⟩
    rw [List.isPrefixOf_iff_prefix] at hfront
    exact hfront.isInfix.trans ((mem_tails _ _).mp htail).isInfix
  · intro ⟨front, back, h⟩
    refine ⟨marker ++ back, ?_, ?_⟩
    · rw [mem_tails, ← h, append_assoc]
      exact suffix_append _ _
    · rw [List.isPrefixOf_iff_prefix]
      exact prefix_append _ _

/-- The tab before the marker: it keeps the end of the stream it has observed. -/
def waitingFor (start : TerminalTab) (marker : List UInt8) (deadline : Nat) (stream : List UInt8) :
    TerminalTab :=
  { start with
    pendingProxyConfirmation :=
      some { marker, deadline, tail := lastOf (marker.length - 1) stream } }

/-- The tab after the marker: the wait is over and the proxy has been told. -/
def confirmed (start : TerminalTab) : TerminalTab :=
  { start with pendingProxyConfirmation := none, proxy := start.proxy.markApplied.2 }

/-- Where a wait stands after it has observed the stream. -/
inductive Waits (start : TerminalTab) (marker : List UInt8) (deadline : Nat)
    (stream : List UInt8) : TerminalTab → Prop
  | waiting (hnone : ∀ i, ¬OccursAt marker i stream) :
    Waits start marker deadline stream (start.waitingFor marker deadline stream)
  | reported (i : Nat) (hmarker : OccursAt marker i stream) :
    Waits start marker deadline stream start.confirmed

/-- One chunk. -/
lemma Waits.observe {start : TerminalTab} {deadline : Nat} (hmarker : marker ≠ [])
    (h : Waits start marker deadline stream tab) (bytes : List UInt8) :
    Waits start marker deadline (stream ++ bytes) (tab.observeProxyConfirmation bytes) := by
  cases h with
  | reported i hfound => exact .reported i (hfound.append bytes)
  | waiting hnone =>
    have hoverlap := fun i => @occursAt_overlap UInt8 marker stream bytes hmarker hnone i
    unfold observeProxyConfirmation
    simp only [waitingFor]
    split
    next hcontains =>
      obtain ⟨j, hj⟩ := containsMarker_iff.mp hcontains
      exact .reported _ ((hoverlap _).mpr ⟨j, rfl, hj⟩)
    next hcontains =>
      -- The end that is kept is the end of the whole stream.
      have hkept : lastOf (marker.length - 1) (lastOf (marker.length - 1) stream ++ bytes) =
          lastOf (marker.length - 1) (stream ++ bytes) := lastOf_lastOf_append (Nat.le_refl _) _ _
      have hwaiting : Waits start marker deadline (stream ++ bytes)
          (start.waitingFor marker deadline (stream ++ bytes)) := by
        apply Waits.waiting
        intro i hi
        obtain ⟨j, -, hj⟩ := (hoverlap i).mp hi
        exact hcontains (containsMarker_iff.mpr ⟨j, hj⟩)
      rw [waitingFor, ← hkept] at hwaiting
      exact hwaiting

/-- Any number of chunks. -/
lemma Waits.observeAll {start : TerminalTab} {deadline : Nat} (hmarker : marker ≠ [])
    (h : Waits start marker deadline stream tab) (chunks : List (List UInt8)) :
    Waits start marker deadline (stream ++ chunks.flatten)
      (chunks.foldl observeProxyConfirmation tab) := by
  induction chunks generalizing stream tab with
  | nil => rwa [flatten_nil, append_nil]
  | cons bytes chunks ih =>
    rw [flatten_cons, ← append_assoc]
    exact ih (h.observe hmarker bytes)

/-- A wait that starts has observed nothing. -/
lemma waits_begin (start : TerminalTab) (now : Nat) (hmarker : marker ≠ []) :
    Waits start marker (now + proxyConfirmationTimeoutMs) []
      (start.beginProxyConfirmation marker now) := by
  have hwaiting : Waits start marker (now + proxyConfirmationTimeoutMs) []
      (start.waitingFor marker (now + proxyConfirmationTimeoutMs) []) := by
    apply Waits.waiting
    intro i hi
    have hle := hi.length_le
    have hpos := length_pos_iff.mpr hmarker
    rw [length_nil] at hle
    omega
  rw [waitingFor, show lastOf (marker.length - 1) ([] : List UInt8) = [] from drop_nil]
    at hwaiting
  exact hwaiting

/-- The marker has been reported after the last chunk where it stands in what was observed. -/
theorem proxy_confirmation_chunks (start : TerminalTab) (now : Nat) (hmarker : marker ≠ [])
    (chunks : List (List UInt8)) :
    let after := chunks.foldl observeProxyConfirmation (start.beginProxyConfirmation marker now)
    (after.pendingProxyConfirmation = none ↔ marker <:+: chunks.flatten) ∧
      after.proxy = if marker <:+: chunks.flatten then start.proxy.markApplied.2
        else start.proxy := by
  intro after
  have hafter : Waits start marker (now + proxyConfirmationTimeoutMs) chunks.flatten after := by
    have hall := (waits_begin start now hmarker).observeAll hmarker chunks
    rwa [nil_append] at hall
  generalize after = tab at hafter
  cases hafter with
  | waiting hnone =>
    have hnot : ¬marker <:+: chunks.flatten := by
      rw [infix_iff_occursAt]
      exact not_exists.mpr hnone
    rw [if_neg hnot]
    exact ⟨iff_of_false (Option.some_ne_none _) hnot, rfl⟩
  | reported i hfound =>
    have hinfix : marker <:+: chunks.flatten := infix_iff_occursAt.mpr ⟨i, hfound⟩
    rw [if_pos hinfix]
    exact ⟨iff_of_true rfl hinfix, rfl⟩

/-- A tab whose proxy was sent to the shell. -/
def submittedTab : TerminalTab :=
  spawn 1 0 none none [] (24, 80)
    { program := "sh"
      commandName := "sh"
      processId := none
      shellKind := .bash
      cwd := { path := none, confirmedPath := none, source := .unknown, pending := false }
      proxy := { http := some "proxy:80", https := none, source := .launch,
                 applicationState := .submitted }
      proxyRedactionNeedles := []
      screen :=
        { title := "", rows := 24, columns := 80, cells := [], alternateScreen := false,
          applicationCursor := false, bracketedPaste := false, mouseProtocolMode := .none,
          mouseProtocolEncoding := .default, scrollback := 0, maxScrollback := 0, cursorRow := 0,
          cursorColumn := 0, hideCursor := false } }

/-- A marker of three bytes that the second chunk completes. -/
theorem proxy_confirmation_split :
    let after := [[7, 1, 2], [3, 9]].foldl observeProxyConfirmation
      (submittedTab.beginProxyConfirmation [1, 2, 3] 0)
    after.pendingProxyConfirmation = none ∧ after.proxy.applicationState = .applied := by
  have h := @proxy_confirmation_chunks [1, 2, 3] submittedTab 0 (by decide) [[7, 1, 2], [3, 9]]
  have hinfix : ([1, 2, 3] : List UInt8) <:+: [[7, 1, 2], [3, 9]].flatten := ⟨[7], [9], rfl⟩
  rw [if_pos hinfix] at h
  exact ⟨h.1.mpr hinfix, congrArg ProxyState.applicationState h.2⟩

end Agenterm.TerminalTab
