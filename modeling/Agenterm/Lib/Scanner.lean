import Mathlib.Data.List.Basic

/-!
# Streaming scanners

A scanner reads a list from the front, one token at a time. When the list arrives in chunks,
the scanner may have to wait: the token at the front of what it has could still change when
more arrives. The law `stable` says that it waits often enough, and then the chunking cannot
be observed: `scanAll_feed` says that the tokens taken chunk by chunk, followed by those of
the flushed rest, are the tokens of the whole input.
-/

namespace Agenterm.Lib

open List

/-- A scanner over `α` with tokens `τ`: the token at the front of a non-empty list is a
non-empty front part of it, and does not depend on what follows once `wait` is false. -/
structure Scanner (α τ : Type) where
  token : List α → τ
  source : τ → List α
  wait : List α → Bool
  source_ne_nil : ∀ r, r ≠ [] → source (token r) ≠ []
  prefix_source : ∀ r, r ≠ [] → source (token r) <+: r
  stable : ∀ r t, r ≠ [] → wait r = false → token (r ++ t) = token r

namespace Scanner

section
variable {α τ : Type} (S : Scanner α τ)

/-- What is left of the input after its first token. -/
def rest (r : List α) : List α := r.drop (S.source (S.token r)).length

lemma source_append_rest {r : List α} (hr : r ≠ []) : S.source (S.token r) ++ S.rest r = r :=
  prefix_iff_eq_append.mp (S.prefix_source r hr)

lemma length_rest_lt {r : List α} (hr : r ≠ []) : (S.rest r).length < r.length := by
  have hlen := congrArg List.length (S.source_append_rest hr)
  have hpos := length_pos_of_ne_nil (S.source_ne_nil r hr)
  rw [length_append] at hlen
  omega

/-- The tokens of the input up to the first place where `stop` holds, and the input from
there on. -/
def scan (stop : List α → Bool) (r : List α) : List τ × List α :=
  if h : r = [] ∨ stop r = true then
    ([], r)
  else
    have : (S.rest r).length < r.length := S.length_rest_lt (not_or.mp h).1
    let (tokens, left) := scan stop (S.rest r)
    (S.token r :: tokens, left)
termination_by r.length

/-- The tokens of an input that is known to be complete. -/
def scanAll (r : List α) : List τ := (S.scan (fun _ => false) r).1

lemma scan_stop {stop : List α → Bool} {r : List α} (h : r = [] ∨ stop r = true) :
    S.scan stop r = ([], r) := by
  rw [scan, dif_pos h]

lemma scan_token {stop : List α → Bool} {r : List α} (hr : r ≠ []) (h : stop r = false) :
    S.scan stop r
      = (S.token r :: (S.scan stop (S.rest r)).1, (S.scan stop (S.rest r)).2) := by
  rw [scan, dif_neg (by simp [hr, h])]

@[simp] lemma scanAll_nil : S.scanAll [] = [] := by
  rw [scanAll, S.scan_stop (.inl rfl)]

lemma scanAll_token {r : List α} (hr : r ≠ []) :
    S.scanAll r = S.token r :: S.scanAll (S.rest r) := by
  rw [scanAll, S.scan_token hr rfl]
  rfl

/-- Induction along a scan: over the tokens, with the input that is left as the smaller
case. -/
theorem scan_induction {P : List α → Prop} (nil : P [])
    (token : ∀ r, r ≠ [] → P (S.rest r) → P r) (r : List α) : P r := by
  induction hn : r.length using Nat.strongRecOn generalizing r with
  | _ n ih =>
    by_cases hr : r = []
    · rw [hr]
      exact nil
    · exact token r hr (ih _ (hn ▸ S.length_rest_lt hr) _ rfl)

/-- Nothing is lost: the sources of the tokens, followed by what is left, are the input. -/
theorem scan_source (stop : List α → Bool) (r : List α) :
    (S.scan stop r).1.flatMap S.source ++ (S.scan stop r).2 = r := by
  induction r using S.scan_induction with
  | nil => rw [S.scan_stop (.inl rfl)]; rfl
  | token r hr ih =>
    by_cases hstop : stop r = true
    · rw [S.scan_stop (.inr hstop)]
      rfl
    · rw [S.scan_token hr (by simpa using hstop), flatMap_cons, append_assoc, ih,
        S.source_append_rest hr]

/-- Where a scan ends. -/
lemma scan_left (stop : List α → Bool) (r : List α) :
    (S.scan stop r).2 = [] ∨ stop (S.scan stop r).2 = true := by
  induction r using S.scan_induction with
  | nil => rw [S.scan_stop (.inl rfl)]; exact .inl rfl
  | token r hr ih =>
    by_cases hstop : stop r = true
    · rw [S.scan_stop (.inr hstop)]
      exact .inr hstop
    · rw [S.scan_token hr (by simpa using hstop)]
      exact ih

/-- The tokens of a scan are those before its end. -/
lemma mem_scan {stop : List α → Bool} {r : List α} {x : τ} (h : x ∈ (S.scan stop r).1) :
    ∃ r', r' ≠ [] ∧ stop r' = false ∧ x = S.token r' := by
  induction r using S.scan_induction with
  | nil =>
    rw [S.scan_stop (.inl rfl)] at h
    cases h
  | token r hr ih =>
    by_cases hstop : stop r = true
    · rw [S.scan_stop (.inr hstop)] at h
      cases h
    · have hgoes : stop r = false := by simpa using hstop
      rw [S.scan_token hr hgoes, mem_cons] at h
      rcases h with hhead | htail
      · exact ⟨r, hr, hgoes, hhead⟩
      · exact ih htail

/-- A scan up to some place does not change the tokens. -/
lemma scanAll_scan (stop : List α → Bool) (r : List α) :
    S.scanAll r = (S.scan stop r).1 ++ S.scanAll (S.scan stop r).2 := by
  induction r using S.scan_induction with
  | nil => rw [S.scan_stop (.inl rfl)]; rfl
  | token r hr ih =>
    by_cases hstop : stop r = true
    · rw [S.scan_stop (.inr hstop)]
      rfl
    · rw [S.scan_token hr (by simpa using hstop), S.scanAll_token hr, ih, cons_append]

/-- A token that is read off its source, whatever comes after it. -/
def Settled (x : τ) : Prop := S.source x ≠ [] ∧ ∀ t, S.token (S.source x ++ t) = x

lemma rest_settled {x : τ} (h : S.Settled x) (t : List α) : S.rest (S.source x ++ t) = t := by
  rw [rest, h.2, drop_left]

/-- Settled tokens are read off their sources. -/
lemma scan_settled {stop : List α → Bool} {xs : List τ}
    (h : ∀ x ∈ xs, S.Settled x ∧ ∀ t, stop (S.source x ++ t) = false) (t : List α) :
    S.scan stop (xs.flatMap S.source ++ t) =
      (xs ++ (S.scan stop t).1, (S.scan stop t).2) := by
  induction xs with
  | nil => rfl
  | cons x xs ih =>
    obtain ⟨hsettled, hgoes⟩ := h x mem_cons_self
    have hne : S.source x ++ (xs.flatMap S.source ++ t) ≠ [] := by simp [hsettled.1]
    rw [flatMap_cons, append_assoc, S.scan_token hne (hgoes _), S.rest_settled hsettled,
      hsettled.2, ih fun y hy => h y (mem_cons_of_mem _ hy)]
    rfl

lemma scanAll_settled {xs : List τ} (h : ∀ x ∈ xs, S.Settled x) (t : List α) :
    S.scanAll (xs.flatMap S.source ++ t) = xs ++ S.scanAll t := by
  rw [scanAll, S.scan_settled (fun x hx => ⟨h x hx, fun _ => rfl⟩) t]
  rfl

/-- A complete scan leaves nothing. -/
theorem scan_all_left (r : List α) : (S.scan (fun _ => false) r).2 = [] := by
  induction r using S.scan_induction with
  | nil => rw [S.scan_stop (.inl rfl)]
  | token r hr ih => rw [S.scan_token hr rfl, ih]

theorem scanAll_source (r : List α) : (S.scanAll r).flatMap S.source = r := by
  have h := S.scan_source (fun _ => false) r
  rw [S.scan_all_left, append_nil] at h
  exact h

lemma rest_append {r : List α} (hr : r ≠ []) (hwait : S.wait r = false) (t : List α) :
    S.rest (r ++ t) = S.rest r ++ t := by
  rw [rest, S.stable r t hr hwait, drop_append_of_le_length, ← rest]
  exact (S.prefix_source r hr).length_le

/-- Scanning as far as possible and carrying the rest over does not change the tokens. -/
theorem scanAll_append (r t : List α) :
    S.scanAll (r ++ t) = (S.scan S.wait r).1 ++ S.scanAll ((S.scan S.wait r).2 ++ t) := by
  induction r using S.scan_induction with
  | nil => rw [S.scan_stop (.inl rfl)]; rfl
  | token r hr ih =>
    by_cases hwait : S.wait r = true
    · rw [S.scan_stop (.inr hwait)]
      rfl
    · have hwait' : S.wait r = false := by simpa using hwait
      have hne : r ++ t ≠ [] := by simp [hr]
      rw [S.scan_token hr hwait', S.scanAll_token hne, S.stable r t hr hwait',
        S.rest_append hr hwait', ih, cons_append]

/-! ## Chunks -/

/-- Scans chunk after chunk, carrying over what the scanner waits on. -/
def feed (pending : List α) : List (List α) → List τ × List α
  | [] => ([], pending)
  | chunk :: chunks =>
    let (tokens, left) := S.scan S.wait (pending ++ chunk)
    let (more, left) := feed left chunks
    (tokens ++ more, left)

lemma feed_cons (pending chunk : List α) (chunks : List (List α)) :
    S.feed pending (chunk :: chunks)
      = ((S.scan S.wait (pending ++ chunk)).1
            ++ (S.feed (S.scan S.wait (pending ++ chunk)).2 chunks).1,
          (S.feed (S.scan S.wait (pending ++ chunk)).2 chunks).2) := rfl

/-- **Chunk independence.** -/
theorem scanAll_feed (pending : List α) (chunks : List (List α)) (t : List α) :
    S.scanAll (pending ++ chunks.flatten ++ t)
      = (S.feed pending chunks).1 ++ S.scanAll ((S.feed pending chunks).2 ++ t) := by
  induction chunks generalizing pending with
  | nil => simp [feed]
  | cons chunk chunks ih =>
    have hcat : pending ++ (chunk :: chunks).flatten ++ t
        = (pending ++ chunk) ++ (chunks.flatten ++ t) := by simp
    rw [hcat, S.scanAll_append, ← append_assoc, ih, feed_cons, append_assoc]

end

end Scanner

end Agenterm.Lib
