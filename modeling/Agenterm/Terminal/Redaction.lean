import Mathlib.Data.List.Sort

/-!
# Redaction of proxy secrets

`redact_proxy_stream_chunk` of `terminal_runtime.rs`: terminal output is searched for the proxy
secrets in use, each of them is replaced by a fixed marker, and a tail that could still grow
into a secret is held back in `pending` until the next chunk, or until the stream is flushed.
-/

namespace Agenterm

/-- `PROXY_REDACTION_MARKER`, the bytes of `<redacted-proxy>`. -/
def proxyRedactionMarker : List UInt8 :=
  [60, 114, 101, 100, 97, 99, 116, 101, 100, 45, 112, 114, 111, 120, 121, 62]

/-- The non-empty needles, longest first; the sort is stable. -/
def orderedNeedles (needles : List (List UInt8)) : List (List UInt8) :=
  (needles.filter fun needle => !needle.isEmpty).insertionSort fun a b => b.length ≤ a.length

/-- The break condition of the loop: some needle goes on where the input ends. -/
def couldGrow (ordered : List (List UInt8)) (remaining : List UInt8) : Bool :=
  ordered.any fun needle => needle.length > remaining.length && remaining.isPrefixOf needle

/-- The `while` loop over `consumed`: the output so far and the count of consumed bytes when
it stops. One round consumes at least a byte, so `pending.length` rounds are enough. -/
def redactLoop (ordered : List (List UInt8)) (flush : Bool) (pending : List UInt8) :
    Nat → Nat → List UInt8 → List UInt8 × Nat
  | 0, consumed, output => (output, consumed)
  | fuel + 1, consumed, output =>
    match pending.drop consumed with
    | [] => (output, consumed)
    | byte :: later =>
      let remaining := byte :: later
      if !flush && couldGrow ordered remaining then
        (output, consumed)
      else
        match ordered.find? fun needle => needle.isPrefixOf remaining with
        | some needle =>
          redactLoop ordered flush pending fuel (consumed + needle.length)
            (output ++ proxyRedactionMarker)
        | none => redactLoop ordered flush pending fuel (consumed + 1) (output ++ [byte])

/-- One chunk of terminal output: the redacted output, and the new `pending`. -/
def redactProxyStreamChunk (pending : List UInt8) (needles : List (List UInt8))
    (bytes : List UInt8) (flush : Bool) : List UInt8 × List UInt8 :=
  if needles.isEmpty then
    (bytes, pending)
  else
    let pending := pending ++ bytes
    let (output, consumed) :=
      redactLoop (orderedNeedles needles) flush pending pending.length 0 []
    (output, pending.drop consumed)

/-- The calls made for a stream: every chunk unflushed with the tail carried over, and the
last one flushed. -/
def redactProxyStream (needles : List (List UInt8)) (pending : List UInt8) :
    List (List UInt8) → List UInt8 → List UInt8 × List UInt8
  | [], last => redactProxyStreamChunk pending needles last true
  | chunk :: chunks, last =>
    let (output, pending) := redactProxyStreamChunk pending needles chunk false
    let (later, pending) := redactProxyStream needles pending chunks last
    (output ++ later, pending)

end Agenterm
