import Agenterm.Control.Contract

/-!
# Requests and responses

The IPC messages of `protocol.rs`, and the JSON coding of a response. The coding is that of
the `serde_json` package: it is a parameter (`ResponseCodec`), and what is assumed of it is
stated where it is used (`ResponseCodec.ReadsOwn`).
-/

namespace Agenterm

structure IpcRequest where
  args : List String
  control : Option ControlRequest
deriving DecidableEq

structure IpcResponse where
  ok : Bool
  output : String
  error : String
  errorCode : String
  errorCategory : String
  retryable : Bool
  receipt : Option ControlReceipt

namespace IpcResponse

def success (output : String) : IpcResponse :=
  { ok := true, output, error := "", errorCode := "", errorCategory := "", retryable := false,
    receipt := none }

def typedFailure (error code category : String) (retryable : Bool) : IpcResponse :=
  { ok := false, output := "", error, errorCode := code, errorCategory := category, retryable,
    receipt := none }

def failure (error : String) : IpcResponse :=
  typedFailure error "ipc.command_failed" "command" false

def withReceipt (response : IpcResponse) (receipt : ControlReceipt) : IpcResponse :=
  { response with receipt := some receipt }

end IpcResponse

/-- `serde_json::to_string` and `serde_json::from_str` at `IpcResponse`, with their error
texts. -/
structure ResponseCodec where
  encode : IpcResponse → Except String String
  decode : String → Except String IpcResponse

/-- Text the package writes for a response is text it reads as a response. -/
def ResponseCodec.ReadsOwn (codec : ResponseCodec) : Prop :=
  ∀ response text, codec.encode response = .ok text → ∃ read, codec.decode text = .ok read

end Agenterm
