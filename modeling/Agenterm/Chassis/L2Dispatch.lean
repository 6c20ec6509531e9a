import Agenterm.Common
import Agenterm.Lib.Checks
import Mathlib.Algebra.Order.Field.Rat

/-!
# Dispatch of capability names

`l2_dispatch.rs`: a dispatcher is built from a Host ABI document and the capabilities an app
declares. A call is resolved, its parameters are checked against the signature of its capability,
and the host is called. The model starts from the document as it was deserialized; the length of
the text of a result is an argument, as is the host.
-/

namespace Agenterm.Chassis

/-! ## JSON arguments -/

/-- `serde_json::Number`. A float is the number it stands for. -/
inductive JsonNumber where
  | posInt (n : UInt64)
  | negInt (n : Int64)
  | float (x : ℚ)

inductive Json where
  | null
  | bool (b : Bool)
  | number (n : JsonNumber)
  | string (text : String)
  | array (items : List Json)
  | object (fields : List (String × Json))

namespace Json

def asStr : Json → Option String
  | string text => some text
  | _ => none

def asI64 : Json → Option Int
  | number (.posInt n) => if n.toNat < 2 ^ 63 then some n.toNat else none
  | number (.negInt n) => some n.toInt
  | _ => none

def isNumber : Json → Bool
  | number _ => true
  | _ => false

end Json

/-! ## The document -/

structure NumericBound where
  minimum : Int64
  maximum : Int64
deriving DecidableEq

/-- A `BTreeMap` by name, in the order of the names. -/
abbrev Entries (α : Type) := List (String × α)

structure PropertyContract where
  kind : String
  bound : Option String := none
  minimum : Option Int64 := none
  maximum : Option Int64 := none
  minimumUtf8Bytes : Option UInt64 := none
  maximumUtf8Bytes : Option UInt64 := none

structure ParameterObject where
  kind : String
  required : List String := []
  additionalProperties : Bool
  properties : Entries PropertyContract := []

/-- The parameters of a signature. -/
structure Signature where
  parameters : ParameterObject

structure CapabilityContract where
  id : String
  facade : Option String := none
  hostAbi : Nat
  signature : String

structure HostAbiDocument where
  schema : Nat
  version : Nat
  maximumResultBytes : Nat
  bounds : Entries NumericBound
  signatures : Entries Signature
  capabilities : List CapabilityContract

def hostAbiSchema : Nat := 2
def hostAbiVersion : Nat := 3
def maxCapabilityNameBytes : Nat := 128

inductive DispatchError where
  | invalidAbi (reason : String)
  | unknownCapability (name : String)
  | undeclaredCapability (name : String)
  | invalidParameters (reason : String)
  | resultTooLarge (actual max : Nat)
  | host (reason : String)
  /-- An `expect` that does not hold. -/
  | panicked (expectation : String)
deriving DecidableEq

open DispatchError

/-! ## Building a dispatcher -/

def validateDocument (abi : HostAbiDocument) : Except DispatchError Unit :=
  if abi.schema ≠ hostAbiSchema || abi.version ≠ hostAbiVersion then
    .error (invalidAbi s!"unsupported schema {abi.schema} / Host ABI {abi.version}; expected {hostAbiSchema} / {hostAbiVersion}")
  else if abi.maximumResultBytes = 0 then
    .error (invalidAbi "response maximum_utf8_bytes must be positive")
  else
    .ok ()

def validateName (name : String) : Except DispatchError Unit :=
  if name.isEmpty || name.utf8ByteSize > maxCapabilityNameBytes then
    .error (invalidAbi s!"capability name must be 1..={maxCapabilityNameBytes} bytes")
  else
    .ok ()

/-- `BTreeMap::insert` gives back what stood there before. -/
def insertAlias (aliases : Entries String) (name canonical : String) :
    Except DispatchError (Entries String) :=
  match aliases.lookup name with
  | none => .ok (aliases ++ [(name, canonical)])
  | some previous =>
    if previous ≠ canonical then
      .error (invalidAbi
        s!"capability alias `{name}` resolves to both `{previous}` and `{canonical}`")
    else
      .ok aliases

def insertFacade (aliases : Entries String) (capability : CapabilityContract) :
    Except DispatchError (Entries String) :=
  match capability.facade with
  | none => .ok aliases
  | some facade => do
    validateName facade
    insertAlias aliases facade capability.id

/-- The maps that the loop over the capabilities fills. -/
structure CapabilityTables where
  aliases : Entries String := []
  capabilities : Entries CapabilityContract := []

def CapabilityTables.insert (tables : CapabilityTables) (capability : CapabilityContract)
    (aliases : Entries String) : Except DispatchError CapabilityTables :=
  if (tables.capabilities.lookup capability.id).isSome then
    .error (invalidAbi s!"duplicate capability `{capability.id}`")
  else
    .ok { aliases, capabilities := tables.capabilities ++ [(capability.id, capability)] }

/-- The body of the loop over the capabilities. -/
def addCapability (abi : HostAbiDocument) (tables : CapabilityTables)
    (capability : CapabilityContract) : Except DispatchError CapabilityTables := do
  validateName capability.id
  if capability.hostAbi ≠ abi.version then
    .error (invalidAbi
      s!"capability `{capability.id}` requires Host ABI {capability.hostAbi}, document is {abi.version}")
  else if (abi.signatures.lookup capability.signature).isNone then
    .error (invalidAbi
      s!"capability `{capability.id}` names unknown signature `{capability.signature}`")
  else do
    let aliases ← insertAlias tables.aliases capability.id capability.id
    let aliases ← insertFacade aliases capability
    tables.insert capability aliases

def addCapabilities (abi : HostAbiDocument) (tables : CapabilityTables) :
    List CapabilityContract → Except DispatchError CapabilityTables
  | [] => .ok tables
  | capability :: rest => do
    let tables ← addCapability abi tables capability
    addCapabilities abi tables rest

def validateRequired (name : String) (parameters : ParameterObject) (required : String) :
    Except DispatchError Unit :=
  if (parameters.properties.lookup required).isNone then
    .error (invalidAbi s!"signature `{name}` requires unknown property `{required}`")
  else
    .ok ()

def validateBoundName (name : String) (bounds : Entries NumericBound)
    (property : String × PropertyContract) : Except DispatchError Unit :=
  match property.2.bound with
  | none => .ok ()
  | some bound =>
    if (bounds.lookup bound).isNone then
      .error (invalidAbi
        s!"signature `{name}` property `{property.1}` names unknown bound `{bound}`")
    else
      .ok ()

def validateSignature (bounds : Entries NumericBound) (entry : String × Signature) :
    Except DispatchError Unit :=
  if entry.2.parameters.kind ≠ "object" || entry.2.parameters.additionalProperties then
    .error (invalidAbi s!"signature `{entry.1}` must be a closed object")
  else do
    entry.2.parameters.required.forM (validateRequired entry.1 entry.2.parameters)
    entry.2.parameters.properties.forM (validateBoundName entry.1 bounds)

def validateSignatures (signatures : Entries Signature) (bounds : Entries NumericBound) :
    Except DispatchError Unit :=
  signatures.forM (validateSignature bounds)

def declareCapability (aliases : Entries String) (name : String) : Except DispatchError String :=
  match aliases.lookup name with
  | some canonical => .ok canonical
  | none => .error (unknownCapability name)

structure Dispatcher where
  aliases : Entries String
  capabilities : Entries CapabilityContract
  signatures : Entries Signature
  bounds : Entries NumericBound
  declared : List String
  maximumResultBytes : Nat

/-- `from_host_abi_json` behind the deserialization. -/
def Dispatcher.fromHostAbi (abi : HostAbiDocument) (appDeclarations : List String) :
    Except DispatchError Dispatcher := do
  validateDocument abi
  let tables ← addCapabilities abi {} abi.capabilities
  if tables.capabilities.isEmpty then
    .error (invalidAbi "capability catalog is empty")
  else do
    validateSignatures abi.signatures abi.bounds
    let declared ← appDeclarations.mapM (declareCapability tables.aliases)
    return {
      aliases := tables.aliases
      capabilities := tables.capabilities
      signatures := abi.signatures
      bounds := abi.bounds
      declared
      maximumResultBytes := abi.maximumResultBytes }

/-! ## Checking the parameters -/

/-- The bound a property names. -/
def namedBound (bounds : Entries NumericBound) (contract : PropertyContract) :
    Except DispatchError (Option NumericBound) :=
  match contract.bound with
  | none => .ok none
  | some name =>
    match bounds.lookup name with
    | some bound => .ok (some bound)
    | none => .error (panicked "validated bound reference")

/-- `usize::try_from(..).ok()`. -/
def usizeOf (n : Int64) : Option Nat := if 0 ≤ n.toInt then some n.toInt.toNat else none

def validateSize (name : String) (size minimum maximum : Nat) : Except DispatchError Unit :=
  if size < minimum || size > maximum then
    .error (invalidParameters
      s!"property `{name}` UTF-8 size is outside {minimum}..={maximum}")
  else
    .ok ()

def validateText (name : String) (value : Json) (contract : PropertyContract)
    (bounds : Entries NumericBound) : Except DispatchError Unit :=
  match value.asStr with
  | none => .error (invalidParameters s!"property `{name}` must be a string")
  | some text => do
    let bound ← namedBound bounds contract
    validateSize name text.utf8ByteSize
      ((contract.minimumUtf8Bytes.map UInt64.toNat).getD
        ((bound.bind (usizeOf ·.minimum)).getD 0))
      ((contract.maximumUtf8Bytes.map UInt64.toNat).getD
        ((bound.bind (usizeOf ·.maximum)).getD u64Max))

def validateRange (name : String) (number minimum maximum : Int) : Except DispatchError Unit :=
  if number < minimum || number > maximum then
    .error (invalidParameters s!"property `{name}` is outside {minimum}..={maximum}")
  else
    .ok ()

def validateInteger (name : String) (value : Json) (contract : PropertyContract)
    (bounds : Entries NumericBound) : Except DispatchError Unit :=
  match value.asI64 with
  | none => .error (invalidParameters s!"property `{name}` must be an integer")
  | some number =>
    if contract.kind.toList.head? = some 'u' && number < 0 then
      .error (invalidParameters s!"property `{name}` must be unsigned")
    else do
      let bound ← namedBound bounds contract
      match bound with
      | some bound => validateRange name number bound.minimum.toInt bound.maximum.toInt
      | none =>
        validateRange name number ((contract.minimum.map Int64.toInt).getD (-2 ^ 63))
          ((contract.maximum.map Int64.toInt).getD (2 ^ 63 - 1))

def isTextKind (kind : String) : Bool := kind = "string" || kind = "stable_tab_id"

def isIntegerKind (kind : String) : Bool :=
  kind = "integer" || kind = "uint32" || kind = "uint64"

def validateProperty (name : String) (value : Json) (contract : PropertyContract)
    (bounds : Entries NumericBound) : Except DispatchError Unit :=
  if isTextKind contract.kind then
    validateText name value contract bounds
  else if isIntegerKind contract.kind then
    validateInteger name value contract bounds
  else if contract.kind = "number" then
    if value.isNumber then .ok () else
      .error (invalidParameters s!"property `{name}` must be a number")
  else
    .error (invalidParameters
      s!"property `{name}` has unsupported ABI type `{contract.kind}`")

def requireField (fields : List (String × Json)) (required : String) :
    Except DispatchError Unit :=
  if (fields.lookup required).isNone then
    .error (invalidParameters s!"missing required property `{required}`")
  else
    .ok ()

def validateField (contract : ParameterObject) (bounds : Entries NumericBound)
    (field : String × Json) : Except DispatchError Unit :=
  match contract.properties.lookup field.1 with
  | none => .error (invalidParameters s!"unexpected property `{field.1}`")
  | some property => validateProperty field.1 field.2 property bounds

def validateParameters (value : Json) (contract : ParameterObject)
    (bounds : Entries NumericBound) : Except DispatchError Unit :=
  match value with
  | .object fields => do
    contract.required.forM (requireField fields)
    fields.forM (validateField contract bounds)
  | _ => .error (invalidParameters "expected object")

/-! ## Dispatch -/

/-- What a dispatch answers, the host after it, and the calls of the host. -/
structure Dispatched (σ : Type) where
  outcome : Except DispatchError Json
  host : σ
  calls : List (String × Json)

/-- The canonical name of a call and the parameters of its signature. -/
def Dispatcher.resolve (d : Dispatcher) (requestedName : String) :
    Except DispatchError (String × ParameterObject) :=
  match d.aliases.lookup requestedName with
  | none => .error (unknownCapability requestedName)
  | some canonical =>
    if canonical ∉ d.declared then
      .error (undeclaredCapability canonical)
    else
      match d.capabilities.lookup canonical with
      | none => .error (panicked "validated capability table")
      | some capability =>
        match d.signatures.lookup capability.signature with
        | none => .error (panicked "validated signature reference")
        | some signature => .ok (canonical, signature.parameters)

/-- The checks before the host is called. -/
def Dispatcher.prepare (d : Dispatcher) (requestedName : String) (parameters : Json) :
    Except DispatchError String := do
  let (canonical, contract) ← d.resolve requestedName
  validateParameters parameters contract d.bounds
  return canonical

/-- What is made of the answer of the host. -/
def Dispatcher.finish (d : Dispatcher) (textBytes : Json → Nat) :
    Except String Json → Except DispatchError Json
  | .error reason => .error (.host reason)
  | .ok result =>
    if textBytes result > d.maximumResultBytes then
      .error (resultTooLarge (textBytes result) d.maximumResultBytes)
    else
      .ok result

def Dispatcher.dispatch {σ : Type} (d : Dispatcher)
    (call : σ → String → Json → Except String Json × σ) (textBytes : Json → Nat) (host : σ)
    (requestedName : String) (parameters : Json) : Dispatched σ :=
  match d.prepare requestedName parameters with
  | .error error => { outcome := .error error, host, calls := [] }
  | .ok canonical =>
    let answer := call host canonical parameters
    { outcome := d.finish textBytes answer.1
      host := answer.2
      calls := [(canonical, parameters)] }

end Agenterm.Chassis
