import S2SProxy.Lib.GatherScatter
import S2SProxy.Lib.NodeChain

/- Sealing and opening the failures that cross the connection. A failure's message and stack
   trace move into its encoded attributes, which are sealed with every other payload. -/
namespace FailureEncoding
open GatherScatter NodeChain
variable {δ ρ ε : Type}

inductive MetadataKey where
  | encoding
  | encryptionKeyID
  | encryptionDEK
  | encodedFailureMarker
  | other (name : String)
  deriving DecidableEq

structure Payload (δ : Type) where
  metadata : AList fun _ : MetadataKey => String
  data : δ

def Payload.value (p : Payload δ) (key : MetadataKey) : String :=
  (p.metadata.lookup key).getD ""

def encryptionEncoding : String := "binary/encrypted"

def isSealed (p : Payload δ) : Bool :=
  p.value .encoding == encryptionEncoding && p.value .encryptionKeyID != "" &&
    p.value .encryptionDEK != ""

def alreadySealed (encodings : List String) (p : Payload δ) : Bool :=
  isSealed p || encodings.contains (p.value .encoding)

structure CodecChain (ρ ε : Type) where
  encode : List ρ → Except ε (List ρ)
  decode : List ρ → Except ε (List ρ)

inductive SealError (ε : Type) where
  | encode (err : ε)
  /-- Encode returned fewer payloads than it was given. -/
  | indexOutOfRange

def sealUnlessSealed (sealed : ρ → Bool) (c : CodecChain ρ ε) (payloads : List ρ) :
    Except (SealError ε) (List ρ) :=
  let (places, todo) := gather sealed 0 payloads
  if todo.length = 0 then .ok payloads
  else
    match c.encode todo with
    | .error err => .error (.encode err)
    | .ok done =>
      match scatter places done payloads with
      | none => .error .indexOutOfRange
      | some out => .ok out

structure Codec (δ : Type) where
  encode : Payload δ → Option (Payload δ)
  decode : Payload δ → Option (Payload δ)

/-- The chain of such a codec works on a payload at a time. -/
def Codec.chain (c : Codec δ) : CodecChain (Payload δ) Unit where
  encode ps := (ps.mapM c.encode).elim (.error ()) .ok
  decode ps := (ps.mapM c.decode).elim (.error ()) .ok

def sealAll (encodings : List String) (c : Codec δ) (payloads : List (Payload δ)) :
    Option (List (Payload δ)) :=
  (sealUnlessSealed (alreadySealed encodings) c.chain payloads).toOption

def decodeAll (c : Codec δ) (payloads : List (Payload δ)) : Option (List (Payload δ)) :=
  (c.chain.decode payloads).toOption

structure Node (δ : Type) where
  message : String
  stackTrace : String
  encodedAttributes : Option (Payload δ)
  details : List (Payload δ)

abbrev Failure (δ : Type) := Chain (Node δ)

/-- A single payload must come back as one payload. -/
def visitAttributes (visitor : List (Payload δ) → Option (List (Payload δ))) :
    Option (Payload δ) → Option (Option (Payload δ))
  | none => some none
  | some p =>
    match visitor [p] with
    | some [q] => some (some q)
    | _ => none

def visitNodePayloads (visitor : List (Payload δ) → Option (List (Payload δ))) (n : Node δ) :
    Option (Node δ) :=
  match visitAttributes visitor n.encodedAttributes, visitor n.details with
  | some attributes, some details =>
    some { n with encodedAttributes := attributes, details := details }
  | _, _ => none

def visitPayloads (visitor : List (Payload δ) → Option (List (Payload δ))) :
    Failure δ → Option (Failure δ) :=
  visit (visitNodePayloads visitor)

def visitFailures (visitor : Node δ → Option (Node δ)) : Failure δ → Option (Failure δ) :=
  visit visitor

structure FailureText (δ : Type) where
  marshal : String → String → Option δ
  unmarshal : δ → Option (String × String)
  reads_back : ∀ message stackTrace d, marshal message stackTrace = some d →
    unmarshal d = some (message, stackTrace)

def markedAttributes (d : δ) : Payload δ where
  metadata := ((∅ : AList fun _ : MetadataKey => String).insert .encoding "json/plain").insert
    .encodedFailureMarker "true"
  data := d

def placeholder : String := "Encoded failure"

section Visitors
variable (text : FailureText δ)

def encodeFailure (n : Node δ) : Option (Node δ) :=
  match n.encodedAttributes with
  | some _ => some n
  | none =>
    match text.marshal n.message n.stackTrace with
    | none => none
    | some d => some { n with
        message := placeholder, stackTrace := "", encodedAttributes := some (markedAttributes d) }

def restoreFailure (n : Node δ) : Option (Node δ) :=
  match n.encodedAttributes with
  | none => some n
  | some attrs =>
    if attrs.value .encodedFailureMarker = "" ∨ attrs.value .encoding ≠ "json/plain" then some n
    else
      match text.unmarshal attrs.data with
      | none => some n
      | some (message, stackTrace) =>
        some { n with message := message, stackTrace := stackTrace, encodedAttributes := none }

structure EncryptorConfig (δ : Type) where
  enabled : Bool
  vault : Option (Codec δ)
  reverse : Bool
  alreadySealedEncodings : List String
  encodeFailures : Bool

/-- What an interceptor makes of a failure in a request, and of one in the response or in the
    details of the call's error. -/
structure UnaryInterceptor (δ : Type) where
  request : Failure δ → Option (Failure δ)
  response : Failure δ → Option (Failure δ)

/-- A direction without options is not visited. -/
def visitorInterceptor (outbound inbound : Option (Failure δ → Option (Failure δ))) :
    UnaryInterceptor δ where
  request := outbound.getD some
  response := inbound.getD some

def chainUnary (outer inner : UnaryInterceptor δ) : UnaryInterceptor δ where
  request := fun m => (outer.request m).bind inner.request
  response := fun m => (inner.response m).bind outer.response

def newEncryptor (cfg : EncryptorConfig δ) : Except String (UnaryInterceptor δ) :=
  if cfg.enabled && cfg.vault.isNone then .error "proxy: encryption requires a vault"
  else if cfg.encodeFailures && !cfg.enabled then
    .error "proxy: failure encoding requires encryption"
  else
    match cfg.vault with
    | none => .ok (visitorInterceptor none none)
    | some c =>
      let opens := some (visitPayloads (decodeAll c))
      let seals := if cfg.enabled then
        some (visitPayloads (sealAll cfg.alreadySealedEncodings c))
        else none
      let encode := if cfg.encodeFailures then some (visitFailures (encodeFailure text)) else none
      let restore := some (visitFailures (restoreFailure text))
      if cfg.reverse then
        .ok (chainUnary (visitorInterceptor opens seals) (visitorInterceptor restore encode))
      else
        .ok (chainUnary (visitorInterceptor encode restore) (visitorInterceptor seals opens))

structure AdminVisit (δ : Type) where
  payloads : List (Payload δ) → Option (List (Payload δ))
  failures : Option (Node δ → Option (Node δ))
  failuresAfter : Bool

def AdminVisit.visitPublic (v : AdminVisit δ) (m : Failure δ) : Option (Failure δ) :=
  match v.failures with
  | none => visitPayloads v.payloads m
  | some failures =>
    if v.failuresAfter then (visitPayloads v.payloads m).bind (visitFailures failures)
    else (visitFailures failures m).bind (visitPayloads v.payloads)

def AdminVisit.visitError (v : AdminVisit δ) (m : Failure δ) : Option (Failure δ) :=
  let details := (visitorInterceptor none (some (visitPayloads v.payloads))).response
  let failureDetails := (visitorInterceptor none (v.failures.map visitFailures)).response
  if v.failuresAfter then (details m).bind failureDetails
  else (failureDetails m).bind details

structure AdminEncryptor (δ : Type) where
  request : Failure δ → Option (Failure δ)
  reply : Failure δ → Option (Failure δ)
  errorDetails : Failure δ → Option (Failure δ)

/-- A direction without a visit leaves the message as it is. -/
def adminEncryptor (req resp : Option (AdminVisit δ)) : AdminEncryptor δ where
  request := (req.map AdminVisit.visitPublic).getD some
  reply := (resp.map AdminVisit.visitPublic).getD some
  errorDetails := (resp.map AdminVisit.visitError).getD some

def newAdminEncryptor (cfg : EncryptorConfig δ) : Except String (AdminEncryptor δ) :=
  if cfg.enabled && cfg.vault.isNone then .error "proxy: encryption requires a vault"
  else if cfg.encodeFailures && !cfg.enabled then
    .error "proxy: failure encoding requires encryption"
  else
    let opens := cfg.vault.map fun c =>
      { payloads := decodeAll c, failures := some (restoreFailure text), failuresAfter := true }
    let seals := if cfg.enabled then cfg.vault.map fun c =>
        { payloads := sealAll cfg.alreadySealedEncodings c
          failures := if cfg.encodeFailures then some (encodeFailure text) else none
          failuresAfter := false }
      else none
    if cfg.reverse then .ok (adminEncryptor opens seals)
    else .ok (adminEncryptor seals opens)

/-- Where a configuration seals: what leaves for the peer. -/
inductive Seals (cfg : EncryptorConfig δ) : (Failure δ → Option (Failure δ)) → Prop where
  | request {e} (built : newEncryptor text cfg = .ok e) (forward : cfg.reverse = false) :
      Seals cfg e.request
  | response {e} (built : newEncryptor text cfg = .ok e) (reversed : cfg.reverse = true) :
      Seals cfg e.response
  | adminRequest {e} (built : newAdminEncryptor text cfg = .ok e) (forward : cfg.reverse = false) :
      Seals cfg e.request
  | adminReply {e} (built : newAdminEncryptor text cfg = .ok e) (reversed : cfg.reverse = true) :
      Seals cfg e.reply
  | adminError {e} (built : newAdminEncryptor text cfg = .ok e) (reversed : cfg.reverse = true) :
      Seals cfg e.errorDetails

/-- Where a configuration opens: what arrives from the peer. -/
inductive Opens (cfg : EncryptorConfig δ) : (Failure δ → Option (Failure δ)) → Prop where
  | request {e} (built : newEncryptor text cfg = .ok e) (reversed : cfg.reverse = true) :
      Opens cfg e.request
  | response {e} (built : newEncryptor text cfg = .ok e) (forward : cfg.reverse = false) :
      Opens cfg e.response
  | adminRequest {e} (built : newAdminEncryptor text cfg = .ok e) (reversed : cfg.reverse = true) :
      Opens cfg e.request
  | adminReply {e} (built : newAdminEncryptor text cfg = .ok e) (forward : cfg.reverse = false) :
      Opens cfg e.reply
  | adminError {e} (built : newAdminEncryptor text cfg = .ok e) (forward : cfg.reverse = false) :
      Opens cfg e.errorDetails

end Visitors

end FailureEncoding
