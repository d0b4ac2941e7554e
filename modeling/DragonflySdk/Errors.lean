import DragonflySdk.Foundation.Text

/-!
# Errors

`errors.rs`: the error of every operation, and which errors are worth another attempt. A text that
ends in another error (`format!("…: {err}")`) keeps that error as it is, unrendered.
-/

namespace DragonflySdk

open Foundation

/-- The codes of a gRPC status. -/
inductive Code
  | ok | cancelled | unknown | invalidArgument | deadlineExceeded | notFound | alreadyExists
  | permissionDenied | resourceExhausted | failedPrecondition | aborted | outOfRange
  | unimplemented | internal | unavailable | dataLoss | unauthenticated
deriving DecidableEq, Repr

/-- `tonic::Status` -/
structure Status where
  code : Code
  message : Str
  details : List UInt8
deriving DecidableEq, Repr

/-- `BackendError`, `ProxyError` and `DfdaemonError`, which have the same fields. -/
structure AnswerError where
  message : Option Str
  header : List (Str × Str)
  statusCode : Option Nat
deriving DecidableEq, Repr

inductive Error
  | requestTimeout (message : Str)
  | invalidArgument (message : Str)
  | internal (message : Str)
  /-- `Internal`, its message ending in `cause` -/
  | internalOf (message : Str) (cause : Error)
  | hostNotFound (host : Str)
  | backendError (error : AnswerError)
  | proxyError (error : AnswerError)
  | dfdaemonError (error : AnswerError)
  | netAddrParseError
  | tonicStatus (status : Status)
  | tonicTransportError (message : Str)
deriving DecidableEq, Repr

namespace AnswerError

/-- `status_code.is_none_or(…)`: no status code, `5xx`, `408` or `429`. -/
def isRetryable (e : AnswerError) : Bool :=
  match e.statusCode with
  | none => true
  | some status => (500 ≤ status && status ≤ 599) || status == 408 || status == 429

end AnswerError

/-- Whether a failed attempt is worth another one against a different seed peer. -/
def Error.isRetryable : Error → Bool
  | .requestTimeout _ | .internal _ | .internalOf _ _ => true
  | .proxyError e | .backendError e | .dfdaemonError e => e.isRetryable
  | .tonicStatus status =>
    match status.code with
    | .internal | .unavailable | .unknown | .aborted => true
    | _ => false
  | .invalidArgument _ | .hostNotFound _ | .netAddrParseError | .tonicTransportError _ => false

/-- `Backend`, the details of a status that reports what the origin answered. -/
structure Backend where
  message : Str
  header : List (Str × Str)
  statusCode : Option Int
deriving DecidableEq, Repr

/-- `u16::try_from(code).ok().and_then(|code| StatusCode::from_u16(code).ok())`: three digits. -/
def statusCodeOf (code : Int) : Option Nat :=
  if 100 ≤ code ∧ code ≤ 999 then some code.toNat else none

/-- Converts the gRPC status of a failed dfdaemon task; `decode` is `serde_json::from_slice`. -/
def Error.fromStatus (decode : List UInt8 → Option Backend) (status : Status) : Error :=
  match decode status.details with
  | some backend =>
    .backendError ⟨some backend.message, backend.header, backend.statusCode.bind statusCodeOf⟩
  | none =>
    match status.code with
    | .deadlineExceeded => .requestTimeout status.message
    | _ => .tonicStatus status

end DragonflySdk
