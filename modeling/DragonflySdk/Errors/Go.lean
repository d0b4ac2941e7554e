import DragonflySdk.Errors

/-!
# Errors in Go

`errors.go`, where an error wraps one of three sentinels, is the answer of a proxy, or is the status
of a call.
-/

namespace DragonflySdk.Go

open Foundation

/-- What `fmt.Errorf` is given beside the sentinel it wraps: the format and its operands, not
rendered. -/
structure Format where
  format : Str
  operands : List Str
deriving DecidableEq, Repr

/-- `BackendError`, `ProxyError` and `DfdaemonError`, which have the same fields; the message is a
string of bytes, the header has the values of each name. -/
structure AnswerError where
  message : List UInt8
  header : List (Str × List Str)
  statusCode : Nat
deriving DecidableEq, Repr

inductive Error
  /-- `ErrRequestTimeout`, wrapped -/
  | requestTimeout (text : Format)
  /-- `ErrInvalidArgument`, wrapped -/
  | invalidArgument (text : Format)
  /-- `ErrInternal`, wrapped -/
  | internal (text : Format)
  | backendError (error : AnswerError)
  | proxyError (error : AnswerError)
  | dfdaemonError (error : AnswerError)
  | status (status : Status)
  /-- `context.DeadlineExceeded` -/
  | deadlineExceeded
  /-- `context.Canceled` -/
  | canceled
deriving DecidableEq, Repr

/-- Whether the status of an answer marks a transient failure. -/
def isRetryableStatus (status : Nat) : Bool := 500 ≤ status || status == 408 || status == 429

end DragonflySdk.Go
