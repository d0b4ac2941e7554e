import DragonflySdk.Errors.Go
import DragonflySdk.Foundation.ErrorTree

/-!
# Errors in Go that wrap errors

`errors.go` again, with the chain of an error as `errors.Is` and `errors.As` see it: an error made by
`fmt.Errorf` wraps its operands for `%w`, and a `backoff.PermanentError` the error it marks. The
errors of `Errors.Go` are those that wrap what their name says (`Error.tree`).
-/

namespace DragonflySdk.Go

open Foundation

/-- The errors that are looked for with `errors.Is`. -/
inductive Sentinel
  | requestTimeout | invalidArgument | internal
  /-- `context.DeadlineExceeded` -/
  | deadlineExceeded
  /-- `context.Canceled` -/
  | canceled
deriving DecidableEq, Repr

/-- An error without those it wraps. -/
inductive ErrorValue
  | sentinel (sentinel : Sentinel)
  | backendError (error : AnswerError)
  | proxyError (error : AnswerError)
  | dfdaemonError (error : AnswerError)
  /-- an error with a `GRPCStatus` -/
  | status (status : Status)
  /-- `backoff.PermanentError` -/
  | permanent
  /-- an error of `fmt.Errorf` -/
  | formatted (text : Format)
  /-- any other, with the sentinels its own method `Is` knows -/
  | other (text : Str) (is : List Sentinel)
deriving DecidableEq, Repr

abbrev WrappedError := ErrorTree ErrorValue

/-- `fmt.Errorf`, with its operands for `%w` -/
def errorf (text : Format) (wrapped : List WrappedError) : WrappedError :=
  .node (.formatted text) wrapped

/-- `backoff.Permanent` -/
def markPermanent (err : WrappedError) : WrappedError := .node .permanent [err]

/-- The value is the sentinel, or says so. -/
def ErrorValue.is (target : Sentinel) : ErrorValue → Bool
  | .sentinel own => own = target
  | .other _ is => target ∈ is
  | _ => false

/-- `errors.Is` -/
def errorsIs (err : WrappedError) (target : Sentinel) : Bool := err.has (·.is target)

/-- The method `retryable` of an answer. -/
def retryable? (err : WrappedError) : Option Bool :=
  match err.value with
  | .backendError e | .proxyError e | .dfdaemonError e => some (isRetryableStatus e.statusCode)
  | _ => none

/-- The method `GRPCStatus`. -/
def grpcStatus? (err : WrappedError) : Option Status :=
  match err.value with
  | .status st => some st
  | _ => none

/-- The codes of transient failures. -/
def isRetryableCode : Code → Bool
  | .internal | .unavailable | .unknown | .aborted | .deadlineExceeded => true
  | _ => false

/-- Whether a failed attempt is worth another one against a different seed peer. -/
def isRetryable (err : WrappedError) : Bool :=
  match err.first? retryable? with
  | some answer => answer
  | none =>
    match err.first? grpcStatus? with
    | some st => isRetryableCode st.code
    | none => errorsIs err .requestTimeout || errorsIs err .internal

/-- The method `Unwrap` of a `PermanentError`. -/
def unwrapPermanent? (err : WrappedError) : Option WrappedError :=
  match err with
  | .node .permanent [marked] => some marked
  | _ => none

/-- `errors.As(err, &permanent)`, and then `permanent.Unwrap()`. -/
def permanent? (err : WrappedError) : Option WrappedError := err.first? unwrapPermanent?

theorem permanent?_mark (err : WrappedError) : permanent? (markPermanent err) = some err := by
  rw [permanent?, markPermanent, ErrorTree.first?_wrap]
  rfl

theorem sizeOf_of_permanent? {err marked : WrappedError} (h : permanent? err = some marked) :
    sizeOf marked < sizeOf err := by
  obtain ⟨e, hmem, he⟩ := List.exists_of_findSome?_eq_some h
  unfold unwrapPermanent? at he
  split at he
  · obtain rfl := Option.some.inj he
    exact ErrorTree.sizeOf_lt_of_mem_chain hmem
  · cases he

theorem unwrapPermanent?_of_permanent? {err : WrappedError} (h : permanent? err = none) :
    unwrapPermanent? err = none := by
  apply List.findSome?_eq_none_iff.mp h
  cases err with
  | node value wrapped => exact List.mem_cons_self

/-! ### The errors that are made here -/

/-- An error with the errors it wraps. -/
def Error.tree : Error → WrappedError
  | .requestTimeout text => errorf text [.node (.sentinel .requestTimeout) []]
  | .invalidArgument text => errorf text [.node (.sentinel .invalidArgument) []]
  | .internal text => errorf text [.node (.sentinel .internal) []]
  | .backendError error => .node (.backendError error) []
  | .proxyError error => .node (.proxyError error) []
  | .dfdaemonError error => .node (.dfdaemonError error) []
  | .status st => .node (.status st) []
  | .deadlineExceeded => .node (.sentinel .deadlineExceeded) []
  | .canceled => .node (.sentinel .canceled) []

/-- Whether a failed attempt is worth another one against a different seed peer. -/
def Error.isRetryable (err : Error) : Bool := Go.isRetryable err.tree

theorem permanent?_tree (err : Error) : permanent? err.tree = none := by
  cases err <;> rfl

end DragonflySdk.Go
