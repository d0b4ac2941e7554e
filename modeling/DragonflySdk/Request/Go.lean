import DragonflySdk.Errors.Wrapped
import DragonflySdk.Request

/-!
# Requests in Go

The request of `request.go`. What is not given is empty, or a nil pointer.
-/

namespace DragonflySdk.Go

open Foundation

/-- `http.Header`, in some order. -/
abbrev Header := List (Str × List Str)

/-- A GET request to be sent via the Dragonfly. -/
structure GetRequest where
  url : Str
  header : Header
  pieceLength : Option Nat
  tag : Str
  application : Str
  filteredQueryParams : List Str
  contentForCalculatingTaskId : Str
  enableTaskIdBasedBlobDigest : Bool
  priority : Option Int
  replicas : Int

/-- `url.URL`, as far as it is read. -/
structure ParsedUrl where
  scheme : Str
  hostname : Str

/-- Validates the request parameters; `parse` is `url.Parse`. -/
def GetRequest.validate (parse : Str → Except WrappedError ParsedUrl) (r : GetRequest) :
    Except WrappedError Unit :=
  if r.replicas ≤ 0 then
    .error (errorf ⟨"%w: replicas must be positive".toList, []⟩
      [.node (.sentinel .invalidArgument) []])
  else
    match parse r.url with
    | .error err =>
      .error (errorf ⟨"%w: invalid url: %w".toList, []⟩
        [.node (.sentinel .invalidArgument) [], err])
    | .ok u =>
      if (u.scheme ≠ "http".toList ∧ u.scheme ≠ "https".toList) ∨ u.hostname = [] then
        .error (errorf ⟨"%w: url %q must be http or https with a host".toList, [r.url]⟩
          [.node (.sentinel .invalidArgument) []])
      else .ok ()

end DragonflySdk.Go
