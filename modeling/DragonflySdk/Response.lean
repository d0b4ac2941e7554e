import DragonflySdk.Proxy

/-!
# Requests sent and answers received

`send` of a GET request: the headers it is sent with, and what is made of the answer of the proxy.
An answer that is not `2xx` is an error, of the kind its header `X-Dragonfly-Error-Type` names
(`answer_fromResponse`).
-/

namespace DragonflySdk

open Foundation

/-! ### Headers -/

/-- The name of a header, which has no case. -/
def headerName (name : Str) : Str := name.map Char.toLower

/-- `HeaderMap::insert` -/
def HeaderMap.insert (header : HeaderMap) (name value : Str) : HeaderMap :=
  setEntry header (headerName name) value

/-- `HeaderMap::get`: the first value of the name. -/
def HeaderMap.get (header : HeaderMap) (name : Str) : Option Str := header.lookup (headerName name)

theorem lookup_cons_entry {α : Type} (entry : Str × α) (entries : List (Str × α)) (name : Str) :
    (entry :: entries).lookup name =
      if name = entry.1 then some entry.2 else entries.lookup name := by
  rw [List.lookup_cons]
  by_cases h : name = entry.1
  · rw [if_pos h, h, beq_self_eq_true]
  · rw [if_neg h, beq_false_of_ne h]

/-! ### The headers of a request -/

/-- What is called of `http` and `reqwest`. -/
structure HttpCrate where
  /-- `HeaderValue::from_str` -/
  parseValue : Str → Except Str Str
  /-- `Response::text`, of a body that is read to its end -/
  text : HeaderMap → List UInt8 → Str
  /-- A `StatusCode`, displayed -/
  statusText : Nat → Str

/-- Sets a header to a value that is given, if that parses; `what` names it in the error. -/
def insertParsed (crate : HttpCrate) (name what : Str) (value : Option Str) (headers : HeaderMap) :
    Except Error HeaderMap :=
  match value with
  | none => .ok headers
  | some value =>
    match crate.parseValue value with
    | .error err => .error (.invalidArgument ("invalid ".toList ++ what ++ ": ".toList ++ err))
    | .ok value => .ok (HeaderMap.insert headers name value)

/-- The headers of the request with the P2P related ones applied. -/
def GetRequest.proxyHeaders (crate : HttpCrate) (request : GetRequest) :
    Except Error HeaderMap := do
  let headers ← insertParsed crate "X-Dragonfly-Piece-Length".toList "piece length".toList
    (request.pieceLength.map fun pieceLength => pieceLength.repr.toList) request.header
  let headers ← insertParsed crate "X-Dragonfly-Tag".toList "tag".toList request.tag headers
  let headers ← insertParsed crate "X-Dragonfly-Application".toList "application".toList
    request.application headers
  let headers ← insertParsed crate "X-Dragonfly-Content-For-Calculating-Task-ID".toList
    "content for calculating task id".toList request.contentForCalculatingTaskId headers
  let headers ← insertParsed crate "X-Dragonfly-Enable-Task-ID-Based-Blob-Digest".toList
    "enable task id based blob digest".toList
    (some (toString request.enableTaskIdBasedBlobDigest).toList) headers
  let headers ← insertParsed crate "X-Dragonfly-Priority".toList "priority".toList
    (request.priority.map fun priority => (toString priority).toList) headers
  let headers ← insertParsed crate "X-Dragonfly-Filtered-Query-Params".toList
    "filtered query params".toList
    (if request.filteredQueryParams = [] then none
    else some (",".toList.intercalate request.filteredQueryParams)) headers
  return HeaderMap.insert headers "X-Dragonfly-Use-P2P".toList "true".toList

/-! ### The answer -/

/-- How the body of a response ends. -/
inductive BodyEnd
  | complete
  | timeout (err : Str)
  | failed (err : Str)
deriving DecidableEq, Repr

/-- `reqwest::Response`, its body as the chunks it comes in. -/
structure Response where
  status : Nat
  headers : HeaderMap
  chunks : List (List UInt8)
  ending : BodyEnd
deriving DecidableEq, Repr

/-- What sending a request fails with. -/
inductive SendError
  | timeout (err : Str)
  | failed (err : Str)
deriving DecidableEq, Repr

/-- A client of a proxy: what comes of a GET request for a url with some headers and a timeout. -/
abbrev Client := Str → HeaderMap → Duration → Except SendError Response

/-- The kinds of errors a proxy answers with. -/
inductive AnswerKind
  | backend | proxy | dfdaemon
deriving DecidableEq, Repr

/-- The kind that a header `X-Dragonfly-Error-Type` names; all others are the proxy's. -/
def answerKind (errorType : Str) : AnswerKind :=
  if errorType = "backend".toList then .backend
  else if errorType = "dfdaemon".toList then .dfdaemon
  else .proxy

namespace Error

/-- The answer an error reports, and of which kind it is. -/
def answer : Error → Option (AnswerKind × AnswerError)
  | backendError error => some (.backend, error)
  | proxyError error => some (.proxy, error)
  | dfdaemonError error => some (.dfdaemon, error)
  | _ => none

/-- Converts a response that is not `2xx`. -/
def fromResponse (crate : HttpCrate) (response : Response) : Error :=
  let errorType := (HeaderMap.get response.headers "X-Dragonfly-Error-Type".toList).bind toStr
  let header := headermapToHashmap response.headers
  let message := match response.ending with
    | .complete => some (crate.text response.headers response.chunks.flatten)
    | .timeout _ | .failed _ => none
  match errorType with
  | some errorType =>
    if errorType = "backend".toList then backendError ⟨message, header, some response.status⟩
    else if errorType = "proxy".toList then proxyError ⟨message, header, some response.status⟩
    else if errorType = "dfdaemon".toList then
      dfdaemonError ⟨message, header, some response.status⟩
    else proxyError ⟨some ("unknown error type from proxy: ".toList ++ errorType), header,
      some response.status⟩
  | none => proxyError
    ⟨some ("unexpected status code from proxy: ".toList ++ crate.statusText response.status),
      header, some response.status⟩

end Error

/-- `StatusCode::is_success` -/
def isSuccess (status : Nat) : Bool := 200 ≤ status && status < 300

/-- Sends the request once. -/
def GetRequest.send (crate : HttpCrate) (request : GetRequest) (client : Client) :
    Except Error Response := do
  let headers ← request.proxyHeaders crate
  match client request.url headers request.timeout with
  | .error (.timeout err) => .error (.requestTimeout err)
  | .error (.failed err) => .error (.internal err)
  | .ok response =>
    if !isSuccess response.status then .error (.fromResponse crate response) else .ok response

/-! ### What an error reports -/

theorem toStr_eq_some {value text : Str} (h : toStr value = some text) : value = text := by
  unfold toStr at h
  split at h
  · exact Option.some.inj h
  · cases h

theorem answerKind_eq_proxy {errorType : Str} (h : toStr errorType = none) :
    answerKind errorType = .proxy := by
  unfold answerKind
  by_cases hbackend : errorType = "backend".toList
  · rw [hbackend] at h
    cases h
  · by_cases hdfdaemon : errorType = "dfdaemon".toList
    · rw [hdfdaemon] at h
      cases h
    · rw [if_neg hbackend, if_neg hdfdaemon]

theorem answer_fromResponse (crate : HttpCrate) (response : Response) :
    ∃ error, (Error.fromResponse crate response).answer = some
        (answerKind ((HeaderMap.get response.headers "X-Dragonfly-Error-Type".toList).getD []),
          error) ∧
      error.statusCode = some response.status := by
  unfold Error.fromResponse
  rcases hget : HeaderMap.get response.headers "X-Dragonfly-Error-Type".toList with _ | errorType
  · exact ⟨_, rfl, rfl⟩
  · rcases htext : toStr errorType with _ | text
    · simp only [Option.bind_some, htext, Option.getD_some, answerKind_eq_proxy htext]
      exact ⟨_, rfl, rfl⟩
    · obtain rfl := toStr_eq_some htext
      simp only [Option.bind_some, htext, Option.getD_some, answerKind]
      by_cases hbackend : errorType = "backend".toList
      · simp only [if_pos hbackend]
        exact ⟨_, rfl, rfl⟩
      · by_cases hproxy : errorType = "proxy".toList
        · rw [hproxy]
          exact ⟨_, rfl, rfl⟩
        · by_cases hdfdaemon : errorType = "dfdaemon".toList
          · rw [hdfdaemon]
            exact ⟨_, rfl, rfl⟩
          · simp only [if_neg hbackend, if_neg hproxy, if_neg hdfdaemon]
            exact ⟨_, rfl, rfl⟩

end DragonflySdk
