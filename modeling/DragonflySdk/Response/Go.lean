import DragonflySdk.Request.Go
import DragonflySdk.Response
import Mathlib

/-!
# Requests sent and answers received, in Go

`send` of `request.go`. An `http.Header` keeps its names in canonical form, so that looking one up
finds the same values as in Rust, where names are in lower case (`get_ofFields`). The lemmas on the
case of a character come with Mathlib as a whole only.
-/

namespace DragonflySdk.Go

open Foundation

/-! ### Headers -/

/-- The letters in upper case at the start and after a hyphen, in lower case elsewhere. -/
def titled : (upper : Bool) → Str → Str
  | _, [] => []
  | upper, c :: s => (if upper then c.toUpper else c.toLower) :: titled (c = '-') s

/-- `CanonicalMIMEHeaderKey` of a token. -/
def canonicalMIMEHeaderKey (name : Str) : Str := titled true name

/-- `Header.Set` -/
def Header.set (header : Header) (key value : Str) : Header :=
  header.filter (fun entry => entry.1 ≠ canonicalMIMEHeaderKey key) ++
    [(canonicalMIMEHeaderKey key, [value])]

/-- `Header.Add` -/
def Header.add (header : Header) (key value : Str) : Header :=
  match header with
  | [] => [(canonicalMIMEHeaderKey key, [value])]
  | (name, values) :: header =>
    if name = canonicalMIMEHeaderKey key then (name, values ++ [value]) :: header
    else (name, values) :: Header.add header key value

/-- The values of a canonical name. -/
def Header.values (header : Header) (name : Str) : List Str := (header.lookup name).getD []

/-- `Header.Get`: the first value of the name, or the empty text. -/
def Header.get (header : Header) (key : Str) : Str :=
  (header.values (canonicalMIMEHeaderKey key)).headD []

/-- The header of an answer with these fields. -/
def Header.ofFields (fields : List (Str × Str)) : Header :=
  fields.foldl (fun header (name, value) => Header.add header name value) []

theorem titled_map_toLower (upper : Bool) (name : Str) :
    titled upper (name.map Char.toLower) = titled upper name := by
  induction name generalizing upper with
  | nil => rfl
  | cons c name ih =>
    have hhyphen : (c.toLower = '-') ↔ c = '-' := by
      constructor
      · intro h
        by_cases hupper : c.isUpper = true
        · have halpha := Char.isLower_toLower_eq_isAlpha c
          rw [h] at halpha
          simp [Char.isAlpha, hupper] at halpha
        · rwa [Char.toLower_eq_of_not_isUpper hupper] at h
      · intro h
        rw [h]
        rfl
    rw [List.map_cons, titled, titled, ih]
    simp only [Char.toUpper_toLower_eq_toUpper, Char.toLower_toLower_eq_toLower, hhyphen]

theorem map_toLower_titled (upper : Bool) (name : Str) :
    (titled upper name).map Char.toLower = name.map Char.toLower := by
  induction name generalizing upper with
  | nil => rfl
  | cons c name ih =>
    rw [titled, List.map_cons, List.map_cons, ih]
    cases upper with
    | true => rw [if_pos rfl, Char.toLower_toUpper_eq_toLower]
    | false => rw [if_neg Bool.false_ne_true, Char.toLower_toLower_eq_toLower]

theorem canonicalMIMEHeaderKey_eq_iff {name name' : Str} :
    canonicalMIMEHeaderKey name = canonicalMIMEHeaderKey name' ↔
      headerName name = headerName name' := by
  constructor
  · intro h
    have hlower := congrArg headerName h
    rwa [headerName, headerName, canonicalMIMEHeaderKey, canonicalMIMEHeaderKey,
      map_toLower_titled, map_toLower_titled] at hlower
  · intro h
    rw [canonicalMIMEHeaderKey, ← titled_map_toLower true name]
    change titled true (headerName name) = _
    rw [h]
    exact titled_map_toLower true name'

theorem values_cons (entry : Str × List Str) (header : Header) (name : Str) :
    Header.values (entry :: header) name =
      if name = entry.1 then entry.2 else header.values name := by
  rw [Header.values, lookup_cons_entry]
  by_cases h : name = entry.1
  · rw [if_pos h, if_pos h]
    rfl
  · rw [if_neg h, if_neg h]
    rfl

theorem values_add (header : Header) (key value name : Str) :
    (Header.add header key value).values name =
      if name = canonicalMIMEHeaderKey key then header.values name ++ [value]
      else header.values name := by
  induction header with
  | nil => exact values_cons _ _ _
  | cons entry header ih =>
    unfold Header.add
    by_cases hentry : entry.1 = canonicalMIMEHeaderKey key
    · rw [if_pos hentry, values_cons, values_cons, ← hentry]
      by_cases h : name = entry.1
      · rw [if_pos h, if_pos h, if_pos h]
      · rw [if_neg h, if_neg h, if_neg h]
    · rw [if_neg hentry, values_cons, values_cons, ih]
      by_cases h : name = entry.1
      · rw [if_pos h, if_pos h, if_neg (by rwa [h])]
      · rw [if_neg h, if_neg h]

theorem values_ofFields (fields : List (Str × Str)) (name : Str) :
    (Header.ofFields fields).values name =
      (fields.filter fun field => canonicalMIMEHeaderKey field.1 = name).map Prod.snd := by
  have hfold : ∀ header : Header,
      (fields.foldl (fun header (field : Str × Str) => Header.add header field.1 field.2)
        header).values name = header.values name ++
          (fields.filter fun field => canonicalMIMEHeaderKey field.1 = name).map Prod.snd := by
    induction fields with
    | nil => exact fun header => (List.append_nil _).symm
    | cons field fields ih =>
      intro header
      rw [List.foldl_cons, ih, values_add]
      by_cases h : name = canonicalMIMEHeaderKey field.1
      · rw [if_pos h, List.filter_cons_of_pos (by simpa using h.symm), List.map_cons,
          List.append_assoc, List.singleton_append]
      · rw [if_neg h, List.filter_cons_of_neg (by simpa using fun heq => h heq.symm)]
  exact hfold []

/-- Looking up a header finds what it finds in Rust. -/
theorem get_ofFields (fields : List (Str × Str)) (name : Str) :
    (Header.ofFields fields).get name =
      (HeaderMap.get (fields.map fun (name, value) => (headerName name, value)) name).getD [] := by
  rw [Header.get, values_ofFields, HeaderMap.get]
  induction fields with
  | nil => rfl
  | cons field fields ih =>
    rw [List.map_cons, lookup_cons_entry]
    by_cases h : headerName name = headerName field.1
    · have hcanonical := canonicalMIMEHeaderKey_eq_iff.mpr h.symm
      rw [if_pos h, List.filter_cons_of_pos (by simpa using hcanonical)]
      rfl
    · have hcanonical := mt canonicalMIMEHeaderKey_eq_iff.mp fun heq => h heq.symm
      rw [if_neg h, List.filter_cons_of_neg (by simpa using hcanonical)]
      exact ih

/-! ### Sending a request -/

/-- What is called of `net/http` and `httpguts`. -/
structure HttpModule where
  /-- `httpguts.ValidHeaderFieldName` -/
  validHeaderFieldName : Str → Bool
  /-- `httpguts.ValidHeaderFieldValue` -/
  validHeaderFieldValue : Str → Bool
  /-- `http.NewRequestWithContext`, for a GET of the url -/
  newRequest : Str → Except Str Unit

/-- The first header that cannot be sent. -/
def checkHeaders (module : HttpModule) : Header → Except Error Unit
  | [] => .ok ()
  | (name, values) :: headers =>
    if !module.validHeaderFieldName name then
      .error (.invalidArgument ⟨"%w: invalid header name %q".toList, [name]⟩)
    else if values.any fun value => !module.validHeaderFieldValue value then
      .error (.invalidArgument ⟨"%w: invalid value of header %q".toList, [name]⟩)
    else checkHeaders module headers

/-- The headers of the request with the P2P related ones applied. -/
def GetRequest.proxyHeaders (module : HttpModule) (r : GetRequest) : Except Error Header := do
  let headers := r.header
  let headers := match r.pieceLength with
    | some pieceLength =>
      Header.set headers "X-Dragonfly-Piece-Length".toList pieceLength.repr.toList
    | none => headers
  let headers := if r.tag ≠ [] then Header.set headers "X-Dragonfly-Tag".toList r.tag else headers
  let headers := if r.application ≠ [] then
    Header.set headers "X-Dragonfly-Application".toList r.application else headers
  let headers := if r.contentForCalculatingTaskId ≠ [] then
    Header.set headers "X-Dragonfly-Content-For-Calculating-Task-ID".toList
      r.contentForCalculatingTaskId else headers
  let headers := Header.set headers "X-Dragonfly-Enable-Task-ID-Based-Blob-Digest".toList
    (toString r.enableTaskIdBasedBlobDigest).toList
  let headers := match r.priority with
    | some priority => Header.set headers "X-Dragonfly-Priority".toList (toString priority).toList
    | none => headers
  let headers := if 0 < r.filteredQueryParams.length then
    Header.set headers "X-Dragonfly-Filtered-Query-Params".toList
      (",".toList.intercalate r.filteredQueryParams) else headers
  let headers := Header.set headers "X-Dragonfly-Use-P2P".toList "true".toList
  checkHeaders module headers
  return headers

/-- `http.Response`; the body is what is read of it, whether it ends in an error or not. -/
structure Response where
  statusCode : Nat
  header : Header
  body : List UInt8
deriving DecidableEq, Repr

/-- A response received via the Dragonfly; the body is what is still to be read of it. -/
structure GetResponse where
  success : Bool
  header : Header
  statusCode : Nat
  body : List UInt8
deriving DecidableEq, Repr

def GetResponse.ofResponse (resp : Response) : GetResponse :=
  ⟨true, resp.header, resp.statusCode, resp.body⟩

/-- What `Do` fails with. -/
inductive DoError
  | deadlineExceeded (err : Str)
  | failed (err : Str)
deriving DecidableEq, Repr

/-- A client of a proxy: what comes of a GET request for a url with some headers. -/
abbrev Client := Str → Header → Except DoError Response

/-- The answer an error reports, and of which kind it is. -/
def Error.answer : Error → Option (AnswerKind × AnswerError)
  | .backendError error => some (.backend, error)
  | .proxyError error => some (.proxy, error)
  | .dfdaemonError error => some (.dfdaemon, error)
  | _ => none

/-- The error of a response that is not `2xx`. -/
def answerErrorOf (resp : Response) : Error :=
  let errorType := resp.header.get "X-Dragonfly-Error-Type".toList
  if errorType = "backend".toList then .backendError ⟨resp.body, resp.header, resp.statusCode⟩
  else if errorType = "proxy".toList then .proxyError ⟨resp.body, resp.header, resp.statusCode⟩
  else if errorType = "dfdaemon".toList then
    .dfdaemonError ⟨resp.body, resp.header, resp.statusCode⟩
  else if errorType = [] then .proxyError
    ⟨utf8 ("unexpected status code from proxy: ".toList ++ resp.statusCode.repr.toList),
      resp.header, resp.statusCode⟩
  else .proxyError ⟨utf8 ("unknown error type from proxy: ".toList ++ errorType), resp.header,
    resp.statusCode⟩

/-- Sends the request once. -/
def GetRequest.send (module : HttpModule) (r : GetRequest) (client : Client) :
    Except Error Response := do
  let headers ← r.proxyHeaders module
  match module.newRequest r.url with
  | .error err => .error (.invalidArgument ⟨"%w: %v".toList, [err]⟩)
  | .ok () =>
    match client r.url headers with
    | .error (.deadlineExceeded err) => .error (.requestTimeout ⟨"%w: %v".toList, [err]⟩)
    | .error (.failed err) => .error (.internal ⟨"%w: %v".toList, [err]⟩)
    | .ok resp =>
      if 200 ≤ resp.statusCode && resp.statusCode < 300 then .ok resp
      else .error (answerErrorOf resp)

theorem answer_answerErrorOf (resp : Response) :
    ∃ error, (answerErrorOf resp).answer = some
        (answerKind (resp.header.get "X-Dragonfly-Error-Type".toList), error) ∧
      error.statusCode = resp.statusCode := by
  unfold answerErrorOf answerKind
  generalize resp.header.get "X-Dragonfly-Error-Type".toList = errorType
  by_cases hbackend : errorType = "backend".toList
  · simp only [if_pos hbackend]
    exact ⟨_, rfl, rfl⟩
  · by_cases hproxy : errorType = "proxy".toList
    · rw [hproxy]
      exact ⟨_, rfl, rfl⟩
    · by_cases hdfdaemon : errorType = "dfdaemon".toList
      · rw [hdfdaemon]
        exact ⟨_, rfl, rfl⟩
      · simp only [if_neg hbackend, if_neg hproxy, if_neg hdfdaemon]
        by_cases hnone : errorType = []
        · rw [if_pos hnone]
          exact ⟨_, rfl, rfl⟩
        · rw [if_neg hnone]
          exact ⟨_, rfl, rfl⟩

end DragonflySdk.Go
