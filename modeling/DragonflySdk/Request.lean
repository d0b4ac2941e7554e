import DragonflySdk.Url

/-!
# Requests

The requests of `lib.rs` and their `validate`. The fields a task id is generated from are the same
in all of them (`TaskFields`).
-/

namespace DragonflySdk

open Foundation

/-- `http::HeaderMap`, in order of insertion. -/
abbrev HeaderMap := List (Str × Str)

/-- `HeaderValue::to_str`: visible text only. -/
def toStr (value : Str) : Option Str :=
  if value.all fun c => c = '\t' ∨ ' ' ≤ c ∧ c ≤ '~' then some value else none

/-- Sets an entry in the place of those of the same key. -/
def setEntry (entries : List (Str × Str)) (key value : Str) : List (Str × Str) :=
  entries.filter (fun entry => entry.1 ≠ key) ++ [(key, value)]

/-- `headermap_to_hashmap`: the headers whose value is visible text, one entry for each name. -/
def headermapToHashmap (header : HeaderMap) : List (Str × Str) :=
  header.foldl (fun hashmap (key, value) =>
    if (toStr value).isSome then setEntry hashmap key value else hashmap) []

/-- A `Duration`, in nanoseconds. -/
abbrev Duration := Nat

/-- The seed peers a preheat or delete addresses. -/
inductive Scope
  | default | allSeedPeers
deriving DecidableEq, Repr

/-- The fields of a request its task id is generated from. -/
structure TaskFields where
  url : Str
  pieceLength : Option Nat
  tag : Option Str
  application : Option Str
  filteredQueryParams : List Str
  contentForCalculatingTaskId : Option Str
  enableTaskIdBasedBlobDigest : Bool
deriving DecidableEq, Repr

/-- What every `validate` checks first. -/
def validateReplicas (replicas : Nat) : Except Error Unit :=
  if replicas = 0 then .error (.invalidArgument "replicas must be positive".toList) else .ok ()

theorem validateReplicas_eq_ok {replicas : Nat} :
    validateReplicas replicas = .ok () ↔ 0 < replicas := by
  unfold validateReplicas
  by_cases h : replicas = 0
  · rw [if_pos h]
    exact ⟨nofun, by omega⟩
  · rw [if_neg h]
    exact ⟨fun _ => by omega, fun _ => rfl⟩

/-- A GET request to be sent via the Dragonfly. -/
structure GetRequest extends TaskFields where
  header : HeaderMap
  priority : Option Int
  replicas : Nat
  timeout : Duration

/-- Validates the request parameters. -/
def GetRequest.validate (crate : UrlCrate) (request : GetRequest) : Except Error Unit :=
  match validateReplicas request.replicas with
  | .error err => .error err
  | .ok () =>
    match Url.parse crate request.url with
    | .error err => .error (.invalidArgument
        ("invalid url ".toList ++ request.url ++ ": ".toList ++ err))
    | .ok url =>
      if url.base.scheme = "http".toList ∨ url.base.scheme = "https".toList then .ok ()
      else .error (.invalidArgument
        ("url ".toList ++ request.url ++ " must be http or https".toList))

theorem GetRequest.replicas_pos {crate : UrlCrate} {request : GetRequest}
    (h : request.validate crate = .ok ()) : 0 < request.replicas := by
  unfold validate at h
  split at h
  · simp at h
  · rename_i hreplicas
    exact validateReplicas_eq_ok.mp hreplicas

/-- A request to preheat a file. -/
structure PreheatRequest extends TaskFields where
  header : HeaderMap
  priority : Option Int
  replicas : Nat
  scope : Scope
  timeout : Duration

/-- Validates the request parameters. -/
def PreheatRequest.validate (request : PreheatRequest) : Except Error Unit :=
  validateReplicas request.replicas

/-- A request to delete a preheated file. -/
structure DeleteRequest extends TaskFields where
  replicas : Nat
  scope : Scope
  timeout : Duration

/-- Validates the request parameters. -/
def DeleteRequest.validate (request : DeleteRequest) : Except Error Unit :=
  validateReplicas request.replicas

/-- A request to preheat the blobs of an image; the url of `TaskFields` is that of each blob. -/
structure PreheatImageRequest where
  image : Str
  username : Option Str
  password : Option Str
  platform : Option Str
  pieceLength : Option Nat
  tag : Option Str
  application : Option Str
  filteredQueryParams : List Str
  contentForCalculatingTaskId : Option Str
  enableTaskIdBasedBlobDigest : Bool
  priority : Option Int
  replicas : Nat
  scope : Scope
  timeout : Duration
  concurrentTaskCount : Nat

/-- Validates the request parameters. -/
def PreheatImageRequest.validate (request : PreheatImageRequest) : Except Error Unit :=
  match validateReplicas request.replicas with
  | .error err => .error err
  | .ok () =>
    if request.concurrentTaskCount = 0 then
      .error (.invalidArgument "concurrent task count must be positive".toList)
    else .ok ()

/-- A request to delete a preheated image. -/
structure DeleteImageRequest where
  image : Str
  username : Option Str
  password : Option Str
  platform : Option Str
  pieceLength : Option Nat
  tag : Option Str
  application : Option Str
  filteredQueryParams : List Str
  contentForCalculatingTaskId : Option Str
  enableTaskIdBasedBlobDigest : Bool
  replicas : Nat
  scope : Scope
  timeout : Duration
  concurrentTaskCount : Nat

/-- Validates the request parameters. -/
def DeleteImageRequest.validate (request : DeleteImageRequest) : Except Error Unit :=
  match validateReplicas request.replicas with
  | .error err => .error err
  | .ok () =>
    if request.concurrentTaskCount = 0 then
      .error (.invalidArgument "concurrent task count must be positive".toList)
    else .ok ()

end DragonflySdk
