import DragonflySdk.Foundation.StableSort
import DragonflySdk.Foundation.Percent
import DragonflySdk.Errors

/-!
# Canonical urls

`url.rs`: `filterQueryParams` drops the filtered parameters of a url, sorts the remaining ones by
key and writes them back, which is the url a task id is generated from.

The url crate is a parameter (`UrlCrate`) for what it does up to the path: scheme, authority and
path normalization. What it does around them is its documented behavior: text is trimmed, tabs and
line breaks are dropped, the first `#` starts the fragment and the first `?` before it the query,
and both are percent-encoded.
-/

namespace DragonflySdk

open Foundation

/-! ### The url crate -/

/-- A url up to its path, as parsed. -/
structure UrlParts where
  scheme : Str
  username : Str
  password : Option Str
  host : Option Str
  port : Option Nat
  path : Str
deriving DecidableEq, Repr

namespace UrlParts

def userinfo (p : UrlParts) : Str :=
  match p.password with
  | some password => p.username ++ ':' :: password ++ ['@']
  | none => if p.username = [] then [] else p.username ++ ['@']

/-- `&url[..Position::BeforePath]` -/
def beforePath (p : UrlParts) : Str :=
  p.scheme ++ ':' :: match p.host with
    | some host => "//".toList ++ p.userinfo ++ host ++
        match p.port with
        | some port => ':' :: port.repr.toList
        | none => []
    | none => if "//".toList.isPrefixOf p.path then "/.".toList else []

/-- `is_special` -/
def isSpecial (p : UrlParts) : Bool :=
  ["http", "https", "ws", "wss", "ftp", "file"].any (·.toList = p.scheme)

end UrlParts

/-- A url up to its path: no `?` and no `#` is left in its serialization. -/
structure UrlBase extends UrlParts where
  noDelimiter : ∀ c ∈ toUrlParts.beforePath ++ toUrlParts.path, c ≠ '?' ∧ c ≠ '#'

/-- What the url crate does with the text before the query: the url up to its path, or the text of
the parse error. -/
structure UrlCrate where
  parseBase : Str → Except Str UrlBase

structure Url where
  base : UrlBase
  query : Option Str
  fragment : Option Str

def c0ControlOrSpace (c : Char) : Bool := c.toNat ≤ 0x20

def notTabOrNewline (c : Char) : Bool := !(c == '\t' || c == '\n' || c == '\r')

/-- The bytes of a query that are percent-encoded, besides those outside ASCII. -/
def querySet (isSpecial : Bool) (b : UInt8) : Bool :=
  b < 32 || b == 127 || b == 32 || b == 34 || b == 35 || b == 60 || b == 62 ||
    (isSpecial && b == 39)

/-- The bytes of a fragment that are percent-encoded, besides those outside ASCII. -/
def fragmentSet (b : UInt8) : Bool :=
  b < 32 || b == 127 || b == 32 || b == 34 || b == 60 || b == 62 || b == 96

namespace Url

/-- `Url::parse` -/
def parse (crate : UrlCrate) (input : Str) : Except Str Url :=
  let input := ((input.dropWhile c0ControlOrSpace).rdropWhile c0ControlOrSpace).filter notTabOrNewline
  let (input, fragment) := cut '#' input
  let (input, query) := cut '?' input
  (crate.parseBase input).map fun base =>
    { base
      query := query.map (utf8PercentEncode (querySet base.isSpecial))
      fragment := fragment.map (utf8PercentEncode fragmentSet) }

/-- `set_query` -/
def setQuery (url : Url) (query : Option Str) : Url :=
  { url with
    query := query.map fun q =>
      utf8PercentEncode (querySet url.base.isSpecial) (q.filter notTabOrNewline) }

/-- `&url[Position::AfterPath..]` -/
def afterPath (url : Url) : Str :=
  (match url.query with
    | some query => '?' :: query
    | none => []) ++
  match url.fragment with
  | some fragment => '#' :: fragment
  | none => []

/-- The serialization of the url. -/
def toStr (url : Url) : Str := url.base.beforePath ++ url.base.path ++ url.afterPath

end Url

/-! ### Form parameters -/

/-- The name and the value of a sequence `name=value`, decoded. -/
def formSequence (sequence : Str) : Str × Str :=
  let (name, value) := cut '=' sequence
  (fromUtf8Lossy (formDecode (utf8 name)), fromUtf8Lossy (formDecode (utf8 (value.getD []))))

/-- `form_urlencoded::parse` -/
def formUrlencodedParse (input : Str) : List (Str × Str) :=
  ((input.splitOn '&').filter (· ≠ [])).map formSequence

/-! ### Canonicalization -/

/-- Escapes the text so it can be safely placed inside a url query. -/
def queryEscape (s : Str) : Str := formEscape (utf8 s)

/-- The parameters of a query that are not filtered, decoded, in order of appearance. -/
def queryPairs (query : Str) (filteredQueryParams : List Str) : List (Str × Str) :=
  (((query.splitOn '&').filter fun segment => !segment.contains ';').flatMap
    formUrlencodedParse).filter fun (k, _) => !filteredQueryParams.contains k

/-- The query of the parameters sorted by key; none without a parameter. -/
def canonicalQuery (queryPairs : List (Str × Str)) : Option Str :=
  let queryPairs := sortByKey (fun p => textOrder p.1) queryPairs
  if queryPairs = [] then none
  else some (['&'].intercalate
    (queryPairs.map fun (k, v) => queryEscape k ++ '=' :: queryEscape v))

/-- Returns whether the url has an empty path, splitting the authority like Go's `url.parse`. -/
def hasEmptyPath (url : Str) : Bool :=
  match afterFirst "://".toList url with
  | some rest => !(rest.takeWhile fun c => c != '?' && c != '#').contains '/'
  | none => false

/-- Filters and sorts the query parameters by key to canonicalize the url. -/
def filterQueryParams (crate : UrlCrate) (url : Str) (filteredQueryParams : List Str) :
    Except Error Str :=
  if filteredQueryParams = [] then .ok url
  else
    match Url.parse crate url with
    | .error err => .error (.invalidArgument ("invalid url: ".toList ++ err))
    | .ok parsed =>
      let canonical := parsed.setQuery
        (canonicalQuery (queryPairs (parsed.query.getD []) filteredQueryParams))
      if hasEmptyPath url then .ok (canonical.base.beforePath ++ canonical.afterPath)
      else .ok canonical.toStr

theorem exists_filterQueryParams_iff {crate : UrlCrate} {url : Str}
    {filteredQueryParams : List Str} :
    (∃ canonical, filterQueryParams crate url filteredQueryParams = .ok canonical) ↔
      filteredQueryParams = [] ∨ ∃ parsed, Url.parse crate url = .ok parsed := by
  unfold filterQueryParams
  by_cases hparams : filteredQueryParams = []
  · rw [if_pos hparams]
    exact iff_of_true ⟨url, rfl⟩ (.inl hparams)
  · rw [if_neg hparams, or_iff_right hparams]
    rcases Url.parse crate url with err | parsed
    · exact ⟨nofun, nofun⟩
    · refine iff_of_true ?_ ⟨parsed, rfl⟩
      simp only
      split
      · exact ⟨_, rfl⟩
      · exact ⟨_, rfl⟩

end DragonflySdk
