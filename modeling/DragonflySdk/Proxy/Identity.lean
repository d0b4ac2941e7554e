import DragonflySdk.Proxy.Replicas
import DragonflySdk.Response.Retry

/-!
# The identity a request is sent with

The task of a GET request follows from its fields, and so do the seed peers it is sent to. Its
headers tell the seed peer of the same fields: each is set where the field is given, and replaces what
the user's headers say. A field that is not given leaves its header as the user set it; and Go's
headers may have a name in another spelling beside the one that is set. Apart from these, what is sent
identifies the task of the request (`proxy_headers_identity_iff`).
-/

namespace DragonflySdk

open Foundation

/-! ### Setting headers -/

/-- A header, and the value it is set to, if it is. -/
abbrev Setting := Str × Option Str

section
variable (strays : Str → List Str)

/-- The values of each name after one header is set, beside those that stay anyway. -/
def setOne (values : Str → List Str) (setting : Setting) (name : Str) : List Str :=
  match setting.2 with
  | none => values name
  | some value =>
    if headerName name = headerName setting.1 then strays name ++ [value] else values name

/-- The values of each name after some headers are set. -/
def setAll (settings : List Setting) (values : Str → List Str) : Str → List Str :=
  settings.foldl (setOne strays) values

/-- The spelling of a name does not matter. -/
def CaseInsensitive (values : Str → List Str) : Prop :=
  ∀ {name name' : Str}, headerName name = headerName name' → values name = values name'

variable {strays} {settings : List Setting} {values : Str → List Str}

theorem CaseInsensitive.setAll (h : CaseInsensitive values) (hstrays : CaseInsensitive strays)
    (settings : List Setting) : CaseInsensitive (setAll strays settings values) := by
  induction settings generalizing values with
  | nil => exact h
  | cons setting settings ih =>
    rw [DragonflySdk.setAll, List.foldl_cons]
    refine ih fun {name name'} hname => ?_
    unfold setOne
    cases setting.2 with
    | none => exact h hname
    | some value => rw [hname, h hname, hstrays hname]

theorem setOne_self (setting : Setting) : setOne strays values setting setting.1 =
    match setting.2 with
    | none => values setting.1
    | some value => strays setting.1 ++ [value] := by
  unfold setOne
  cases setting.2 with
  | none => rfl
  | some value => exact if_pos rfl

theorem setOne_of_ne {setting : Setting} {name : Str}
    (h : setting.2.isSome = true → headerName setting.1 ≠ headerName name) :
    setOne strays values setting name = values name := by
  unfold setOne
  rcases hvalue : setting.2 with _ | value
  · rfl
  · exact if_neg fun heq => h (by rw [hvalue]; rfl) heq.symm

theorem setAll_of_ne {name : Str} (h : ∀ setting ∈ settings, setting.2.isSome = true →
      headerName setting.1 ≠ headerName name) : setAll strays settings values name = values name := by
  induction settings generalizing values with
  | nil => rfl
  | cons setting settings ih =>
    obtain ⟨hfirst, hrest⟩ := List.forall_mem_cons.mp h
    rw [setAll, List.foldl_cons]
    exact (ih hrest).trans (setOne_of_ne hfirst)

theorem setAll_of_mem (hdistinct : settings.Pairwise fun a b => headerName a.1 ≠ headerName b.1)
    {setting : Setting} (hmem : setting ∈ settings) :
    setAll strays settings values setting.1 = setOne strays values setting setting.1 := by
  induction settings generalizing values with
  | nil => cases hmem
  | cons first settings ih =>
    obtain ⟨hfirst, hrest⟩ := List.pairwise_cons.mp hdistinct
    rw [setAll, List.foldl_cons]
    rcases List.mem_cons.mp hmem with rfl | hmem
    · exact setAll_of_ne fun other hother _ heq => hfirst other hother heq.symm
    · have hother : setOne strays values first setting.1 = values setting.1 :=
        setOne_of_ne fun _ => hfirst setting hmem
      refine (ih hrest hmem).trans ?_
      rw [setOne_self, setOne_self]
      cases setting.2 with
      | none => exact hother
      | some value => rfl

end

/-! ### The headers of the request -/

/-- What tells one task from another, as the values of the headers it is sent in. -/
structure Identity where
  tag : Option Str
  application : Option Str
  pieceLength : Option Str
  contentForCalculatingTaskId : Option Str
  filteredQueryParams : Option Str
deriving DecidableEq

namespace Identity

variable (identity : Identity)

def settings : List Setting :=
  [("X-Dragonfly-Tag".toList, identity.tag),
    ("X-Dragonfly-Application".toList, identity.application),
    ("X-Dragonfly-Piece-Length".toList, identity.pieceLength),
    ("X-Dragonfly-Content-For-Calculating-Task-ID".toList, identity.contentForCalculatingTaskId),
    ("X-Dragonfly-Filtered-Query-Params".toList, identity.filteredQueryParams)]

/-- The header that carries the flag. -/
def flagName : Str := "X-Dragonfly-Enable-Task-ID-Based-Blob-Digest".toList

/-- What is set beside these. -/
def otherSettings (priority : Option Int) : List Setting :=
  [("X-Dragonfly-Priority".toList, priority.map fun priority => (toString priority).toList),
    ("X-Dragonfly-Use-P2P".toList, some "true".toList)]

/-- All that is set, in the order in which it is. -/
def allSettings (flag : Bool) (priority : Option Int) : List Setting :=
  [("X-Dragonfly-Piece-Length".toList, identity.pieceLength),
    ("X-Dragonfly-Tag".toList, identity.tag),
    ("X-Dragonfly-Application".toList, identity.application),
    ("X-Dragonfly-Content-For-Calculating-Task-ID".toList, identity.contentForCalculatingTaskId),
    (flagName, some (toString flag).toList),
    ("X-Dragonfly-Priority".toList, priority.map fun priority => (toString priority).toList),
    ("X-Dragonfly-Filtered-Query-Params".toList, identity.filteredQueryParams),
    ("X-Dragonfly-Use-P2P".toList, some "true".toList)]

/-- The headers that identify the task. -/
def names : List Str := flagName :: (identity.settings.map Prod.fst)

theorem mem_allSettings_of_mem {flag : Bool} {priority : Option Int} {setting : Setting}
    (h : setting ∈ identity.settings) : setting ∈ identity.allSettings flag priority := by
  rcases h with _ | ⟨_, h⟩
  · exact .tail _ (.head _)
  · rcases h with _ | ⟨_, h⟩
    · exact .tail _ (.tail _ (.head _))
    · rcases h with _ | ⟨_, h⟩
      · exact .head _
      · rcases h with _ | ⟨_, h⟩
        · exact .tail _ (.tail _ (.tail _ (.head _)))
        · rcases h with _ | ⟨_, h⟩
          · exact .tail _ (.tail _ (.tail _ (.tail _ (.tail _ (.tail _ (.head _))))))
          · cases h

theorem allSettings_pairwise (flag : Bool) (priority : Option Int) :
    (identity.allSettings flag priority).Pairwise fun a b => headerName a.1 ≠ headerName b.1 := by
  have hnames : ((identity.allSettings flag priority).map Prod.fst).Pairwise
      fun a b => headerName a ≠ headerName b := by
    change ["X-Dragonfly-Piece-Length".toList, "X-Dragonfly-Tag".toList,
      "X-Dragonfly-Application".toList, "X-Dragonfly-Content-For-Calculating-Task-ID".toList,
      flagName, "X-Dragonfly-Priority".toList, "X-Dragonfly-Filtered-Query-Params".toList,
      "X-Dragonfly-Use-P2P".toList].Pairwise fun a b => headerName a ≠ headerName b
    decide +kernel
  exact (List.pairwise_map (f := Prod.fst)).mp hnames

variable {identity} {flag : Bool} {priority : Option Int} {strays user sent sent' : Str → List Str}

/-- What is sent says of the task what the request does; the user's other headers are sent as they
are, and nothing beside them but for what else the request sets. -/
structure Sends (identity : Identity) (flag : Bool) (priority : Option Int)
    (user sent : Str → List Str) : Prop where
  carried : ∀ setting ∈ identity.settings, sent setting.1 = setting.2.toList
  flagged : sent flagName = [(toString flag).toList]
  unchanged : ∀ name, (∀ other ∈ identity.names, headerName other ≠ headerName name) →
    user name ≠ [] → sent name = user name
  others : ∀ name, (∀ other ∈ identity.names, headerName other ≠ headerName name) →
    (priority.isSome = true → headerName "X-Dragonfly-Priority".toList ≠ headerName name) →
    headerName "X-Dragonfly-Use-P2P".toList ≠ headerName name → sent name = user name

/-- The user has no header for a field that is not given, none that stays beside one that is, and for
what is set beside the fields none that says otherwise. -/
structure Unclaimed (identity : Identity) (priority : Option Int) (strays user : Str → List Str) :
    Prop where
  absent : ∀ setting ∈ identity.settings, setting.2 = none → user setting.1 = []
  given : ∀ setting ∈ identity.settings, setting.2.isSome = true → strays setting.1 = []
  flagged : strays flagName = []
  agreed : ∀ setting ∈ otherSettings priority, ∀ value ∈ setting.2,
    user setting.1 = [] ∨ user setting.1 = strays setting.1 ++ [value]

theorem setAll_settings {setting : Setting} (h : setting ∈ identity.settings) :
    setAll strays (identity.allSettings flag priority) user setting.1 =
      match setting.2 with
      | none => user setting.1
      | some value => strays setting.1 ++ [value] :=
  (setAll_of_mem (identity.allSettings_pairwise flag priority)
    (identity.mem_allSettings_of_mem h)).trans (setOne_self setting)

theorem setAll_flagName :
    setAll strays (identity.allSettings flag priority) user flagName =
      strays flagName ++ [(toString flag).toList] := by
  have hmem : ((flagName, some (toString flag).toList) : Setting) ∈
      identity.allSettings flag priority :=
    .tail _ (.tail _ (.tail _ (.tail _ (.head _))))
  exact (setAll_of_mem (identity.allSettings_pairwise flag priority) hmem).trans (setOne_self _)

theorem setAll_other {name : Str}
    (hname : ∀ other ∈ identity.names, headerName other ≠ headerName name)
    (hpriority : priority.isSome = true →
      headerName "X-Dragonfly-Priority".toList ≠ headerName name)
    (huse : headerName "X-Dragonfly-Use-P2P".toList ≠ headerName name) :
    setAll strays (identity.allSettings flag priority) user name = user name := by
  have hset : ∀ setting ∈ identity.settings, headerName setting.1 ≠ headerName name :=
    fun setting hmem => hname setting.1 (List.mem_cons_of_mem _ (List.mem_map_of_mem hmem))
  have hflag : headerName flagName ≠ headerName name := hname flagName List.mem_cons_self
  apply setAll_of_ne
  intro setting hmem hsome
  rcases hmem with _ | ⟨_, hmem⟩
  · exact hset _ (.tail _ (.tail _ (.head _)))
  rcases hmem with _ | ⟨_, hmem⟩
  · exact hset _ (.head _)
  rcases hmem with _ | ⟨_, hmem⟩
  · exact hset _ (.tail _ (.head _))
  rcases hmem with _ | ⟨_, hmem⟩
  · exact hset _ (.tail _ (.tail _ (.tail _ (.head _))))
  rcases hmem with _ | ⟨_, hmem⟩
  · exact hflag
  rcases hmem with _ | ⟨_, hmem⟩
  · exact hpriority (by rwa [Option.isSome_map] at hsome)
  rcases hmem with _ | ⟨_, hmem⟩
  · exact hset _ (.tail _ (.tail _ (.tail _ (.tail _ (.head _)))))
  rcases hmem with _ | ⟨_, hmem⟩
  · exact huse
  · cases hmem

theorem mem_allSettings_of_mem_otherSettings {setting : Setting}
    (h : setting ∈ otherSettings priority) : setting ∈ identity.allSettings flag priority := by
  rcases h with _ | ⟨_, h⟩
  · exact .tail _ (.tail _ (.tail _ (.tail _ (.tail _ (.head _)))))
  · rcases h with _ | ⟨_, h⟩
    · exact .tail _ (.tail _ (.tail _ (.tail _ (.tail _ (.tail _ (.tail _ (.head _)))))))
    · cases h

theorem notMem_names_of_mem_otherSettings {setting : Setting}
    (h : setting ∈ otherSettings priority) :
    ∀ other ∈ identity.names, headerName other ≠ headerName setting.1 := by
  have hnames : ∀ name ∈ (otherSettings priority).map Prod.fst, ∀ other ∈ identity.names,
      headerName other ≠ headerName name := by
    change ∀ name ∈ ["X-Dragonfly-Priority".toList, "X-Dragonfly-Use-P2P".toList], ∀ other ∈
      [flagName, "X-Dragonfly-Tag".toList, "X-Dragonfly-Application".toList,
        "X-Dragonfly-Piece-Length".toList, "X-Dragonfly-Content-For-Calculating-Task-ID".toList,
        "X-Dragonfly-Filtered-Query-Params".toList], headerName other ≠ headerName name
    decide +kernel
  exact hnames setting.1 (List.mem_map_of_mem h)

/-- A header that is set beside the fields is sent with its value, however it is spelled. -/
theorem setAll_otherSettings (huser : CaseInsensitive user) (hstrays : CaseInsensitive strays)
    {setting : Setting} (hmem : setting ∈ otherSettings priority) {value : Str}
    (hvalue : setting.2 = some value) {name : Str} (hname : headerName setting.1 = headerName name) :
    setAll strays (identity.allSettings flag priority) user name = strays name ++ [value] := by
  have hset : setAll strays (identity.allSettings flag priority) user setting.1 =
      setOne strays user setting setting.1 :=
    setAll_of_mem (identity.allSettings_pairwise flag priority)
      (mem_allSettings_of_mem_otherSettings hmem)
  rw [setOne_self, hvalue, huser.setAll hstrays _ hname, hstrays hname] at hset
  exact hset

/-- **What is sent identifies the task** if and only if the user has no header for what the request
does not say, or says otherwise. -/
theorem sends_setAll_iff (huser : CaseInsensitive user) (hstrays : CaseInsensitive strays) :
    identity.Sends flag priority user (setAll strays (identity.allSettings flag priority) user) ↔
      identity.Unclaimed priority strays user := by
  have hflag : setAll strays (identity.allSettings flag priority) user flagName =
      [(toString flag).toList] ↔ strays flagName = [] := by
    rw [setAll_flagName]
    exact List.append_left_eq_self
  constructor
  · intro h
    refine ⟨?_, ?_, hflag.mp h.flagged, ?_⟩
    · intro setting hmem hnone
      have hcarried := h.carried setting hmem
      rw [setAll_settings hmem, hnone] at hcarried
      exact hcarried
    · intro setting hmem hsome
      have hcarried := h.carried setting hmem
      obtain ⟨value, hvalue⟩ := Option.isSome_iff_exists.mp hsome
      rw [setAll_settings hmem, hvalue] at hcarried
      exact List.append_left_eq_self.mp hcarried
    · intro setting hmem value hvalue
      by_cases hnone : user setting.1 = []
      · exact .inl hnone
      · right
        rw [← setAll_otherSettings huser hstrays hmem hvalue rfl]
        exact (h.unchanged setting.1 (notMem_names_of_mem_otherSettings hmem) hnone).symm
  · intro h
    refine ⟨?_, hflag.mpr h.flagged, ?_, fun name => setAll_other⟩
    · intro setting hmem
      rw [setAll_settings hmem]
      rcases hvalue : setting.2 with _ | value
      · exact h.absent setting hmem hvalue
      · have hnone := h.given setting hmem (by rw [hvalue]; rfl)
        exact List.append_left_eq_self.mpr hnone
    · intro name hname huserName
      by_cases hset : ∃ setting ∈ otherSettings priority, ∃ value, setting.2 = some value ∧
          headerName setting.1 = headerName name
      · obtain ⟨setting, hmem, value, hvalue, hsame⟩ := hset
        rw [setAll_otherSettings huser hstrays hmem hvalue hsame]
        have hagreed := h.agreed setting hmem value hvalue
        rw [huser hsame, hstrays hsame] at hagreed
        exact (hagreed.resolve_left huserName).symm
      · refine setAll_other hname (fun hsome hsame => hset ?_) fun hsame => hset ?_
        · obtain ⟨value, rfl⟩ := Option.isSome_iff_exists.mp hsome
          exact ⟨_, .head _, _, rfl, hsame⟩
        · exact ⟨_, .tail _ (.head _), _, rfl, hsame⟩

theorem Sends.alike (h : identity.Sends flag priority user sent) {user' : Str → List Str}
    (h' : identity.Sends flag priority user' sent') : ∀ name ∈ identity.names,
      sent name = sent' name := by
  intro name hname
  rcases List.mem_cons.mp hname with rfl | hname
  · exact h.flagged.trans h'.flagged.symm
  · obtain ⟨setting, hmem, rfl⟩ := List.mem_map.mp hname
    exact (h.carried setting hmem).trans (h'.carried setting hmem).symm

end Identity

/-! ### In Rust -/

/-- Where headers have no name in two spellings, none stays beside one that is set. -/
def noStrays : Str → List Str := fun _ => []

/-- `HeaderMap::get_all` -/
def HeaderMap.values (header : HeaderMap) (name : Str) : List Str :=
  (header.filter fun entry => entry.1 = headerName name).map Prod.snd

theorem caseInsensitive_noStrays : CaseInsensitive noStrays := fun _ => rfl

theorem HeaderMap.caseInsensitive_values (header : HeaderMap) : CaseInsensitive header.values := by
  intro name name' hname
  unfold HeaderMap.values
  rw [hname]

/-- `HeaderValue::from_str` keeps the text. -/
def HttpCrate.Faithful (crate : HttpCrate) : Prop :=
  ∀ text value, crate.parseValue text = .ok value → value = text

theorem values_insert (header : HeaderMap) (name value : Str) :
    HeaderMap.values (HeaderMap.insert header name value) =
      setOne noStrays header.values (name, some value) := by
  funext other
  unfold HeaderMap.insert setEntry HeaderMap.values setOne noStrays
  simp only [List.filter_append, List.filter_filter, List.map_append, List.nil_append]
  by_cases h : headerName other = headerName name
  · have hnone : (header.filter fun entry =>
        decide (entry.1 = headerName other) && decide (entry.1 ≠ headerName name)) = [] := by
      rw [List.filter_eq_nil_iff]
      simp [h]
    rw [hnone, if_pos h, List.filter_cons_of_pos (by simpa using h.symm)]
    rfl
  · have hsame : (header.filter fun entry =>
        decide (entry.1 = headerName other) && decide (entry.1 ≠ headerName name)) =
          header.filter fun entry => decide (entry.1 = headerName other) := by
      apply List.filter_congr
      intro entry _
      by_cases hentry : entry.1 = headerName other
      · simp [hentry, h]
      · simp [hentry]
    rw [hsame, if_neg h, List.filter_cons_of_neg (by simpa using fun heq => h heq.symm)]
    exact List.append_nil _

theorem values_insertParsed {crate : HttpCrate} (hcrate : crate.Faithful) {name what : Str}
    {value : Option Str} {header headers : HeaderMap}
    (h : insertParsed crate name what value header = .ok headers) :
    headers.values = setOne noStrays header.values (name, value) := by
  unfold insertParsed at h
  rcases value with _ | value
  · obtain rfl := Except.ok.inj h
    rfl
  · rcases hparse : crate.parseValue value with err | parsed
    · simp only [hparse] at h
      cases h
    · simp only [hparse, hcrate value parsed hparse] at h
      obtain rfl := Except.ok.inj h
      exact values_insert header name value

/-- What the fields of a request say. -/
def TaskFields.identity (fields : TaskFields) : Identity where
  tag := fields.tag
  application := fields.application
  pieceLength := fields.pieceLength.map fun pieceLength => pieceLength.repr.toList
  contentForCalculatingTaskId := fields.contentForCalculatingTaskId
  filteredQueryParams := if fields.filteredQueryParams = [] then none
    else some (",".toList.intercalate fields.filteredQueryParams)

theorem values_proxyHeaders {crate : HttpCrate} (hcrate : crate.Faithful) {request : GetRequest}
    {headers : HeaderMap} (h : request.proxyHeaders crate = .ok headers) :
    headers.values = setAll noStrays (request.identity.allSettings
      request.enableTaskIdBasedBlobDigest request.priority) request.header.values := by
  unfold GetRequest.proxyHeaders at h
  obtain ⟨h₁, hpieceLength, h⟩ := bind_eq_ok_iff.mp h
  obtain ⟨h₂, htag, h⟩ := bind_eq_ok_iff.mp h
  obtain ⟨h₃, happlication, h⟩ := bind_eq_ok_iff.mp h
  obtain ⟨h₄, hcontent, h⟩ := bind_eq_ok_iff.mp h
  obtain ⟨h₅, hflag, h⟩ := bind_eq_ok_iff.mp h
  obtain ⟨h₆, hpriority, h⟩ := bind_eq_ok_iff.mp h
  obtain ⟨h₇, hparams, h⟩ := bind_eq_ok_iff.mp h
  obtain rfl := Except.ok.inj h
  rw [values_insert, values_insertParsed hcrate hparams, values_insertParsed hcrate hpriority,
    values_insertParsed hcrate hflag, values_insertParsed hcrate hcontent,
    values_insertParsed hcrate happlication, values_insertParsed hcrate htag,
    values_insertParsed hcrate hpieceLength]
  rfl

namespace Go

/-! ### In Go -/

/-- The values of a name in another spelling than the canonical form. -/
def Header.strays (header : Header) (name : Str) : List Str :=
  (header.filter fun entry =>
    headerName entry.1 = headerName name ∧ entry.1 ≠ canonicalMIMEHeaderKey name).flatMap Prod.snd

/-- The values that are sent for a name, in whatever spelling: those of the canonical form are sent on
their own, here after the others. -/
def Header.wire (header : Header) (name : Str) : List Str :=
  header.strays name ++
    (header.filter fun entry => entry.1 = canonicalMIMEHeaderKey name).flatMap Prod.snd

theorem Header.caseInsensitive_strays (header : Header) : CaseInsensitive header.strays := by
  intro name name' hname
  unfold Header.strays
  rw [hname, canonicalMIMEHeaderKey_eq_iff.mpr hname]

theorem Header.caseInsensitive_wire (header : Header) : CaseInsensitive header.wire := by
  intro name name' hname
  unfold Header.wire
  rw [header.caseInsensitive_strays hname, canonicalMIMEHeaderKey_eq_iff.mpr hname]

theorem headerName_canonical (name : Str) :
    headerName (canonicalMIMEHeaderKey name) = headerName name :=
  map_toLower_titled true name

theorem strays_set (header : Header) (key value : Str) :
    Header.strays (header.set key value) = header.strays := by
  funext name
  unfold Header.set Header.strays
  simp only [List.filter_append, List.filter_filter, List.flatMap_append]
  have hnone : ¬ (headerName (canonicalMIMEHeaderKey key) = headerName name ∧
      canonicalMIMEHeaderKey key ≠ canonicalMIMEHeaderKey name) := by
    rw [headerName_canonical, ← canonicalMIMEHeaderKey_eq_iff]
    intro h
    exact h.2 h.1
  have hsame : (header.filter fun entry => decide (headerName entry.1 = headerName name ∧
      entry.1 ≠ canonicalMIMEHeaderKey name) && decide (entry.1 ≠ canonicalMIMEHeaderKey key)) =
        header.filter fun entry => decide (headerName entry.1 = headerName name ∧
          entry.1 ≠ canonicalMIMEHeaderKey name) := by
    apply List.filter_congr
    intro entry _
    by_cases hkey : entry.1 = canonicalMIMEHeaderKey key
    · rw [hkey, decide_eq_false hnone, Bool.false_and]
    · rw [decide_eq_true hkey, Bool.and_true]
  rw [hsame, List.filter_cons_of_neg (by simpa using hnone)]
  exact List.append_nil _

theorem wire_set (header : Header) (key value : Str) :
    Header.wire (header.set key value) = setOne header.strays header.wire (key, some value) := by
  funext name
  unfold Header.wire setOne
  rw [strays_set]
  unfold Header.set
  simp only [List.filter_append, List.filter_filter, List.flatMap_append]
  by_cases h : headerName name = headerName key
  · have hcanonical := canonicalMIMEHeaderKey_eq_iff.mpr h
    have hnone : (header.filter fun entry => decide (entry.1 = canonicalMIMEHeaderKey name) &&
        decide (entry.1 ≠ canonicalMIMEHeaderKey key)) = [] := by
      rw [hcanonical, List.filter_eq_nil_iff]
      simp
    rw [if_pos h, hnone, List.filter_cons_of_pos (by simpa using hcanonical.symm)]
    rfl
  · have hcanonical := mt canonicalMIMEHeaderKey_eq_iff.mp h
    have hsame : (header.filter fun entry => decide (entry.1 = canonicalMIMEHeaderKey name) &&
        decide (entry.1 ≠ canonicalMIMEHeaderKey key)) =
          header.filter fun entry => decide (entry.1 = canonicalMIMEHeaderKey name) := by
      apply List.filter_congr
      intro entry _
      by_cases hentry : entry.1 = canonicalMIMEHeaderKey name
      · simp [hentry, hcanonical]
      · simp [hentry]
    rw [if_neg h, hsame, List.filter_cons_of_neg (by simpa using fun heq => hcanonical heq.symm)]
    exact congrArg _ (List.append_nil _)

/-- Sets a header to a value that is given. -/
def Header.setGiven (header : Header) (setting : Setting) : Header :=
  match setting.2 with
  | none => header
  | some value => header.set setting.1 value

theorem wire_foldl_setGiven (settings : List Setting) (header : Header) :
    (settings.foldl Header.setGiven header).wire = setAll header.strays settings header.wire := by
  induction settings generalizing header with
  | nil => rfl
  | cons setting settings ih =>
    obtain ⟨name, value⟩ := setting
    rw [List.foldl_cons, ih, setAll, setAll, List.foldl_cons]
    cases value with
    | none => rfl
    | some value =>
      have hwire : (header.setGiven (name, some value)).wire = _ := wire_set header name value
      have hstrays : (header.setGiven (name, some value)).strays = _ := strays_set header name value
      rw [hwire, hstrays]

/-- A text that is given, where the empty text is none. -/
def given (text : Str) : Option Str := if text ≠ [] then some text else none

/-- What the fields of a request say. -/
def GetRequest.identity (r : GetRequest) : Identity where
  tag := given r.tag
  application := given r.application
  pieceLength := r.pieceLength.map fun pieceLength => pieceLength.repr.toList
  contentForCalculatingTaskId := given r.contentForCalculatingTaskId
  filteredQueryParams := if 0 < r.filteredQueryParams.length then
    some (",".toList.intercalate r.filteredQueryParams) else none

theorem wire_proxyHeaders {module : HttpModule} {r : GetRequest} {headers : Header}
    (h : r.proxyHeaders module = .ok headers) :
    headers.wire = setAll r.header.strays (r.identity.allSettings r.enableTaskIdBasedBlobDigest
      r.priority) r.header.wire := by
  rw [← wire_foldl_setGiven]
  unfold GetRequest.proxyHeaders at h
  obtain ⟨_, _, h⟩ := bind_eq_ok_iff.mp h
  obtain rfl := Except.ok.inj h
  have hgiven : ∀ (header : Header) (name text : Str),
      (if text ≠ [] then header.set name text else header) =
        header.setGiven (name, given text) := by
    intro header name text
    unfold given
    by_cases htext : text ≠ []
    · rw [if_pos htext, if_pos htext]
      rfl
    · rw [if_neg htext, if_neg htext]
      rfl
  have hparams : ∀ (header : Header) (name : Str),
      (if 0 < r.filteredQueryParams.length then
        header.set name (",".toList.intercalate r.filteredQueryParams) else header) =
          header.setGiven (name, r.identity.filteredQueryParams) := by
    intro header name
    unfold GetRequest.identity
    by_cases hlength : 0 < r.filteredQueryParams.length
    · simp only [if_pos hlength]
      rfl
    · simp only [if_neg hlength]
      rfl
  simp only [hgiven, hparams]
  apply congrArg
  unfold Identity.allSettings GetRequest.identity
  rcases r.pieceLength with _ | pieceLength <;> rcases r.priority with _ | priority <;> rfl

end Go

/-! ### Requests with the same fields -/

/-- Two requests that are looked up alike both send what identifies their task, and so the same. -/
def Identity.SendsBoth (identity : Identity) (flag : Bool) (priority : Option Int)
    (user user' sent sent' : Str → List Str) : Prop :=
  identity.Sends flag priority user sent ∧ identity.Sends flag priority user' sent' ∧
    ∀ name ∈ identity.names, sent name = sent' name

theorem Identity.sendsBoth_iff {identity : Identity} {flag : Bool} {priority : Option Int}
    {strays strays' user user' : Str → List Str} (huser : CaseInsensitive user)
    (hstrays : CaseInsensitive strays) (huser' : CaseInsensitive user')
    (hstrays' : CaseInsensitive strays') :
    identity.SendsBoth flag priority user user'
        (setAll strays (identity.allSettings flag priority) user)
        (setAll strays' (identity.allSettings flag priority) user') ↔
      identity.Unclaimed priority strays user ∧ identity.Unclaimed priority strays' user' := by
  have hsends := @sends_setAll_iff identity flag priority strays user huser hstrays
  have hsends' := @sends_setAll_iff identity flag priority strays' user' huser' hstrays'
  unfold Identity.SendsBoth
  constructor
  · intro h
    exact ⟨hsends.mp h.1, hsends'.mp h.2.1⟩
  · intro h
    exact ⟨hsends.mpr h.1, hsends'.mpr h.2, (hsends.mpr h.1).alike (hsends'.mpr h.2)⟩

/-- **The headers that are sent identify the task**, and the user's others are sent unchanged, if and
only if these have none for what the request does not say, or says otherwise, and, in Go, none in
another spelling beside what it says; the endpoints follow from the fields alone. -/
theorem proxy_headers_identity_iff (crate : HttpCrate) (hcrate : crate.Faithful)
    (module : Go.HttpModule) :
    (∀ (crates : ProxyCrates) (proxy : Proxy crates) (request : GetRequest)
      (header headers headers' : HeaderMap),
      request.proxyHeaders crate = .ok headers →
      { request with header := header }.proxyHeaders crate = .ok headers' →
      (∀ fuel now, proxy.lookupProxyEndpoints fuel now { request with header := header } =
        proxy.lookupProxyEndpoints fuel now request) ∧
      (request.identity.SendsBoth request.enableTaskIdBasedBlobDigest request.priority
          request.header.values header.values headers.values headers'.values ↔
        request.identity.Unclaimed request.priority noStrays request.header.values ∧
          request.identity.Unclaimed request.priority noStrays header.values)) ∧
    ∀ (modules : Go.Modules) (p : Go.Proxy modules) (r : Go.GetRequest)
      (header headers headers' : Go.Header),
      r.proxyHeaders module = .ok headers →
      { r with header := header }.proxyHeaders module = .ok headers' →
      (∀ fuel now, p.lookupProxyEndpoints fuel now { r with header := header } =
        p.lookupProxyEndpoints fuel now r) ∧
      (r.identity.SendsBoth r.enableTaskIdBasedBlobDigest r.priority r.header.wire header.wire
          headers.wire headers'.wire ↔
        r.identity.Unclaimed r.priority r.header.strays r.header.wire ∧
          r.identity.Unclaimed r.priority header.strays header.wire) := by
  refine ⟨?_, ?_⟩
  · intro crates proxy request header headers headers' h h'
    refine ⟨fun _ _ => rfl, ?_⟩
    rw [values_proxyHeaders hcrate h, values_proxyHeaders hcrate h']
    exact Identity.sendsBoth_iff request.header.caseInsensitive_values caseInsensitive_noStrays
      header.caseInsensitive_values caseInsensitive_noStrays
  · intro modules p r header headers headers' h h'
    refine ⟨fun _ _ => rfl, ?_⟩
    rw [Go.wire_proxyHeaders h, Go.wire_proxyHeaders h']
    exact Identity.sendsBoth_iff r.header.caseInsensitive_wire r.header.caseInsensitive_strays
      header.caseInsensitive_wire header.caseInsensitive_strays

theorem exampleHttp_faithful : exampleHttp.Faithful :=
  fun _ _ h => (Except.ok.inj h).symm

/-- A request that gives all its fields. -/
def identifiedRequest : GetRequest :=
  { lookupRequest 1 with
    pieceLength := some 4194304
    tag := some "tag".toList
    application := some "application".toList
    filteredQueryParams := ["ns".toList]
    priority := some 3 }

def Go.identifiedRequest : Go.GetRequest :=
  { exampleGoGet with
    pieceLength := some 4194304
    tag := "tag".toList
    application := "application".toList
    filteredQueryParams := ["ns".toList]
    priority := some 3 }

/-- A user's headers: one that is replaced, one that says the same, and one that is none of these. -/
def userHeader : HeaderMap :=
  [("x-dragonfly-tag".toList, "other".toList), ("x-dragonfly-use-p2p".toList, "true".toList),
    ("accept".toList, "*/*".toList)]

def Go.userHeader : Go.Header :=
  [("X-Dragonfly-Tag".toList, ["other".toList]), ("X-Dragonfly-Use-P2p".toList, ["true".toList]),
    ("Accept".toList, ["*/*".toList])]

/-- At a request with these headers and one without. -/
theorem proxy_headers_identity_iff_user :
    (∃ headers headers', identifiedRequest.proxyHeaders exampleHttp = .ok headers ∧
      { identifiedRequest with header := userHeader }.proxyHeaders exampleHttp = .ok headers' ∧
      identifiedRequest.identity.SendsBoth identifiedRequest.enableTaskIdBasedBlobDigest
        identifiedRequest.priority identifiedRequest.header.values userHeader.values
        headers.values headers'.values) ∧
    ∃ headers headers', Go.identifiedRequest.proxyHeaders exampleModule = .ok headers ∧
      { Go.identifiedRequest with header := Go.userHeader }.proxyHeaders exampleModule =
        .ok headers' ∧
      Go.identifiedRequest.identity.SendsBoth Go.identifiedRequest.enableTaskIdBasedBlobDigest
        Go.identifiedRequest.priority Go.identifiedRequest.header.wire Go.userHeader.wire
        headers.wire headers'.wire := by
  have hsends := proxy_headers_identity_iff exampleHttp exampleHttp_faithful exampleModule
  refine ⟨?_, ?_⟩
  · obtain ⟨headers, h⟩ : ∃ headers,
        identifiedRequest.proxyHeaders exampleHttp = .ok headers := ⟨_, rfl⟩
    obtain ⟨headers', h'⟩ : ∃ headers,
        { identifiedRequest with header := userHeader }.proxyHeaders exampleHttp = .ok headers :=
      ⟨_, rfl⟩
    refine ⟨headers, headers', h, h', ((hsends.1 lookupCrates twoProxy identifiedRequest userHeader
      headers headers' h h').2.mpr ⟨⟨?_, ?_, ?_, ?_⟩, ⟨?_, ?_, ?_, ?_⟩⟩)⟩
    all_goals decide +kernel
  · obtain ⟨headers, h⟩ : ∃ headers,
        Go.identifiedRequest.proxyHeaders exampleModule = .ok headers := ⟨_, rfl⟩
    obtain ⟨headers', h'⟩ : ∃ headers,
        { Go.identifiedRequest with header := Go.userHeader }.proxyHeaders exampleModule =
          .ok headers := ⟨_, rfl⟩
    refine ⟨headers, headers', h, h', ((hsends.2 Go.exampleModules Go.twoProxy
      Go.identifiedRequest Go.userHeader headers headers' h h').2.mpr
        ⟨⟨?_, ?_, ?_, ?_⟩, ⟨?_, ?_, ?_, ?_⟩⟩)⟩
    all_goals decide +kernel

/-- A user's header that says that the task is another. -/
def tagHeader : HeaderMap := [("x-dragonfly-tag".toList, "other".toList)]

/-- Without a tag, a user's header for it is sent. -/
theorem not_sendsBoth : ¬ ∀ (crate : HttpCrate), crate.Faithful →
    ∀ (request : GetRequest) (header headers headers' : HeaderMap),
      request.proxyHeaders crate = .ok headers →
      { request with header := header }.proxyHeaders crate = .ok headers' →
      request.identity.SendsBoth request.enableTaskIdBasedBlobDigest request.priority
        request.header.values header.values headers.values headers'.values := by
  intro h
  obtain ⟨-, hsends, -⟩ := h exampleHttp exampleHttp_faithful (lookupRequest 1) tagHeader _ _ rfl rfl
  have htag := hsends.carried ("X-Dragonfly-Tag".toList, none) (.head _)
  revert htag
  decide +kernel

end DragonflySdk
