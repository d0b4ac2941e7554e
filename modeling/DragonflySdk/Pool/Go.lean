import DragonflySdk.Pool
import DragonflySdk.Proxy.Pool

/-!
# The client pool in Go, one call after the other

`Entry` of `pool.go` again, as a function: calls one after the other, by whatever goroutines, none
of which holds a guard of a request. A client is known by the number of its entry. A call is a visit
of a cache that forgets what is idle (`visits`), as it is in Rust, and a run of the steps that
goroutines make (`steps`).
-/

namespace DragonflySdk.Go.Pool

open Foundation

variable {γ ι : Type}

/-- A call of `Entry`, with the order in which the map yields its keys. -/
structure Call (ι γ : Type) where
  goroutine : ι
  key : Str
  addr : Str
  now : Int
  made : Except Str γ
  order : KeyOrder Str

section
variable (pool : Pool γ)

/-- "Avoid hot cleanup." -/
def avoidsCleanup (now cleanupAt : Int) : Bool := now - cleanupAt < pool.idleTimeout.tdiv 2

def retains (exceedsCapacity : Bool) (now : Int) (e : Entry γ) : Bool :=
  let isRecent := e.idleDuration now ≤ pool.idleTimeout
  e.hasActiveRequests || (!exceedsCapacity && isRecent)

/-- Removes idle entries that exceed capacity or idle timeout; the keys are those removed. -/
def cleanupIdleEntries (order : KeyOrder Str) (now : Int) (s : State ι γ) : State ι γ × List Str :=
  if pool.avoidsCleanup now s.cleanupAt then (s, [])
  else
    let exceedsCapacity := pool.capacity < s.clients.keys.card
    let retained := retain (fun _ p => s.entries[p]?.all (pool.retains exceedsCapacity now))
      (order.order s.clients.keys) s.clients
    ({ s with clients := retained.1, cleanupAt := now }, retained.2)

variable [DecidableEq ι]

/-- The entry of the key, past the cleanup. -/
def getOrCreate (call : Call ι γ) (s : State ι γ) : State ι γ × DragonflySdk.Pool.Answer Nat Str :=
  match s.clients.lookup call.key with
  | some p => ((s.modify p (Entry.setActivedAt call.now)).giveTo call.goroutine p, .reused p)
  | none =>
    match call.made with
    | .error err => (s.goto none, .failed err)
    | .ok client =>
      ((s.create call.key client call.now).giveTo call.goroutine s.entries.length,
        .created s.entries.length)

/-- Gets or creates a client entry for the given key. -/
def entry (call : Call ι γ) (s : State ι γ) : State ι γ × DragonflySdk.Pool.Answer Nat Str :=
  getOrCreate call (pool.cleanupIdleEntries call.order call.now s).1

/-- Any number of calls. -/
def run (s : State ι γ) (calls : List (Call ι γ)) : State ι γ :=
  calls.foldl (fun s call => (pool.entry call s).1) s

/-! ### The pool as a cache -/

/-- The policy of the cache. -/
def policy : IdleCache.Policy Int where
  early := pool.avoidsCleanup
  recent now activedAt := now - activedAt ≤ pool.idleTimeout
  capacity := pool.capacity

/-- What is seen of a call. -/
def visit (call : Call ι γ) (s : State ι γ) : IdleCache.Visit Str Nat Int where
  key := call.key
  now := call.now
  removed := (pool.cleanupIdleEntries call.order call.now s).2
  outcome := (pool.entry call s).2.outcome
  size := (pool.entry call s).1.clients.keys.card

/-- What is seen of calls one after the other. -/
def log : State ι γ → List (Call ι γ) → List (IdleCache.Visit Str Nat Int) :=
  IdleCache.logOf (fun call s => (pool.entry call s).1) pool.visit

end

namespace State

def activedAt (s : State ι γ) (p : Nat) : Int := (s.entries[p]?.map Entry.activedAt).getD 0

def cache (s : State ι γ) : IdleCache.State Str Nat Int where
  lookup key := (s.clients.lookup key).map fun p => (p, s.activedAt p)
  keys := s.clients.keys
  mem_keys key := by rw [Finmap.mem_keys, Option.isSome_map, Finmap.lookup_isSome]
  cleanedAt := s.cleanupAt

/-- No guard is held. The entries of the pool were made, each for its key. -/
structure Unguarded (s : State ι γ) : Prop where
  allocated : s.Allocated
  key_eq : ∀ key p, s.clients.lookup key = some p → s.key p = key
  idle : ∀ e ∈ s.entries, e.activeRequests = 0

theorem cache_new (now : Int) : (State.new now : State ι γ).cache = .new now := by
  refine IdleCache.State.ext_lookup ?_ rfl
  funext key
  have hempty : (∅ : Finmap fun _ : Str => Nat).lookup key = none := Finmap.lookup_empty key
  exact congrArg (Option.map fun p => (p, (State.new now : State ι γ).activedAt p)) hempty

theorem unguarded_new (now : Int) : (State.new now : State ι γ).Unguarded where
  allocated key p h := by cases (Finmap.lookup_empty key).symm.trans h
  key_eq key p h := by cases (Finmap.lookup_empty key).symm.trans h
  idle e h := absurd h List.not_mem_nil

variable {s : State ι γ}

theorem Unguarded.exists_entry (h : s.Unguarded) {key : Str} {p : Nat}
    (hlookup : s.clients.lookup key = some p) :
    ∃ e, s.entries[p]? = some e ∧ e.activeRequests = 0 := by
  have hentry := List.getElem?_eq_getElem (h.allocated key p hlookup)
  exact ⟨_, hentry, h.idle _ (List.getElem_mem _)⟩

theorem cache_modify (h : s.Unguarded) {key : Str} {p : Nat} (now : Int)
    (hlookup : s.clients.lookup key = some p) :
    (s.modify p (Entry.setActivedAt now)).cache = s.cache.put key p now := by
  obtain ⟨e, hentry, _⟩ := h.exists_entry hlookup
  refine IdleCache.State.ext_lookup ?_ rfl
  funext other
  have hactivedAt : ∀ q, (s.modify p (Entry.setActivedAt now)).activedAt q =
      if q = p then now else s.activedAt q := by
    intro q
    unfold activedAt modify
    rw [List.getElem?_modify]
    by_cases hq : q = p
    · rw [hq, if_pos rfl, hentry]
      simp [Entry.setActivedAt]
    · simp [hq, Ne.symm hq]
  show (s.clients.lookup other).map _ = Function.update s.cache.lookup key (some (p, now)) other
  by_cases hkey : other = key
  · rw [hkey, Function.update_self, hlookup, Option.map_some, hactivedAt, if_pos rfl]
  · rw [Function.update_of_ne hkey]
    refine Option.map_congr fun q hq => ?_
    have hne : q ≠ p := by
      intro heq
      rw [heq] at hq
      exact hkey ((h.key_eq other p hq).symm.trans (h.key_eq key p hlookup))
    rw [hactivedAt, if_neg hne]

theorem cache_create (h : s.Unguarded) (key : Str) (client : γ) (now : Int) :
    (s.create key client now).cache = s.cache.put key s.entries.length now := by
  refine IdleCache.State.ext_lookup ?_ rfl
  funext other
  show ((s.clients.insert key s.entries.length).lookup other).map _ =
    Function.update s.cache.lookup key (some (s.entries.length, now)) other
  by_cases hkey : other = key
  · rw [hkey, Finmap.lookup_insert, Function.update_self]
    simp [activedAt, create]
  · rw [Finmap.lookup_insert_of_ne _ hkey, Function.update_of_ne hkey]
    refine Option.map_congr fun q hq => ?_
    have hlt := h.allocated other q hq
    simp only [activedAt, create, List.getElem?_append_left hlt]

theorem Unguarded.of_entries {s' : State ι γ} (h : s.Unguarded)
    (hclients : ∀ key p, s'.clients.lookup key = some p → s.clients.lookup key = some p)
    (hentries : s'.entries = s.entries) : s'.Unguarded where
  allocated key p hlookup := by
    rw [hentries]
    exact h.allocated key p (hclients key p hlookup)
  key_eq key p hlookup := by
    unfold State.key
    rw [hentries]
    exact h.key_eq key p (hclients key p hlookup)
  idle e hmem := h.idle e (hentries ▸ hmem)

theorem Unguarded.modify (h : s.Unguarded) (p : Nat) (now : Int) :
    (s.modify p (Entry.setActivedAt now)).Unguarded where
  allocated key q hlookup := by
    show q < (s.entries.modify p _).length
    rw [List.length_modify]
    exact h.allocated key q hlookup
  key_eq key q hlookup := by
    rw [key_modify p (Entry.setActivedAt now) fun _ => rfl]
    exact h.key_eq key q hlookup
  idle e hmem := by
    obtain ⟨q, hq⟩ := List.mem_iff_getElem?.mp hmem
    simp only [State.modify, List.getElem?_modify, Option.map_eq_map, Option.map_eq_some_iff] at hq
    obtain ⟨e', he', rfl⟩ := hq
    have hidle := h.idle e' (List.mem_of_getElem? he')
    split
    · exact hidle
    · exact hidle

theorem Unguarded.create (h : s.Unguarded) (key : Str) (client : γ) (now : Int) :
    (s.create key client now).Unguarded where
  allocated other p hlookup := by
    show p < (s.entries ++ [_]).length
    rw [List.length_append, List.length_singleton]
    by_cases hkey : other = key
    · rw [hkey] at hlookup
      obtain rfl := Option.some.inj ((Finmap.lookup_insert _).symm.trans hlookup)
      omega
    · have hlt := h.allocated other p ((Finmap.lookup_insert_of_ne _ hkey).symm.trans hlookup)
      omega
  key_eq other p hlookup := by
    by_cases hkey : other = key
    · rw [hkey] at hlookup
      obtain rfl := Option.some.inj ((Finmap.lookup_insert _).symm.trans hlookup)
      rw [hkey]
      simp [State.key, State.create]
    · have hbefore := (Finmap.lookup_insert_of_ne _ hkey).symm.trans hlookup
      have hlt := h.allocated other p hbefore
      rw [← h.key_eq other p hbefore]
      simp only [State.key, State.create, List.getElem?_append_left hlt]
  idle e hmem := by
    rcases List.mem_append.mp hmem with hmem | hmem
    · exact h.idle e hmem
    · rw [List.mem_singleton.mp hmem]

end State

/-! ### Calls -/

section
variable {pool : Pool γ} {s : State ι γ}

theorem cleanup_lookup (order : KeyOrder Str) (now : Int) (s : State ι γ) (key : Str) (p : Nat)
    (h : (pool.cleanupIdleEntries order now s).1.clients.lookup key = some p) :
    s.clients.lookup key = some p := by
  unfold cleanupIdleEntries at h
  split at h
  · exact h
  · change (retain _ _ _).1.lookup key = some p at h
    rw [lookup_retain_order] at h
    exact (Option.filter_eq_some_iff.mp h).1

theorem cleanup_entries (order : KeyOrder Str) (now : Int) (s : State ι γ) :
    (pool.cleanupIdleEntries order now s).1.entries = s.entries := by
  unfold cleanupIdleEntries
  split <;> rfl

theorem unguarded_cleanup (h : s.Unguarded) (order : KeyOrder Str) (now : Int) :
    (pool.cleanupIdleEntries order now s).1.Unguarded :=
  h.of_entries (cleanup_lookup order now s) (cleanup_entries order now s)

theorem retains_eq (h : s.Unguarded) {key : Str} {p : Nat} (hlookup : s.clients.lookup key = some p)
    (exceedsCapacity : Bool) (now : Int) :
    s.entries[p]?.all (pool.retains exceedsCapacity now) =
      (!exceedsCapacity && decide (now - s.activedAt p ≤ pool.idleTimeout)) := by
  obtain ⟨e, hentry, hidle⟩ := h.exists_entry hlookup
  have hactive : e.hasActiveRequests = false := by
    unfold Entry.hasActiveRequests
    rw [hidle]
    rfl
  have hactivedAt : s.activedAt p = e.activedAt := by
    rw [State.activedAt, hentry]
    rfl
  rw [hentry, Option.all_some, retains, hactive, Bool.false_or, hactivedAt, Entry.idleDuration]

theorem cache_cleanupIdleEntries (h : s.Unguarded) (order : KeyOrder Str) (now : Int) :
    (pool.cleanupIdleEntries order now s).1.cache = s.cache.clean pool.policy now := by
  unfold cleanupIdleEntries IdleCache.State.clean
  have hsame : pool.policy.early now s.cache.cleanedAt = pool.avoidsCleanup now s.cleanupAt := rfl
  rw [hsame]
  by_cases hearly : pool.avoidsCleanup now s.cleanupAt = true
  · rw [if_pos hearly, if_pos hearly]
  · rw [if_neg hearly, if_neg hearly]
    refine IdleCache.State.ext_lookup ?_ rfl
    funext key
    show ((retain _ _ _).1.lookup key).map _ = ((s.clients.lookup key).map _).filter _
    rw [lookup_retain_order]
    rcases hlookup : s.clients.lookup key with _ | p
    · rfl
    · rw [Option.map_some, Option.filter_some, Option.filter_some, retains_eq h hlookup]
      have hretains : s.cache.retains pool.policy now (p, s.activedAt p) =
          (!decide (pool.capacity < s.clients.keys.card) &&
            decide (now - s.activedAt p ≤ pool.idleTimeout)) := rfl
      rw [hretains]
      split <;> rfl

theorem mem_removed (order : KeyOrder Str) (now : Int) (key : Str) :
    key ∈ (pool.cleanupIdleEntries order now s).2 ↔
      key ∈ s.clients.keys ∧ key ∉ (pool.cleanupIdleEntries order now s).1.clients.keys := by
  unfold cleanupIdleEntries
  by_cases hearly : pool.avoidsCleanup now s.cleanupAt = true
  · rw [if_pos hearly]
    simp
  · rw [if_neg hearly]
    exact mem_retain_order_iff order s.clients key

variable [DecidableEq ι]

theorem getOrCreate_uses (h : s.Unguarded) (call : Call ι γ) :
    IdleCache.Uses call.key call.now s.cache (getOrCreate call s).2.outcome
        (getOrCreate call s).1.cache ∧
      (getOrCreate call s).1.Unguarded := by
  have hcache : s.cache.lookup call.key =
      (s.clients.lookup call.key).map fun p => (p, s.activedAt p) := rfl
  have hgive : ∀ {s' : State ι γ} (i : ι) (p : Nat), s'.Unguarded →
      (s'.giveTo i p).cache = s'.cache ∧ (s'.giveTo i p).Unguarded :=
    fun i p h' => ⟨rfl, h'.of_entries (fun _ _ hlookup => hlookup) rfl⟩
  unfold getOrCreate
  rcases hlookup : s.clients.lookup call.key with _ | p
  · rw [hlookup] at hcache
    rcases call.made with err | client
    · exact ⟨.fail hcache, h.of_entries (fun _ _ hlookup => hlookup) rfl⟩
    · obtain ⟨hsame, hunguarded⟩ := hgive call.goroutine s.entries.length
        (h.create call.key client call.now)
      simp only [hsame, State.cache_create h]
      exact ⟨.make _ hcache, hunguarded⟩
  · rw [hlookup] at hcache
    obtain ⟨hsame, hunguarded⟩ := hgive call.goroutine p (h.modify p call.now)
    simp only [hsame, State.cache_modify h call.now hlookup]
    exact ⟨.reuse p _ hcache, hunguarded⟩

theorem unguarded_entry (h : s.Unguarded) (call : Call ι γ) : (pool.entry call s).1.Unguarded :=
  (getOrCreate_uses (unguarded_cleanup h call.order call.now) call).2

theorem visits (pool : Pool γ) (h : s.Unguarded) (call : Call ι γ) :
    IdleCache.Visits pool.policy s.cache (pool.visit call s) (pool.entry call s).1.cache where
  mem_removed key := by
    rw [← cache_cleanupIdleEntries h call.order]
    exact mem_removed call.order call.now key
  uses := by
    rw [← cache_cleanupIdleEntries h call.order]
    exact (getOrCreate_uses (unguarded_cleanup h call.order call.now) call).1
  size_eq := rfl

theorem fails_iff (pool : Pool γ) (call : Call ι γ) (s : State ι γ)
    (h : call.key ∉ (pool.cleanupIdleEntries call.order call.now s).1.clients.keys) :
    (∃ err, call.made = .error err) ↔ (pool.entry call s).2.outcome = .failed := by
  have hnone := Finmap.lookup_eq_none.mpr (mt Finmap.mem_keys.mpr h)
  unfold entry getOrCreate
  rw [hnone]
  rcases call.made with err | client <;> simp [DragonflySdk.Pool.Answer.outcome]

theorem implements (pool : Pool γ) :
    IdleCache.Implements pool.policy State.cache (fun s : State ι γ => s.Unguarded)
      (fun call s => (pool.entry call s).1) pool.visit Call.now
      (fun call => ∃ err, call.made = .error err) where
  now_eq _ _ := rfl
  visits _ call h := pool.visits h call
  kept _ call h := unguarded_entry h call
  fails_iff s call hs h := by
    rw [← cache_cleanupIdleEntries hs call.order] at h
    exact pool.fails_iff call s h

/-! ### The steps of a call -/

theorem cleaning_steps (pool : Pool γ) (hallocated : s.Allocated) {i : ι} (cleanup : Cleanup)
    {keys : List Str} (hlock : s.lock = some (i, .cleaning cleanup keys)) :
    Relation.ReflTransGen pool.AnyStep s { s with
      clients := (retain (fun _ p => s.entries[p]?.all
        (pool.retains cleanup.exceedsCapacity cleanup.now)) keys s.clients).1
      lock := some (i, .cleaning cleanup []) } := by
  induction keys generalizing s with
  | nil =>
    rw [retain, ← hlock]
  | cons key keys ih =>
    rcases hlookup : s.clients.lookup key with _ | p
    · have hstep : pool.AnyStep s (s.goto (some (i, .cleaning cleanup keys))) :=
        ⟨_, .gone hlock (Finmap.lookup_eq_none.mp hlookup)⟩
      have hrest := ih (s := s.goto (some (i, .cleaning cleanup keys))) hallocated rfl
      rw [retain, hlookup]
      exact .head hstep hrest
    · obtain ⟨e, hentry⟩ : ∃ e, s.entries[p]? = some e :=
        ⟨_, List.getElem?_eq_getElem (hallocated key p hlookup)⟩
      by_cases hretain : pool.retains cleanup.exceedsCapacity cleanup.now e = true
      · have hkeep : e.hasActiveRequests = true ∨
            cleanup.exceedsCapacity = false ∧ e.idleDuration cleanup.now ≤ pool.idleTimeout := by
          simpa [retains] using hretain
        have hstep : pool.AnyStep s (s.goto (some (i, .cleaning cleanup keys))) :=
          ⟨_, .retain hlock hlookup hentry hkeep⟩
        have hrest := ih (s := s.goto (some (i, .cleaning cleanup keys))) hallocated rfl
        rw [retain_kept]
        · exact .head hstep hrest
        · intro q hq
          rw [hlookup] at hq
          rw [← Option.some.inj hq, hentry]
          exact hretain
      · have hfalse := Bool.eq_false_of_not_eq_true hretain
        have hgone : e.hasActiveRequests = false ∧ (cleanup.exceedsCapacity = true ∨
            pool.idleTimeout < e.idleDuration cleanup.now) := by
          simpa [retains, or_iff_not_imp_left] using hfalse
        have hfind : pool.AnyStep s (s.goto (some (i, .evicting cleanup key keys))) :=
          ⟨_, .findIdle hlock hlookup hentry hgone.1 hgone.2⟩
        have hevict : pool.Step (s.goto (some (i, .evicting cleanup key keys))) .other
            (s.delete key (some (i, .cleaning cleanup keys))) :=
          .evict rfl
        have hrest := ih (s := s.delete key (some (i, .cleaning cleanup keys)))
          (hevict.allocated hallocated) rfl
        rw [retain_removed hlookup (by rw [hentry]; exact hfalse)]
        exact .head hfind (.head ⟨_, hevict⟩ hrest)

/-- **A call is a run of the steps that goroutines make**, from where no one holds the lock. -/
theorem steps (pool : Pool γ) (h : s.Unguarded) (hfree : s.lock = none) (call : Call ι γ)
    (hmade : pool.factory call.addr call.made) :
    Relation.ReflTransGen pool.AnyStep s (pool.entry call s).1 := by
  have hlooking : ∀ s' : State ι γ,
      pool.AnyStep (s'.goto (some (call.goroutine, .looking call.key call.addr)))
        (getOrCreate call s').1 := by
    intro s'
    unfold getOrCreate
    rcases hlookup : s'.clients.lookup call.key with _ | p
    · rcases hresult : call.made with err | client
      · exact ⟨_, .createFails err rfl hlookup (hresult ▸ hmade)⟩
      · exact ⟨_, .create client call.now rfl hlookup (hresult ▸ hmade)⟩
    · exact ⟨_, .found call.now rfl hlookup⟩
  unfold entry cleanupIdleEntries
  by_cases hearly : pool.avoidsCleanup call.now s.cleanupAt = true
  · have hcall : pool.AnyStep s (s.goto (some (call.goroutine, .looking call.key call.addr))) :=
      ⟨_, .callEntryEarly _ _ _ call.now hfree (of_decide_eq_true hearly)⟩
    rw [if_pos hearly]
    exact .tail (.single hcall) (hlooking s)
  · have hlate : pool.idleTimeout.tdiv 2 ≤ call.now - s.cleanupAt :=
      not_lt.mp fun hlt => hearly (decide_eq_true hlt)
    have horder : (call.order.order s.clients.keys).Nodup ∧
        ∀ key, key ∈ call.order.order s.clients.keys ↔ key ∈ s.clients :=
      ⟨call.order.nodup _, fun key => (call.order.mem_iff _ key).trans Finmap.mem_keys⟩
    let cleanup : Cleanup := ⟨call.key, call.addr, call.now, pool.capacity < s.clients.keys.card⟩
    let retained := retain (fun _ p => s.entries[p]?.all
      (pool.retains cleanup.exceedsCapacity cleanup.now)) (call.order.order s.clients.keys) s.clients
    let cleaned : State ι γ := { s with clients := retained.1, cleanupAt := call.now }
    have hcall : pool.AnyStep s (s.goto (some (call.goroutine, .cleaning cleanup _))) :=
      ⟨_, .callEntry _ _ _ _ _ hfree hlate horder⟩
    have hcleaning : Relation.ReflTransGen pool.AnyStep s
        { s with clients := retained.1, lock := some (call.goroutine, .cleaning cleanup []) } :=
      .head hcall (cleaning_steps pool (s := s.goto (some (call.goroutine, .cleaning cleanup _)))
        h.allocated cleanup rfl)
    have hcleaned : pool.AnyStep
        { s with clients := retained.1, lock := some (call.goroutine, .cleaning cleanup []) }
        { cleaned with
          cleanupAt := cleanup.now
          lock := some (call.goroutine, .looking cleanup.key cleanup.addr) } :=
      ⟨_, .cleaned rfl⟩
    rw [if_neg hearly]
    exact (hcleaning.tail hcleaned).tail (hlooking cleaned)

end

end DragonflySdk.Go.Pool
