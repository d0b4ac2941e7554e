import DragonflySdk.Foundation.IdleCache
import DragonflySdk.Foundation.Retain
import DragonflySdk.Request
import Mathlib.Algebra.Order.Ring.Int
import Mathlib.Data.Nat.Cast.Order.Basic

/-!
# The client pool in Rust

`pool.rs`, for calls of `entry` one after the other: each reads the clock once, and the factory comes
to what is given with the call. A call first removes what is idle, then looks up the key or makes a
client; it is a visit of a cache that forgets what is idle (`visits`).
-/

namespace DragonflySdk

open Foundation

/-- Generic client pool, of clients `γ` for addresses `α`. -/
structure Pool (α γ ε : Type) where
  /-- what `make_client` may come to for an address -/
  factory : α → Except ε γ → Prop
  capacity : Nat
  idleTimeout : Duration

namespace Pool

variable {κ α γ ε : Type}

/-- Entry wrapper for clients in the pool. -/
structure Entry (γ : Type) where
  client : γ
  activedAt : Nat
deriving DecidableEq, Repr

def Entry.setActivedAt (now : Nat) (e : Entry γ) : Entry γ := { e with activedAt := now }

def Entry.idleDuration (now : Nat) (e : Entry γ) : Duration := now - e.activedAt

/-- The map of clients, and the time of the last cleanup. -/
structure State (κ γ : Type) where
  clients : Finmap fun _ : κ => Entry γ
  cleanupAt : Nat

/-- `build` -/
def State.new (now : Nat) : State κ γ := ⟨∅, now⟩

/-- A call of `entry`, with the order in which the map yields its keys. -/
structure Call (κ α γ ε : Type) where
  key : κ
  addr : α
  now : Nat
  made : Except ε γ
  order : KeyOrder κ

/-- What a call comes to: the client that is reused or created, or the error of the factory. -/
inductive Answer (γ ε : Type)
  | reused (client : γ)
  | created (client : γ)
  | failed (err : ε)

section
variable (pool : Pool α γ ε)

/-- "Avoid hot cleanup." -/
def avoidsCleanup (now cleanupAt : Nat) : Bool :=
  let interval := pool.idleTimeout / 2
  now - cleanupAt < interval

def shouldRetain (exceedsCapacity : Bool) (now : Nat) (e : Entry γ) : Bool :=
  let isRecent := e.idleDuration now ≤ pool.idleTimeout
  !exceedsCapacity && isRecent

variable [DecidableEq κ]

/-- Cleans up the entries that exceed the capacity or the idle timeout; the keys are those removed. -/
def cleanupIdleEntries (order : KeyOrder κ) (now : Nat) (s : State κ γ) : State κ γ × List κ :=
  if pool.avoidsCleanup now s.cleanupAt then (s, [])
  else
    let exceedsCapacity := pool.capacity < s.clients.keys.card
    let retained := retain (fun _ e => pool.shouldRetain exceedsCapacity now e)
      (order.order s.clients.keys) s.clients
    (⟨retained.1, now⟩, retained.2)

/-- `or_insert`: the entry that is there, or else the new one. -/
def orInsert (clients : Finmap fun _ : κ => Entry γ) (key : κ) (e : Entry γ) : Entry γ :=
  (clients.lookup key).getD e

/-- The entry of the key, past the cleanup. -/
def getOrCreate (call : Call κ α γ ε) (s : State κ γ) : State κ γ × Answer γ ε :=
  match s.clients.lookup call.key with
  | some e =>
    ({ s with clients := s.clients.insert call.key (e.setActivedAt call.now) }, .reused e.client)
  | none =>
    match call.made with
    | .error err => (s, .failed err)
    | .ok client =>
      let e := orInsert s.clients call.key ⟨client, call.now⟩
      ({ s with clients := s.clients.insert call.key (e.setActivedAt call.now) },
        .created e.client)

/-- Gets or creates a client entry for the given key. -/
def entry (call : Call κ α γ ε) (s : State κ γ) : State κ γ × Answer γ ε :=
  getOrCreate call (pool.cleanupIdleEntries call.order call.now s).1

/-- Any number of calls. -/
def run (s : State κ γ) (calls : List (Call κ α γ ε)) : State κ γ :=
  calls.foldl (fun s call => (pool.entry call s).1) s

/-! ### The pool as a cache -/

def Answer.outcome : Answer γ ε → IdleCache.Outcome γ
  | reused client => .reused client
  | created client => .made client
  | failed _ => .failed

/-- The policy of the cache. -/
def policy : IdleCache.Policy Nat where
  early := pool.avoidsCleanup
  recent now activedAt := now - activedAt ≤ pool.idleTimeout
  capacity := pool.capacity

/-- What is seen of a call. -/
def visit (call : Call κ α γ ε) (s : State κ γ) : IdleCache.Visit κ γ Nat where
  key := call.key
  now := call.now
  removed := (pool.cleanupIdleEntries call.order call.now s).2
  outcome := (pool.entry call s).2.outcome
  size := (pool.entry call s).1.clients.keys.card

/-- What is seen of calls one after the other. -/
def log : State κ γ → List (Call κ α γ ε) → List (IdleCache.Visit κ γ Nat) :=
  IdleCache.logOf (fun call s => (pool.entry call s).1) pool.visit

def State.view (s : State κ γ) : IdleCache.State κ γ Nat where
  lookup key := (s.clients.lookup key).map fun e => (e.client, e.activedAt)
  keys := s.clients.keys
  mem_keys key := by rw [Finmap.mem_keys, Option.isSome_map, Finmap.lookup_isSome]
  cleanedAt := s.cleanupAt

end

section
variable [DecidableEq κ] {pool : Pool α γ ε} {s : State κ γ} {call : Call κ α γ ε}

theorem State.view_new (now : Nat) : (State.new now : State κ γ).view = .new now := by
  refine IdleCache.State.ext_lookup ?_ rfl
  funext key
  have hempty : (∅ : Finmap fun _ : κ => Entry γ).lookup key = none := Finmap.lookup_empty key
  exact congrArg (Option.map fun e : Entry γ => (e.client, e.activedAt)) hempty

theorem view_cleanupIdleEntries (order : KeyOrder κ) (now : Nat) :
    (pool.cleanupIdleEntries order now s).1.view = s.view.clean pool.policy now := by
  unfold cleanupIdleEntries IdleCache.State.clean
  have hsame : pool.policy.early now s.view.cleanedAt = pool.avoidsCleanup now s.cleanupAt := rfl
  rw [hsame]
  by_cases hearly : pool.avoidsCleanup now s.cleanupAt = true
  · rw [if_pos hearly, if_pos hearly]
  · rw [if_neg hearly, if_neg hearly]
    refine IdleCache.State.ext_lookup ?_ rfl
    funext key
    have hretains : ∀ e : Entry γ, s.view.retains pool.policy now (e.client, e.activedAt) =
        pool.shouldRetain (pool.capacity < s.clients.keys.card) now e := by
      intro e
      unfold IdleCache.State.retains IdleCache.State.exceeds shouldRetain
      show (!decide ((pool.capacity : Int) < (s.clients.keys.card : Int)) && _) = _
      simp only [Nat.cast_lt]
      rfl
    show ((retain _ _ _).1.lookup key).map _ = ((s.clients.lookup key).map _).filter _
    rw [lookup_retain_order]
    rcases s.clients.lookup key with _ | e
    · rfl
    · rw [Option.map_some, Option.filter_some, Option.filter_some, hretains]
      split <;> rfl

theorem mem_removed (order : KeyOrder κ) (now : Nat) (key : κ) :
    key ∈ (pool.cleanupIdleEntries order now s).2 ↔
      key ∈ s.clients.keys ∧ key ∉ (pool.cleanupIdleEntries order now s).1.clients.keys := by
  unfold cleanupIdleEntries
  by_cases hearly : pool.avoidsCleanup now s.cleanupAt = true
  · rw [if_pos hearly]
    simp
  · rw [if_neg hearly]
    exact mem_retain_order_iff order s.clients key

theorem view_insert (key : κ) (e : Entry γ) :
    ({ s with clients := s.clients.insert key e } : State κ γ).view =
      s.view.put key e.client e.activedAt := by
  refine IdleCache.State.ext_lookup ?_ rfl
  funext other
  show ((s.clients.insert key e).lookup other).map (fun e => (e.client, e.activedAt)) =
    Function.update s.view.lookup key (some (e.client, e.activedAt)) other
  by_cases h : other = key
  · rw [h, Finmap.lookup_insert, Function.update_self]
    rfl
  · rw [Finmap.lookup_insert_of_ne _ h, Function.update_of_ne h]
    rfl

theorem lookup_getOrCreate_of_ne (call : Call κ α γ ε) (s : State κ γ) {key : κ}
    (h : key ≠ call.key) : (getOrCreate call s).1.clients.lookup key = s.clients.lookup key := by
  unfold getOrCreate
  rcases s.clients.lookup call.key with _ | e
  · rcases call.made with err | client
    · rfl
    · exact Finmap.lookup_insert_of_ne _ h
  · exact Finmap.lookup_insert_of_ne _ h

theorem getOrCreate_uses (call : Call κ α γ ε) (s : State κ γ) :
    IdleCache.Uses call.key call.now s.view (getOrCreate call s).2.outcome
      (getOrCreate call s).1.view := by
  have hview : s.view.lookup call.key =
      (s.clients.lookup call.key).map fun e => (e.client, e.activedAt) := rfl
  unfold getOrCreate
  rcases hlookup : s.clients.lookup call.key with _ | e
  · rw [hlookup] at hview
    rcases call.made with err | client
    · exact .fail hview
    · simp only [orInsert, hlookup, Option.getD_none, view_insert]
      exact .make client hview
  · rw [hlookup] at hview
    simp only [view_insert]
    exact .reuse e.client e.activedAt hview

theorem visits (pool : Pool α γ ε) (call : Call κ α γ ε) (s : State κ γ) :
    IdleCache.Visits pool.policy s.view (pool.visit call s) (pool.entry call s).1.view where
  mem_removed key := by
    rw [← view_cleanupIdleEntries call.order]
    exact mem_removed call.order call.now key
  uses := by
    rw [← view_cleanupIdleEntries call.order]
    exact getOrCreate_uses call _
  size_eq := rfl

theorem fails_iff (pool : Pool α γ ε) (call : Call κ α γ ε) (s : State κ γ)
    (h : call.key ∉ (pool.cleanupIdleEntries call.order call.now s).1.clients.keys) :
    (∃ err, call.made = .error err) ↔ (pool.entry call s).2.outcome = .failed := by
  have hnone := Finmap.lookup_eq_none.mpr (mt Finmap.mem_keys.mpr h)
  unfold entry getOrCreate
  rw [hnone]
  rcases call.made with err | client <;> simp [Answer.outcome]

theorem implements (pool : Pool α γ ε) :
    IdleCache.Implements pool.policy State.view (fun _ : State κ γ => True)
      (fun call s => (pool.entry call s).1) pool.visit Call.now
      (fun call => ∃ err, call.made = .error err) where
  now_eq _ _ := rfl
  visits s call _ := pool.visits call s
  kept _ _ _ := trivial
  fails_iff s call _ h := by
    rw [← view_cleanupIdleEntries call.order] at h
    exact pool.fails_iff call s h

end

/-- A pool for one client, with an idle timeout of ten minutes. -/
def examplePool : Pool Unit Unit Unit := ⟨fun _ _ => True, 1, 600⟩

/-- A call for one of two keys. -/
def exampleCall (key : Bool) (now : Nat) (made : Except Unit Unit) : Call Bool Unit Unit Unit :=
  ⟨key, (), now, made, .ofList [true, false] (by decide) (by decide)⟩

end Pool

end DragonflySdk
