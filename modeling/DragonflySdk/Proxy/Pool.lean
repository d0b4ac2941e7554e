import DragonflySdk.Foundation.InUse
import DragonflySdk.Foundation.Text
import Mathlib.Data.Finmap

/-!
# The client pool in Go

`pool.go`. Everything but the guards happens under a lock: `Entry` first removes what is idle, then
looks up the key or makes a client, and `RemoveEntry` removes an entry without active requests. But a
guard is taken after `Entry` has let go of the lock, so the entry may be gone by then, or found idle
and about to go. If every guard is taken on an entry that stays, entries with active requests are in
the pool (`pool_retains_active`).
-/

namespace DragonflySdk.Go

open Foundation

/-- A pool of clients `γ`. -/
structure Pool (γ : Type) where
  /-- what the factory may return for an address -/
  factory : Str → Except Str γ → Prop
  capacity : Int
  idleTimeout : Int

namespace Pool

/-- The wrapper for clients in the pool. The key under which it was put there is recorded, and no step
reads it. -/
structure Entry (γ : Type) where
  client : γ
  activeRequests : Int
  activedAt : Int
  key : Str

variable {γ ι : Type}

def Entry.hasActiveRequests (e : Entry γ) : Bool := 0 < e.activeRequests

def Entry.idleDuration (e : Entry γ) (now : Int) : Int := now - e.activedAt

/-- `RequestGuard` -/
def Entry.requestGuard (e : Entry γ) : Entry γ := { e with activeRequests := e.activeRequests + 1 }

/-- `Done` -/
def Entry.done (e : Entry γ) : Entry γ := { e with activeRequests := e.activeRequests - 1 }

def Entry.setActivedAt (now : Int) (e : Entry γ) : Entry γ := { e with activedAt := now }

/-- A call of `Entry` that cleans up. -/
structure Cleanup where
  key : Str
  addr : Str
  now : Int
  exceedsCapacity : Bool

/-- How far the goroutine that holds the lock has come. -/
inductive Progress
  /-- `Entry`, in the loop of `cleanupIdleEntries`, with the keys that are left -/
  | cleaning (cleanup : Cleanup) (rest : List Str)
  /-- about to delete `idle` -/
  | evicting (cleanup : Cleanup) (idle : Str) (rest : List Str)
  /-- `Entry`, past the cleanup -/
  | looking (key addr : Str)
  /-- `RemoveEntry` -/
  | removing (key : Str)
  /-- about to delete `idle` -/
  | deleting (idle : Str)

/-- The pool, all entries that were made, in order, the lock, and of each goroutine the entries it got
and those it has guards of. -/
structure State (ι γ : Type) where
  clients : Finmap fun _ : Str => Nat
  entries : List (Entry γ)
  cleanupAt : Int
  lock : Option (ι × Progress)
  got : ι → List Nat
  guards : ι → List Nat

namespace State

/-- A new pool. -/
def new (cleanupAt : Int) : State ι γ := ⟨∅, [], cleanupAt, none, fun _ => [], fun _ => []⟩

variable (s : State ι γ)

def goto (lock : Option (ι × Progress)) : State ι γ := { s with lock := lock }

def delete (key : Str) (lock : Option (ι × Progress)) : State ι γ :=
  { s with clients := s.clients.erase key, lock := lock }

/-- Changes an entry where it is. -/
def modify (p : Nat) (f : Entry γ → Entry γ) : State ι γ :=
  { s with entries := s.entries.modify p f }

/-- The goroutine `i` gets the entry, and lets go of the lock. -/
def giveTo [DecidableEq ι] (i : ι) (p : Nat) : State ι γ :=
  { s with lock := none, got := Function.update s.got i (p :: s.got i) }

/-- Puts a new entry into the pool. -/
def create (key : Str) (client : γ) (now : Int) : State ι γ :=
  { s with
    clients := s.clients.insert key s.entries.length
    entries := s.entries ++ [⟨client, 0, now, key⟩] }

end State

/-- What a step shows: that `Entry` returns an entry for a key, or that a guard is taken. -/
inductive Event
  | returns (key : Str) (p : Nat)
  | requestGuard (p : Nat)
  | other

/-- One step of a goroutine `i`, with what its clock says and in what order the map yields its keys. -/
inductive Step [DecidableEq ι] (pool : Pool γ) : State ι γ → Event → State ι γ → Prop
  | callEntryEarly {s} (i : ι) (key addr : Str) (now : Int) (hfree : s.lock = none)
      (hearly : now - s.cleanupAt < pool.idleTimeout.tdiv 2) :
      Step pool s .other (s.goto (some (i, .looking key addr)))
  | callEntry {s} (i : ι) (key addr : Str) (now : Int) (order : List Str) (hfree : s.lock = none)
      (hlate : pool.idleTimeout.tdiv 2 ≤ now - s.cleanupAt)
      (horder : order.Nodup ∧ ∀ key, key ∈ order ↔ key ∈ s.clients) :
      Step pool s .other (s.goto (some (i, .cleaning
        ⟨key, addr, now, pool.capacity < s.clients.keys.card⟩ order)))
  | gone {s} {i : ι} {cleanup : Cleanup} {next : Str} {rest : List Str}
      (hlock : s.lock = some (i, .cleaning cleanup (next :: rest))) (hgone : next ∉ s.clients) :
      Step pool s .other (s.goto (some (i, .cleaning cleanup rest)))
  | retain {s} {i : ι} {cleanup : Cleanup} {next : Str} {rest : List Str}
      {p : Nat} {e : Entry γ}
      (hlock : s.lock = some (i, .cleaning cleanup (next :: rest)))
      (hlookup : s.clients.lookup next = some p) (hentry : s.entries[p]? = some e)
      (hretain : e.hasActiveRequests = true ∨
        cleanup.exceedsCapacity = false ∧ e.idleDuration cleanup.now ≤ pool.idleTimeout) :
      Step pool s .other (s.goto (some (i, .cleaning cleanup rest)))
  | findIdle {s} {i : ι} {cleanup : Cleanup} {next : Str} {rest : List Str}
      {p : Nat} {e : Entry γ}
      (hlock : s.lock = some (i, .cleaning cleanup (next :: rest)))
      (hlookup : s.clients.lookup next = some p) (hentry : s.entries[p]? = some e)
      (hidle : e.hasActiveRequests = false)
      (hold : cleanup.exceedsCapacity = true ∨ pool.idleTimeout < e.idleDuration cleanup.now) :
      Step pool s .other (s.goto (some (i, .evicting cleanup next rest)))
  | evict {s} {i : ι} {cleanup : Cleanup} {idle : Str} {rest : List Str}
      (hlock : s.lock = some (i, .evicting cleanup idle rest)) :
      Step pool s .other (s.delete idle (some (i, .cleaning cleanup rest)))
  | cleaned {s} {i : ι} {cleanup : Cleanup}
      (hlock : s.lock = some (i, .cleaning cleanup [])) :
      Step pool s .other { s with
        cleanupAt := cleanup.now, lock := some (i, .looking cleanup.key cleanup.addr) }
  | found {s} {i : ι} {key addr : Str} {p : Nat} (now : Int)
      (hlock : s.lock = some (i, .looking key addr)) (hlookup : s.clients.lookup key = some p) :
      Step pool s (.returns key p) ((s.modify p (Entry.setActivedAt now)).giveTo i p)
  | create {s} {i : ι} {key addr : Str} (client : γ) (now : Int)
      (hlock : s.lock = some (i, .looking key addr)) (hnone : s.clients.lookup key = none)
      (hclient : pool.factory addr (.ok client)) :
      Step pool s (.returns key s.entries.length)
        ((s.create key client now).giveTo i s.entries.length)
  | createFails {s} {i : ι} {key addr : Str} (err : Str)
      (hlock : s.lock = some (i, .looking key addr)) (hnone : s.clients.lookup key = none)
      (herr : pool.factory addr (.error err)) : Step pool s .other (s.goto none)
  | callRemoveEntry {s} (i : ι) (key : Str) (hfree : s.lock = none) :
      Step pool s .other (s.goto (some (i, .removing key)))
  | removeNothing {s} {i : ι} {key : Str} (hlock : s.lock = some (i, .removing key))
      (hkeep : ∀ p e, s.clients.lookup key = some p → s.entries[p]? = some e →
        e.hasActiveRequests = true) :
      Step pool s .other (s.goto none)
  | removeIdle {s} {i : ι} {key : Str} {p : Nat} {e : Entry γ}
      (hlock : s.lock = some (i, .removing key)) (hlookup : s.clients.lookup key = some p)
      (hentry : s.entries[p]? = some e) (hidle : e.hasActiveRequests = false) :
      Step pool s .other (s.goto (some (i, .deleting key)))
  | remove {s} {i : ι} {idle : Str} (hlock : s.lock = some (i, .deleting idle)) :
      Step pool s .other (s.delete idle none)
  | requestGuard {s} (i : ι) (p : Nat) (hgot : p ∈ s.got i)
      (hreturned : ∀ progress, s.lock ≠ some (i, progress)) :
      Step pool s (.requestGuard p) { s.modify p Entry.requestGuard with
        guards := Function.update s.guards i (p :: s.guards i) }
  | done {s} (i : ι) (p : Nat) (hguard : p ∈ s.guards i)
      (hreturned : ∀ progress, s.lock ≠ some (i, progress)) :
      Step pool s .other { s.modify p Entry.done with
        guards := Function.update s.guards i ((s.guards i).erase p) }

/-! ### The entries in use -/

/-- The key of the entry that is about to be deleted. -/
def Progress.doomed : Progress → Option Str
  | .evicting _ idle _ | .deleting idle => some idle
  | .cleaning _ _ | .looking _ _ | .removing _ => none

/-- The same, whoever holds the lock. -/
def doomedBy (lock : Option (ι × Progress)) : Option Str :=
  lock.bind fun (_, progress) => progress.doomed

namespace State

variable (s : State ι γ)

def key (p : Nat) : Str := (s.entries[p]?.map Entry.key).getD []

def activeRequests (p : Nat) : Int := (s.entries[p]?.map Entry.activeRequests).getD 0

/-- The pool as a store of entries in use. -/
def view : InUse.State Str Nat where
  kept key := s.clients.lookup key
  keyOf := s.key
  uses := s.activeRequests
  doomed := doomedBy s.lock

/-- Every entry of the pool was made. -/
def Allocated : Prop := ∀ key p, s.clients.lookup key = some p → p < s.entries.length

variable {s}

theorem activeRequests_of_getElem? {p : Nat} {e : Entry γ} (h : s.entries[p]? = some e) :
    s.activeRequests p = e.activeRequests := by
  rw [activeRequests, h]
  rfl

theorem activeRequests_le {p : Nat} {e : Entry γ} (h : s.entries[p]? = some e)
    (hidle : e.hasActiveRequests = false) : s.activeRequests p ≤ 0 := by
  rw [activeRequests_of_getElem? h]
  unfold Entry.hasActiveRequests at hidle
  simpa using hidle

theorem key_modify (p : Nat) (f : Entry γ → Entry γ) (hkey : ∀ e, (f e).key = e.key) :
    (s.modify p f).key = s.key := by
  funext q
  unfold key modify
  simp only [List.getElem?_modify]
  rcases s.entries[q]? with _ | e
  · rfl
  · by_cases h : p = q
    · simp [h, hkey]
    · simp [h]

theorem view_modify {p : Nat} (hp : p < s.entries.length) (f : Entry γ → Entry γ) (n : Int)
    (hkey : ∀ e, (f e).key = e.key)
    (hactive : ∀ e, (f e).activeRequests = e.activeRequests + n) :
    (s.modify p f).view =
      { s.view with uses := Function.update s.view.uses p (s.view.uses p + n) } := by
  have huses : (s.modify p f).activeRequests =
      Function.update s.activeRequests p (s.activeRequests p + n) := by
    funext q
    unfold activeRequests modify
    simp only [List.getElem?_modify]
    by_cases h : q = p
    · obtain ⟨e, he⟩ : ∃ e, s.entries[p]? = some e := ⟨_, List.getElem?_eq_getElem hp⟩
      rw [h, Function.update_self, he]
      simp [hactive]
    · rw [Function.update_of_ne h]
      simp [Ne.symm h]
  show InUse.State.mk (fun key => s.clients.lookup key) (s.modify p f).key
    (s.modify p f).activeRequests _ = _
  rw [key_modify p f hkey, huses]
  rfl

theorem view_delete (key : Str) (lock : Option (ι × Progress)) :
    (s.delete key lock).view = { s.view with
      kept := Function.update s.view.kept key none
      doomed := doomedBy lock } := by
  have hkept : (fun other => (s.clients.erase key).lookup other) =
      Function.update (fun other => s.clients.lookup other) key none := by
    funext other
    by_cases h : other = key
    · rw [h, Function.update_self, Finmap.lookup_erase]
    · rw [Function.update_of_ne h, Finmap.lookup_erase_ne h]
  unfold view delete
  simp only [hkept]
  rfl

theorem inv_new (cleanupAt : Int) : InUse.Inv (State.new cleanupAt : State ι γ).view := by
  have hview : (State.new cleanupAt : State ι γ).view =
      ⟨fun _ => none, fun _ => [], fun _ => 0, none⟩ := by
    have hkept : (fun key => (∅ : Finmap fun _ : Str => Nat).lookup key) = fun _ => none := by
      funext key
      exact Finmap.lookup_empty key
    show InUse.State.mk (fun key => (∅ : Finmap fun _ : Str => Nat).lookup key) _ _ _ = _
    rw [hkept]
    rfl
  rw [hview]
  exact InUse.Inv.empty _

variable [DecidableEq ι]

theorem view_create (i : ι) (key : Str) (client : γ) (now : Int) :
    ((s.create key client now).giveTo i s.entries.length).view =
      { s.view with
        kept := Function.update s.view.kept key (some s.entries.length)
        keyOf := Function.update s.view.keyOf s.entries.length key
        doomed := none } := by
  have hkept : (fun other => (s.clients.insert key s.entries.length).lookup other) =
      Function.update (fun other => s.clients.lookup other) key (some s.entries.length) := by
    funext other
    by_cases h : other = key
    · rw [h, Function.update_self, Finmap.lookup_insert]
    · rw [Function.update_of_ne h, Finmap.lookup_insert_of_ne _ h]
  have hrest : ∀ p, p ≠ s.entries.length →
      (s.entries ++ [⟨client, 0, now, key⟩])[p]? = s.entries[p]? := by
    intro p hp
    rcases Nat.lt_or_gt_of_ne hp with hlt | hgt
    · exact List.getElem?_append_left hlt
    · have hlength : (s.entries ++ [(⟨client, 0, now, key⟩ : Entry γ)]).length =
          s.entries.length + 1 := List.length_append
      rw [List.getElem?_eq_none (by omega), List.getElem?_eq_none (by omega)]
  have hkeyOf : (s.create key client now).key = Function.update s.key s.entries.length key := by
    funext p
    by_cases h : p = s.entries.length
    · rw [h, Function.update_self]
      simp [State.key, create]
    · rw [Function.update_of_ne h]
      simp only [State.key, create, hrest p h]
  have huses : (s.create key client now).activeRequests = s.activeRequests := by
    funext p
    by_cases h : p = s.entries.length
    · simp [activeRequests, create, h]
    · simp only [activeRequests, create, hrest p h]
  show InUse.State.mk (fun other => (s.clients.insert key s.entries.length).lookup other)
    (s.create key client now).key (s.create key client now).activeRequests none = _
  rw [hkept, hkeyOf, huses]
  rfl

theorem step_create (hallocated : s.Allocated) (hdoomed : s.view.doomed = none) (i : ι) {key : Str}
    (hnone : s.clients.lookup key = none) (client : γ) (now : Int) :
    InUse.Step s.view ((s.create key client now).giveTo i s.entries.length).view := by
  have hfresh : ∀ key, s.view.kept key ≠ some s.entries.length := by
    intro key heq
    have hlt := hallocated key _ heq
    omega
  have hunused : s.view.uses s.entries.length = 0 := by
    show s.activeRequests s.entries.length = 0
    rw [State.activeRequests, List.getElem?_eq_none (Nat.le_refl _)]
    rfl
  rw [view_create, ← hdoomed]
  exact .put _ _ hnone hfresh hunused

omit [DecidableEq ι] in
theorem view_done (p : Nat) :
    (s.modify p Entry.done).view = s.view ∨ InUse.Step s.view (s.modify p Entry.done).view := by
  by_cases hp : p < s.entries.length
  · right
    rw [view_modify hp Entry.done (-1) (fun _ => rfl) (fun _ => rfl)]
    exact .giveBack p
  · left
    have hsame : s.modify p Entry.done = s := by
      unfold modify
      rw [List.modify_eq_self (by omega)]
    rw [hsame]

end State

variable [DecidableEq ι] {pool : Pool γ} {s s' : State ι γ} {event : Event}

/-- A step of the pool is one of the store of entries in use, or makes no difference to it. -/
theorem Step.view (hstep : pool.Step s event s') (hallocated : s.Allocated)
    (hstays : ∀ p, event = .requestGuard p → s.view.Stays p) :
    s'.view = s.view ∨ InUse.Step s.view s'.view := by
  have hdoomed : ∀ {lock : Option (ι × Progress)} {doomed : Option Str}, s.lock = lock →
      doomedBy lock = doomed → s.view.doomed = doomed := by
    intro lock doomed hlock hsame
    subst hlock
    exact hsame
  have hgoto : ∀ {lock : Option (ι × Progress)} (next : Option (ι × Progress)), s.lock = lock →
      doomedBy lock = doomedBy next → (s.goto next).view = s.view := by
    intro lock next hlock hsame
    show { s.view with doomed := doomedBy next } = s.view
    rw [← hdoomed hlock hsame]
  cases hstep with
  | callEntryEarly i key addr now hfree hearly => exact .inl (hgoto _ hfree rfl)
  | callEntry i key addr now order hfree hlate horder => exact .inl (hgoto _ hfree rfl)
  | gone hlock hgone => exact .inl (hgoto _ hlock rfl)
  | retain hlock hlookup hentry hretain => exact .inl (hgoto _ hlock rfl)
  | findIdle hlock hlookup hentry hidle hold =>
    exact .inr (.doom _ _ hlookup (State.activeRequests_le hentry hidle))
  | evict hlock =>
    rw [State.view_delete]
    exact .inr (.remove _ (hdoomed hlock rfl))
  | cleaned hlock => exact .inl (hgoto _ hlock rfl)
  | found now hlock hlookup =>
    left
    rename_i p
    have hview := State.view_modify (hallocated _ p hlookup) (Entry.setActivedAt now) 0
      (fun _ => rfl) (fun _ => (Int.add_zero _).symm)
    rw [Int.add_zero, Function.update_eq_self] at hview
    have hnone : s.view.doomed = none := hdoomed hlock rfl
    show { (s.modify p (Entry.setActivedAt now)).view with doomed := none } = s.view
    rw [hview, ← hnone]
  | create client now hlock hnone hclient =>
    exact .inr (s.step_create hallocated (hdoomed hlock rfl) _ hnone client now)
  | createFails err hlock hnone herr => exact .inl (hgoto _ hlock rfl)
  | callRemoveEntry i key hfree => exact .inl (hgoto _ hfree rfl)
  | removeNothing hlock hkeep => exact .inl (hgoto _ hlock rfl)
  | removeIdle hlock hlookup hentry hidle =>
    exact .inr (.doom _ _ hlookup (State.activeRequests_le hentry hidle))
  | remove hlock =>
    rw [State.view_delete]
    exact .inr (.remove _ (hdoomed hlock rfl))
  | requestGuard i p hgot hreturned =>
    have hp := hallocated _ p (hstays p rfl).1
    have hview := State.view_modify hp Entry.requestGuard 1 (fun _ => rfl) (fun _ => rfl)
    right
    show InUse.Step s.view (s.modify p Entry.requestGuard).view
    rw [hview]
    exact .use p (hstays p rfl)
  | done i p hguard hreturned =>
    show (s.modify p Entry.done).view = s.view ∨ InUse.Step s.view (s.modify p Entry.done).view
    exact State.view_done p

theorem Step.allocated (hstep : pool.Step s event s') (h : s.Allocated) : s'.Allocated := by
  have hdelete : ∀ idle lock, (s.delete idle lock).Allocated := by
    intro idle lock key p hlookup
    by_cases hkey : key = idle
    · rw [hkey] at hlookup
      cases (Finmap.lookup_erase idle s.clients).symm.trans hlookup
    · exact h key p ((Finmap.lookup_erase_ne hkey).symm.trans hlookup)
  have hmodify : ∀ p f, (s.modify p f).Allocated := by
    intro p f key q hlookup
    have hlength : (s.modify p f).entries.length = s.entries.length := List.length_modify _ _ _
    rw [hlength]
    exact h key q hlookup
  cases hstep with
  | callEntryEarly i key addr now hfree hearly => exact h
  | callEntry i key addr now order hfree hlate horder => exact h
  | gone hlock hgone => exact h
  | retain hlock hlookup hentry hretain => exact h
  | findIdle hlock hlookup hentry hidle hold => exact h
  | evict hlock => exact hdelete _ _
  | cleaned hlock => exact h
  | found now hlock hlookup => exact hmodify _ _
  | create client now hlock hnone hclient =>
    rename_i i key addr
    intro key' p hlookup
    show p < (s.entries ++ [_]).length
    rw [List.length_append, List.length_singleton]
    by_cases hkey : key' = key
    · rw [hkey] at hlookup
      obtain rfl := Option.some.inj ((Finmap.lookup_insert _).symm.trans hlookup)
      omega
    · have hlt := h key' p ((Finmap.lookup_insert_of_ne _ hkey).symm.trans hlookup)
      omega
  | createFails err hlock hnone herr => exact h
  | callRemoveEntry i key hfree => exact h
  | removeNothing hlock hkeep => exact h
  | removeIdle hlock hlookup hentry hidle => exact h
  | remove hlock => exact hdelete _ _
  | requestGuard i p hgot hreturned => exact hmodify _ _
  | done i p hguard hreturned => exact hmodify _ _

/-! ### Runs -/

/-- The entry is in the pool under its key, and not about to be deleted. -/
def State.Stays (s : State ι γ) (p : Nat) : Prop :=
  s.clients.lookup (s.key p) = some p ∧ doomedBy s.lock ≠ some (s.key p)

/-- One step, of whatever goroutine. -/
def AnyStep (pool : Pool γ) (s s' : State ι γ) : Prop := ∃ event, pool.Step s event s'

/-- One step, where a guard is taken on an entry that stays. -/
def CarefulStep (pool : Pool γ) (s s' : State ι γ) : Prop :=
  ∃ event, pool.Step s event s' ∧ ∀ p, event = .requestGuard p → s.Stays p

/-- An entry with active requests is in the pool, and it is the one that `Entry` returns for its
key. -/
structure Retains (pool : Pool γ) (s : State ι γ) : Prop where
  kept : ∀ p, 0 < s.activeRequests p → s.clients.lookup (s.key p) = some p
  returned : ∀ s' key p p', pool.Step s (.returns key p') s' → 0 < s.activeRequests p →
    s.key p = key → p' = p

theorem retains_of_inv (h : InUse.Inv s.view) : pool.Retains s := by
  refine ⟨h.kept, ?_⟩
  intro s' key p p' hstep hactive hkey
  have hkept : s.clients.lookup (s.key p) = some p := h.kept p hactive
  rw [hkey] at hkept
  cases hstep with
  | found now hlock hlookup => exact Option.some.inj (hlookup.symm.trans hkept)
  | create client now hlock hnone hclient =>
    rw [hnone] at hkept
    cases hkept

/-- **Entries with active requests are retained** in every state of a run in which every guard is
taken on an entry that stays. -/
theorem pool_retains_active (pool : Pool γ) (cleanupAt : Int) (s : State ι γ)
    (hrun : Relation.ReflTransGen pool.CarefulStep (.new cleanupAt) s) : pool.Retains s := by
  have hstart : (State.new cleanupAt : State ι γ).Allocated := by
    intro key p hlookup
    cases (Finmap.lookup_empty key).symm.trans hlookup
  have hreaches : s.Allocated ∧ InUse.Reaches (State.new cleanupAt : State ι γ).view s.view := by
    induction hrun with
    | refl => exact ⟨hstart, .refl⟩
    | tail _ hstep ih =>
      obtain ⟨event, hstep, hstays⟩ := hstep
      obtain ⟨hallocated, hreaches⟩ := ih
      refine ⟨hstep.allocated hallocated, ?_⟩
      rcases hstep.view hallocated hstays with hsame | hview
      · rw [hsame]
        exact hreaches
      · exact hreaches.tail hview
  exact retains_of_inv (hreaches.2.inv (State.inv_new cleanupAt))

/-- A pool whose factory makes a client for every address. -/
def examplePool : Pool Unit := ⟨fun _ result => result = .ok (), 10, 600⟩

/-- A goroutine has called `Entry`. -/
def exampleCalled : State Bool Unit :=
  (State.new 0).goto (some (true, .looking "a".toList "a".toList))

/-- It has got an entry. -/
def exampleGot : State Bool Unit := (exampleCalled.create "a".toList () 0).giveTo true 0

/-- It has taken a guard. -/
def exampleGuarded : State Bool Unit :=
  { exampleGot.modify 0 Entry.requestGuard with
    guards := Function.update exampleGot.guards true [0] }

theorem exampleCalled_step : examplePool.Step (State.new 0) .other exampleCalled :=
  .callEntryEarly true _ _ 0 rfl (by decide)

theorem exampleGot_step : examplePool.Step exampleCalled (.returns "a".toList 0) exampleGot :=
  .create () 0 rfl (Finmap.lookup_empty _) rfl

theorem lookup_exampleGot : exampleGot.clients.lookup "a".toList = some 0 :=
  Finmap.lookup_insert _

theorem exampleGuarded_careful :
    Relation.ReflTransGen examplePool.CarefulStep (.new 0) exampleGuarded := by
  have hguard : examplePool.Step exampleGot (.requestGuard 0) exampleGuarded :=
    .requestGuard true 0 (.head _) (fun _ h => by cases h)
  have hstays : exampleGot.Stays 0 := ⟨lookup_exampleGot, fun h => by cases h⟩
  refine ((Relation.ReflTransGen.single ⟨_, exampleCalled_step, fun p h => by cases h⟩).tail
    ⟨_, exampleGot_step, fun p h => by cases h⟩).tail ⟨_, hguard, fun p h => ?_⟩
  cases h
  exact hstays

/-- While a guard is held, another goroutine does not remove the entry, then gets it and takes a guard
too, and the first guard is given back. -/
theorem pool_retains_active_guarded : ∃ s : State Bool Unit,
    examplePool.Retains s ∧ s.activeRequests 0 = 1 ∧ s.guards true = [] ∧ s.guards false = [0] := by
  have hlookup : exampleGuarded.clients.lookup "a".toList = some 0 := lookup_exampleGot
  have hkeep : ∀ p e, exampleGuarded.clients.lookup "a".toList = some p →
      exampleGuarded.entries[p]? = some e → e.hasActiveRequests = true := by
    intro p e hp he
    rw [hlookup] at hp
    cases hp
    cases he
    rfl
  have hunchanged := exampleGuarded_careful.tail
    ⟨_, .callRemoveEntry false "a".toList rfl, fun p h => by cases h⟩ |>.tail
    ⟨_, .removeNothing rfl hkeep, fun p h => by cases h⟩
  have hfound := hunchanged.tail
    ⟨_, .callEntryEarly false "a".toList "a".toList 100 rfl (by decide), fun p h => by cases h⟩ |>.tail
    ⟨_, .found 100 rfl hlookup, fun p h => by cases h⟩
  have hshared := hfound.tail
    ⟨_, .requestGuard false 0 (.head _) (fun _ h => by cases h), fun p h => by
      cases h
      exact ⟨hlookup, fun h => by cases h⟩⟩
  have hdone := hshared.tail
    ⟨_, .done true 0 (.head _) (fun _ h => by cases h), fun p h => by cases h⟩
  exact ⟨_, pool_retains_active examplePool 0 _ hdone, by decide, by decide, by decide⟩

/-- Another goroutine has removed the entry, and the guard is taken after that. -/
def exampleEvicted : State Bool Unit :=
  { (exampleGot.delete "a".toList none).modify 0 Entry.requestGuard with
    guards := Function.update exampleGot.guards true [0] }

/-- A guard that is taken late does not keep the entry. -/
theorem not_retains : ¬ ∀ (pool : Pool Unit) (cleanupAt : Int) (s : State Bool Unit),
    Relation.ReflTransGen pool.AnyStep (.new cleanupAt) s → pool.Retains s := by
  intro h
  have hcall : examplePool.Step exampleGot .other
      (exampleGot.goto (some (false, .removing "a".toList))) :=
    .callRemoveEntry false _ rfl
  have hidle : examplePool.Step (exampleGot.goto (some (false, .removing "a".toList))) .other
      (exampleGot.goto (some (false, .deleting "a".toList))) :=
    .removeIdle rfl lookup_exampleGot rfl rfl
  have hremove : examplePool.Step (exampleGot.goto (some (false, .deleting "a".toList))) .other
      (exampleGot.delete "a".toList none) :=
    .remove rfl
  have hguard : examplePool.Step (exampleGot.delete "a".toList none) (.requestGuard 0)
      exampleEvicted :=
    .requestGuard true 0 (.head _) (fun _ h => by cases h)
  have hrun : Relation.ReflTransGen examplePool.AnyStep (.new 0) exampleEvicted :=
    (((((Relation.ReflTransGen.single ⟨_, exampleCalled_step⟩).tail ⟨_, exampleGot_step⟩).tail
      ⟨_, hcall⟩).tail ⟨_, hidle⟩).tail ⟨_, hremove⟩).tail ⟨_, hguard⟩
  have hkept := (h examplePool 0 exampleEvicted hrun).kept 0 (by decide)
  cases (Finmap.lookup_erase "a".toList exampleGot.clients).symm.trans hkept

end Pool

end DragonflySdk.Go
