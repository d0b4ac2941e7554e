import DragonflySdk.Pool.Go

/-!
# The capacity of the client pools

`capacity` is the maximum number of clients, but a call compares it with the clients that are there
before it makes one, and not at all if the last cleanup is less than half the idle timeout ago. So
a pool may hold more; the next cleanup then removes all clients, recently used or not. A run of calls
respects the capacity just when none of them makes a client with no room left
(`pool_respects_capacity_iff`).
-/

namespace DragonflySdk

open Foundation

namespace Pool

section
variable {κ α γ ε : Type} [DecidableEq κ] (pool : Pool α γ ε) (s : State κ γ)
  (call : Call κ α γ ε)

/-- After the call there are no more clients than the capacity; and if there were more, its cleanup
removes no client that was used within the idle timeout while one is left that was not. -/
def RespectsCapacity : Prop := s.view.Respects pool.policy (pool.visit call s)

/-- The client of the key survives the cleanup, or the factory fails, or there are fewer survivors
than the capacity. All survive if it is too early for a cleanup, and else those that were used within
the idle timeout. -/
def HasRoom : Prop := s.view.Room pool.policy call.key call.now (∃ err, call.made = .error err)

end

end Pool

namespace Go.Pool

section
variable {γ ι : Type} [DecidableEq ι] (pool : Pool γ) (s : State ι γ) (call : Call ι γ)

/-- The same of the pool in Go. -/
def RespectsCapacity : Prop := s.cache.Respects pool.policy (pool.visit call s)

/-- The same of the pool in Go. -/
def HasRoom : Prop := s.cache.Room pool.policy call.key call.now (∃ err, call.made = .error err)

end

end Go.Pool

namespace Pool

/-- **The pools of both languages respect their capacity just as long as there is room** for what
their calls make. -/
theorem pool_respects_capacity_iff {κ α γ ε γ' ι : Type} [DecidableEq κ] [DecidableEq ι]
    (pool : Pool α γ ε) (createdAt : Nat) (calls : List (Call κ α γ ε))
    (goPool : Go.Pool γ') (goCreatedAt : Int) (goCalls : List (Go.Pool.Call ι γ'))
    (hcapacity : 1 ≤ goPool.capacity) :
    ((∀ before call after, calls = before ++ call :: after →
        pool.RespectsCapacity (pool.run (.new createdAt) before) call) ↔
      ∀ before call after, calls = before ++ call :: after →
        pool.HasRoom (pool.run (.new createdAt) before) call) ∧
    ((∀ before call after, goCalls = before ++ call :: after →
        goPool.RespectsCapacity (goPool.run (.new goCreatedAt) before) call) ↔
      ∀ before call after, goCalls = before ++ call :: after →
        goPool.HasRoom (goPool.run (.new goCreatedAt) before) call) := by
  constructor
  · have hnew : ((State.new createdAt : State κ γ).clients.keys.card : Int) ≤ pool.capacity :=
      Int.ofNat_le.mpr (Nat.zero_le _)
    exact pool.implements.respects_along_iff trivial hnew calls
  · have hnew : ((Go.Pool.State.new goCreatedAt : Go.Pool.State ι γ').clients.keys.card : Int) ≤
        goPool.capacity := (Int.natCast_nonneg 0).trans (by omega)
    exact goPool.implements.respects_along_iff (Go.Pool.State.unguarded_new goCreatedAt) hnew goCalls

/-- A client is made and used again, and another is made when that is idle. -/
def exampleCalls : List (Call Bool Unit Unit Unit) :=
  [exampleCall true 0 (.ok ()), exampleCall true 200 (.ok ()), exampleCall false 1000 (.ok ())]

/-- A pool in Go for one client. -/
def exampleGoPool : Go.Pool Unit := ⟨fun _ result => result = .ok (), 1, 600⟩

/-- The same calls in Go. -/
def exampleGoCalls : List (Go.Pool.Call Bool Unit) :=
  [⟨true, "a".toList, [], 0, .ok (), .sorted⟩, ⟨true, "a".toList, [], 200, .ok (), .sorted⟩,
    ⟨false, "b".toList, [], 1000, .ok (), .sorted⟩]

/-- At pools for one client, where one client takes the place of another. -/
theorem pool_respects_capacity_iff_turnover :
    (∀ before call after, exampleCalls = before ++ call :: after →
        examplePool.RespectsCapacity (examplePool.run (.new 0) before) call) ∧
      ∀ before call after, exampleGoCalls = before ++ call :: after →
        exampleGoPool.RespectsCapacity (exampleGoPool.run (.new 0) before) call := by
  have hiff := pool_respects_capacity_iff examplePool 0 exampleCalls exampleGoPool 0 exampleGoCalls
    (by decide)
  refine ⟨hiff.1.mpr ?_, hiff.2.mpr ?_⟩
  · refine IdleCache.forall_along_cons.mpr ⟨.inr (.inr (by decide)), ?_⟩
    refine IdleCache.forall_along_cons.mpr ⟨.inl (by decide), ?_⟩
    refine IdleCache.forall_along_cons.mpr ⟨.inr (.inr (by decide)), ?_⟩
    exact IdleCache.forall_along_nil _
  · refine IdleCache.forall_along_cons.mpr ⟨.inr (.inr (by decide)), ?_⟩
    refine IdleCache.forall_along_cons.mpr ⟨.inl (by decide), ?_⟩
    refine IdleCache.forall_along_cons.mpr ⟨.inr (.inr (by decide)), ?_⟩
    exact IdleCache.forall_along_nil _

/-- Two clients are made within half the idle timeout for a pool that is for one; and the cleanup
after that removes the one that was used recently first. -/
theorem not_respects_capacity :
    (¬ ∀ (pool : Pool Unit Unit Unit) (createdAt : Nat) (calls : List (Call Bool Unit Unit Unit)),
      1 ≤ pool.capacity → (createdAt :: calls.map Call.now).Pairwise (· ≤ ·) →
      (pool.run (.new createdAt) calls).clients.keys.card ≤ pool.capacity) ∧
    ¬ ∀ (pool : Pool Unit Unit Unit) (createdAt : Nat) (calls : List (Call Bool Unit Unit Unit))
        (call : Call Bool Unit Unit Unit) (before after : List Bool) (key idle : Bool)
        (e e' : Entry Unit),
      1 ≤ pool.capacity →
      (createdAt :: (calls ++ [call]).map Call.now).Pairwise (· ≤ ·) →
      pool.capacity < (pool.run (.new createdAt) calls).clients.keys.card →
      (pool.cleanupIdleEntries call.order call.now (pool.run (.new createdAt) calls)).2 =
        before ++ key :: after →
      (pool.run (.new createdAt) calls).clients.lookup key = some e →
      e.idleDuration call.now ≤ pool.idleTimeout →
      (pool.run (.new createdAt) calls).clients.lookup idle = some e' →
      pool.idleTimeout < e'.idleDuration call.now → idle ∈ before := by
  constructor
  · intro h
    have htwo : (2 : Nat) ≤ 1 := h examplePool 0
      [exampleCall false 0 (.ok ()), exampleCall true 0 (.ok ())] (by decide) (by decide)
    omega
  · intro h
    have hspared : false ∈ ([] : List Bool) := h examplePool 0
      [exampleCall false 0 (.ok ()), exampleCall true 299 (.ok ())] (exampleCall true 700 (.ok ()))
      [] [false] true false ⟨(), 299⟩ ⟨(), 0⟩ (by decide) (by decide) (by decide) (by decide)
      (by decide) (by decide) (by decide) (by decide)
    cases hspared

end Pool

end DragonflySdk
