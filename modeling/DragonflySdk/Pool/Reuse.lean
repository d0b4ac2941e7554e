import DragonflySdk.Pool.Go

/-!
# The client pools reuse clients

In calls one after the other, at times that do not decrease, a client that is reused was last used at
most three halves of the idle timeout ago: half of it since the last cleanup, and all of it before.
As long as the pool does not exceed its capacity, a client that a call returned is reused by the next
call of its key, if that comes within the idle timeout. And from one removal of a key to the next, one
client is made for it (`pool_reuses_clients`); the factory is called for it once, and once more for
every call that fails.
-/

namespace DragonflySdk.Pool

open Foundation

/-- Clients are reused while they are recent, and none that is stale is. -/
structure ReusesClients {κ γ τ : Type} [DecidableEq κ] (clock : τ → Int) (capacity idleTimeout : Int)
    (log : List (IdleCache.Visit κ γ τ)) : Prop where
  /-- what is reused was last used at most three halves of the idle timeout ago -/
  fresh : ∀ before v after client, log = before ++ v :: after → v.outcome = .reused client →
    ∃ usedAt, IdleCache.LastVisit before v.key client usedAt ∧
      2 * (clock v.now - clock usedAt) ≤ 3 * idleTimeout
  /-- what the last call of a key returned, at most the idle timeout ago, is reused -/
  recent : ∀ before v after client usedAt, log = before ++ v :: after →
    (∀ w ∈ before, (w.size : Int) ≤ capacity) → IdleCache.LastVisit before v.key client usedAt →
    clock v.now - clock usedAt ≤ idleTimeout → v.outcome = .reused client
  /-- until a key is removed, all its calls fail or one client is made, which all return -/
  stretch : ∀ key before first rest after, log = before ++ first :: rest ++ after →
    before = [] ∨ key ∈ first.removed → (∀ v ∈ rest, key ∉ v.removed) →
    (∀ v ∈ first :: rest, v.key = key → v.outcome = .failed) ∨
      ∃ client, (first :: rest).filterMap (IdleCache.Visit.made key) = [client] ∧
        (∀ v ∈ first :: rest, v.key = key → v.outcome = .failed ∨ v.outcome.value = some client) ∧
        (first :: rest).countP (IdleCache.Visit.asks key) =
          1 + (first :: rest).countP (IdleCache.Visit.fails key)

section
variable {κ γ τ : Type} [DecidableEq κ] [LinearOrder τ] {clock : τ → Int} {idleTimeout : Int}
  {policy : IdleCache.Policy τ} {createdAt : τ} {log before after : List (IdleCache.Visit κ γ τ)}
  {v : IdleCache.Visit κ γ τ} {s : IdleCache.State κ γ τ}

theorem logs_until (h : IdleCache.Logs policy (.new createdAt) log s)
    (hsorted : IdleCache.Sorted createdAt log) (hlog : log = before ++ after) :
    (∃ s', IdleCache.Logs policy (.new createdAt) before s') ∧
      IdleCache.Sorted createdAt before := by
  subst hlog
  obtain ⟨s', hbefore, _⟩ := Trace.append_iff.mp h
  refine ⟨⟨s', hbefore⟩, hsorted.sublist ?_⟩
  exact ((List.sublist_append_left before after).map _).cons_cons createdAt

omit [DecidableEq κ] in
theorem lastVisit_le {key : κ} {client : γ} {usedAt : τ}
    (hsorted : IdleCache.Sorted createdAt (before ++ [v]))
    (h : IdleCache.LastVisit before key client usedAt) : usedAt ≤ v.now := by
  obtain ⟨before', last, after', rfl, _, rfl, _⟩ := h
  refine hsorted.concat.2 last.now (List.mem_cons_of_mem _ (List.mem_map_of_mem ?_))
  exact List.mem_append_right _ List.mem_cons_self

omit [LinearOrder τ] in
theorem one_client_of_logs {key : κ} {first : IdleCache.Visit κ γ τ}
    {rest : List (IdleCache.Visit κ γ τ)}
    (h : IdleCache.Logs policy (.new createdAt) (before ++ first :: rest) s)
    (hfirst : before = [] ∨ key ∈ first.removed) (hrest : ∀ v ∈ rest, key ∉ v.removed) :
    (∀ v ∈ first :: rest, v.key = key → v.outcome = .failed) ∨
      ∃ client, (first :: rest).filterMap (IdleCache.Visit.made key) = [client] ∧
        (∀ v ∈ first :: rest, v.key = key → v.outcome = .failed ∨ v.outcome.value = some client) ∧
        (first :: rest).countP (IdleCache.Visit.asks key) =
          1 + (first :: rest).countP (IdleCache.Visit.fails key) := by
  have hgot : ∀ {w : IdleCache.Visit κ γ τ}, w.key = key →
      IdleCache.Visit.got key w = w.outcome.value := fun hkey => if_pos hkey
  rcases h.stretch hfirst hrest with ⟨hnone, _⟩ | ⟨client, hmade, hall⟩
  · left
    intro w hw hkey
    exact IdleCache.Outcome.value_eq_none_iff.mp
      ((hgot hkey).symm.trans (List.filterMap_eq_nil_iff.mp hnone w hw))
  · refine .inr ⟨client, hmade, ?_, ?_⟩
    · intro w hw hkey
      rcases hvalue : w.outcome.value with _ | value
      · exact .inl (IdleCache.Outcome.value_eq_none_iff.mp hvalue)
      · right
        have hmem := List.mem_filterMap.mpr ⟨w, hw, (hgot hkey).trans hvalue⟩
        rw [hall value hmem]
    · rw [IdleCache.countP_asks, hmade, List.length_singleton]

/-- A cache reuses what it holds, when a cleanup is due half the idle timeout after the last, and
what is idle for longer than it is not recent. -/
theorem reusesClients_of_logs (hclock : ∀ ⦃now now'⦄, now ≤ now' → clock now ≤ clock now')
    (hrecent : ∀ now usedAt,
      policy.recent now usedAt = true ↔ clock now - clock usedAt ≤ idleTimeout)
    (hearly : ∀ now cleanedAt, policy.early now cleanedAt = true →
      2 * (clock now - clock cleanedAt) < idleTimeout)
    (h : IdleCache.Logs policy (.new createdAt) log s) (hsorted : IdleCache.Sorted createdAt log) :
    ReusesClients clock policy.capacity idleTimeout log where
  fresh before v after client hlog hreused := by
    have hlog' : log = (before ++ [v]) ++ after := by rw [hlog, List.append_assoc]; rfl
    obtain ⟨⟨s', hbefore⟩, hsorted'⟩ := logs_until h hsorted hlog'
    obtain ⟨usedAt, hlast, hkept⟩ := hbefore.reused hsorted' hreused
    have hle := hclock (lastVisit_le hsorted' hlast)
    refine ⟨usedAt, hlast, ?_⟩
    rcases hkept with hnow | ⟨cleanedAt, hcleanup, hsince⟩
    · have hnow' := (hrecent _ _).mp hnow
      omega
    · have hcleanup' := hearly _ _ hcleanup
      rcases hsince with hused | hthen
      · have hused' := hclock hused
        omega
      · have hthen' := (hrecent _ _).mp hthen
        omega
  recent before v after client usedAt hlog hsizes hlast hnow := by
    have hlog' : log = (before ++ [v]) ++ after := by rw [hlog, List.append_assoc]; rfl
    obtain ⟨⟨s', hbefore⟩, hsorted'⟩ := logs_until h hsorted hlog'
    obtain ⟨before', last, middle, rfl, hkey, rfl, hvalue, hother⟩ := hlast
    have hmono : ∀ now now' usedAt, now ≤ now' → policy.recent now' usedAt = true →
        policy.recent now usedAt = true := by
      intro now now' usedAt hle hlater
      have hle' := hclock hle
      have hlater' := (hrecent _ _).mp hlater
      exact (hrecent _ _).mpr (by omega)
    refine hbefore.reuses hmono hsorted' hsizes hvalue hkey.symm ?_ ((hrecent _ _).mpr hnow)
    intro w hw
    rw [hkey]
    exact hother w hw
  stretch key before first rest after hlog hfirst hrest := by
    obtain ⟨⟨s', hbefore⟩, _⟩ := logs_until h hsorted hlog
    exact one_client_of_logs hbefore hfirst hrest

end

/-- **Clients are reused while they are recent, and none that is stale is**, in the pools of both
languages. -/
theorem pool_reuses_clients {κ α γ ε γ' ι : Type} [DecidableEq κ] [DecidableEq ι]
    (pool : Pool α γ ε) (createdAt : Nat) (calls : List (Call κ α γ ε))
    (goPool : Go.Pool γ') (goCreatedAt : Int) (goCalls : List (Go.Pool.Call ι γ'))
    (hsorted : (createdAt :: calls.map Call.now).Pairwise (· ≤ ·))
    (hgoSorted : (goCreatedAt :: goCalls.map Go.Pool.Call.now).Pairwise (· ≤ ·)) :
    ReusesClients (fun now : Nat => (now : Int)) pool.capacity pool.idleTimeout
        (pool.log (.new createdAt) calls) ∧
      ReusesClients (fun now => now) goPool.capacity goPool.idleTimeout
        (goPool.log (.new goCreatedAt) goCalls) := by
  constructor
  · have hlogs := pool.implements.logs (s := .new createdAt) trivial calls
    rw [State.view_new] at hlogs
    have hsortedLog : IdleCache.Sorted createdAt (pool.log (.new createdAt) calls) :=
      pool.implements.sorted_log hsorted
    have hrecent : ∀ now usedAt : Nat, pool.policy.recent now usedAt = true ↔
        (now : Int) - usedAt ≤ pool.idleTimeout := by
      intro now usedAt
      have hspec : pool.policy.recent now usedAt = true ↔ now - usedAt ≤ pool.idleTimeout :=
        decide_eq_true_iff
      rw [hspec]
      omega
    have hearly : ∀ now cleanedAt : Nat, pool.policy.early now cleanedAt = true →
        2 * ((now : Int) - cleanedAt) < pool.idleTimeout := by
      intro now cleanedAt h
      have hspec : now - cleanedAt < pool.idleTimeout / 2 := of_decide_eq_true h
      omega
    exact reusesClients_of_logs (fun _ _ => Int.ofNat_le.mpr) hrecent hearly hlogs hsortedLog
  · have hlogs := goPool.implements.logs (Go.Pool.State.unguarded_new goCreatedAt) goCalls
    rw [Go.Pool.State.cache_new] at hlogs
    have hsortedLog : IdleCache.Sorted goCreatedAt (goPool.log (.new goCreatedAt) goCalls) :=
      goPool.implements.sorted_log hgoSorted
    have hrecent : ∀ now usedAt : Int, goPool.policy.recent now usedAt = true ↔
        now - usedAt ≤ goPool.idleTimeout :=
      fun now usedAt => decide_eq_true_iff
    have hearly : ∀ now cleanedAt : Int, goPool.policy.early now cleanedAt = true →
        2 * (now - cleanedAt) < goPool.idleTimeout := by
      intro now cleanedAt h
      have hspec : now - cleanedAt < goPool.idleTimeout.tdiv 2 := of_decide_eq_true h
      have hsign : Int.sign 2 = 1 := rfl
      rw [Int.tdiv_eq_ediv, hsign] at hspec
      split at hspec <;> omega
    exact reusesClients_of_logs (fun _ _ h => h) hrecent hearly hlogs hsortedLog

/-- At a client that is made and reused, in Rust, and a call of Go. -/
theorem pool_reuses_clients_twice :
    ReusesClients (fun now : Nat => (now : Int)) 1 600 (examplePool.log (.new 0)
        [exampleCall true 0 (.ok ()), exampleCall true 600 (.error ())]) ∧
      ReusesClients (fun now => now) 10 600 (Go.Pool.examplePool.log (.new 0)
        [(⟨true, "a".toList, [], 300, .ok (), .sorted⟩ : Go.Pool.Call Bool Unit)]) :=
  pool_reuses_clients examplePool 0 _ Go.Pool.examplePool 0 _ (by decide) (by decide)

/-- A factory that fails is called again, and there is no client to reuse. -/
theorem not_made_once : ¬ ∀ (pool : Pool Unit Unit Unit) (createdAt : Nat)
    (calls : List (Call Bool Unit Unit Unit)) (key : Bool) (first : IdleCache.Visit Bool Unit Nat)
    (rest : List (IdleCache.Visit Bool Unit Nat)),
    (createdAt :: calls.map Call.now).Pairwise (· ≤ ·) →
    pool.log (.new createdAt) calls = first :: rest →
    (∀ v ∈ first :: rest, v.size ≤ pool.capacity) → first.key = key →
    (∀ v ∈ first :: rest, key ∉ v.removed) →
    (first :: rest).countP (IdleCache.Visit.asks key) = 1 := by
  intro h
  have honce := h examplePool 0 [exampleCall true 0 (.error ()), exampleCall true 0 (.error ())] true
    ⟨true, 0, [], .failed, 0⟩ [⟨true, 0, [], .failed, 0⟩]
  have hfails : (2 : Nat) = 1 := honce (by decide) (by rfl) (by decide) rfl (by decide)
  omega

end DragonflySdk.Pool
