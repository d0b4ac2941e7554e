import Mathlib.Data.List.Nodup
import Mathlib.Logic.Function.Basic
import Mathlib.Logic.Relation
import Mathlib.Tactic.Common

/-!
# One flight at a time

Any number of flights want to fetch something and put it into shared state. Each first tries to take
a lock: the one that gets it fetches, writes what it fetched and lets go of the lock, the others give
up at once. Whatever the interleaving, the shared state is what the flights that wrote made of it,
one after the other (`Reaches.inv`); one that found another under way, or fetched nothing, is not
among them.
-/

namespace DragonflySdk.Foundation

/-- What flights that fetch an `α` write to the shared state `σ`. -/
structure SingleFlight (α σ : Type*) where
  write : σ → α → σ

namespace SingleFlight

/-- How a flight has ended. -/
inductive Outcome (ε : Type*)
  /-- another one was under way -/
  | busy
  /-- nothing was fetched -/
  | failed (err : ε)
  | wrote

/-- How far a flight has come. -/
inductive Phase (ε : Type*)
  | idle
  /-- holds the lock -/
  | fetching
  /-- holds the lock, has written -/
  | written
  | ended (outcome : Outcome ε)

/-- Whether the flight holds the lock. -/
def Phase.Holds {ε : Type*} : Phase ε → Prop
  | .fetching | .written => True
  | .idle | .ended _ => False

/-- Whether the flight has written. -/
def Phase.Wrote {ε : Type*} : Phase ε → Prop
  | .written | .ended .wrote => True
  | _ => False

/-- The shared state, who holds the lock, and how far each flight has come. `writers` records history,
in order: no step reads it. -/
structure State (ι ε σ : Type*) where
  shared : σ
  holder : Option ι
  phase : ι → Phase ε
  writers : List ι

variable {ι α ε σ : Type*}

/-- Before any flight. -/
def init (shared : σ) : State ι ε σ := ⟨shared, none, fun _ => .idle, []⟩

namespace State

variable [DecidableEq ι]

/-- The flight `i` goes on, with or without the lock. -/
def goto (s : State ι ε σ) (i : ι) (phase : Phase ε) (holder : Option ι) : State ι ε σ :=
  { s with phase := Function.update s.phase i phase, holder := holder }

/-- The flight `i` writes. -/
def write (s : State ι ε σ) (i : ι) (shared : σ) : State ι ε σ where
  shared := shared
  holder := s.holder
  phase := Function.update s.phase i .written
  writers := s.writers ++ [i]

theorem goto_phase (s : State ι ε σ) (i j : ι) (phase : Phase ε) (holder : Option ι) :
    (s.goto i phase holder).phase j = if j = i then phase else s.phase j :=
  Function.update_apply _ _ _ _

theorem write_phase (s : State ι ε σ) (i j : ι) (shared : σ) :
    (s.write i shared).phase j = if j = i then .written else s.phase j :=
  Function.update_apply _ _ _ _

end State

/-- What was fetched, when something was. -/
def fetchedBy (fetched : ι → Except ε α) (order : List ι) : List α :=
  order.filterMap fun i => (fetched i).toOption

theorem fetchedBy_concat {fetched : ι → Except ε α} {order : List ι} {i : ι} {a : α}
    (h : fetched i = .ok a) :
    fetchedBy fetched (order ++ [i]) = fetchedBy fetched order ++ [a] := by
  rw [fetchedBy, List.filterMap_append, List.filterMap_cons_some (by rw [h]; rfl)]
  rfl

variable [DecidableEq ι] (p : SingleFlight α σ) (fetched : ι → Except ε α)

/-- One atomic step. -/
inductive Step : State ι ε σ → State ι ε σ → Prop
  | takeOff {s} (i : ι) (h : s.phase i = .idle) (hfree : s.holder = none) :
      Step s (s.goto i .fetching (some i))
  | giveUp {s} (i j : ι) (h : s.phase i = .idle) (hheld : s.holder = some j) :
      Step s (s.goto i (.ended .busy) s.holder)
  | fail {s} (i : ι) (err : ε) (h : s.phase i = .fetching) (hfetched : fetched i = .error err) :
      Step s (s.goto i (.ended (.failed err)) none)
  | write {s} (i : ι) (a : α) (h : s.phase i = .fetching) (hfetched : fetched i = .ok a) :
      Step s (s.write i (p.write s.shared a))
  | land {s} (i : ι) (h : s.phase i = .written) : Step s (s.goto i (.ended .wrote) none)

/-- Any number of steps. -/
abbrev Reaches : State ι ε σ → State ι ε σ → Prop :=
  Relation.ReflTransGen (Step p fetched)

/-- What holds in every state. -/
structure Inv (initial : σ) (s : State ι ε σ) : Prop where
  shared_eq : s.shared = (fetchedBy fetched s.writers).foldl p.write initial
  /-- Those that wrote have fetched, each once. -/
  nodup : s.writers.Nodup
  mem_iff : ∀ i, i ∈ s.writers ↔ (s.phase i).Wrote
  exists_fetched : ∀ i ∈ s.writers, ∃ a, fetched i = .ok a
  failed : ∀ i err, s.phase i = .ended (.failed err) → fetched i = .error err
  /-- At most one flight is under way. -/
  holder_iff : ∀ i, s.holder = some i ↔ (s.phase i).Holds

variable {p fetched} {initial : σ} {s s' : State ι ε σ}

theorem Inv.goto (hs : Inv p fetched initial s) (i : ι) {phase : Phase ε} {holder : Option ι}
    (hwrote : phase.Wrote ↔ (s.phase i).Wrote)
    (hfailed : ∀ err, phase = .ended (.failed err) → fetched i = .error err)
    (hholder : ∀ j, holder = some j ↔ if j = i then phase.Holds else (s.phase j).Holds) :
    Inv p fetched initial (s.goto i phase holder) where
  shared_eq := hs.shared_eq
  nodup := hs.nodup
  mem_iff j := by
    rw [State.goto_phase]
    by_cases hj : j = i
    · rw [if_pos hj, hwrote, hj]
      exact hs.mem_iff i
    · rw [if_neg hj]
      exact hs.mem_iff j
  exists_fetched := hs.exists_fetched
  failed j err h := by
    rw [State.goto_phase] at h
    by_cases hj : j = i
    · rw [if_pos hj] at h
      exact hj ▸ hfailed err h
    · rw [if_neg hj] at h
      exact hs.failed j err h
  holder_iff j := by
    rw [State.goto_phase]
    refine (hholder j).trans ?_
    by_cases hj : j = i
    · rw [if_pos hj, if_pos hj]
    · rw [if_neg hj, if_neg hj]

omit [DecidableEq ι] in
theorem Inv.not_holds (hs : Inv p fetched initial s) {i j : ι} (hi : (s.phase i).Holds)
    (hne : j ≠ i) : ¬ (s.phase j).Holds := by
  intro hj
  have hholder := (hs.holder_iff i).mpr hi
  rw [(hs.holder_iff j).mpr hj] at hholder
  exact hne (Option.some.inj hholder)

theorem Inv.release (hs : Inv p fetched initial s) {i : ι} (hholds : (s.phase i).Holds)
    {phase : Phase ε} (hphase : ¬ phase.Holds) (hwrote : phase.Wrote ↔ (s.phase i).Wrote)
    (hfailed : ∀ err, phase = .ended (.failed err) → fetched i = .error err) :
    Inv p fetched initial (s.goto i phase none) := by
  refine hs.goto i hwrote hfailed fun k => ?_
  by_cases hk : k = i
  · rw [if_pos hk]
    exact ⟨nofun, fun hholds' => absurd hholds' hphase⟩
  · rw [if_neg hk]
    exact ⟨nofun, fun hholds' => absurd hholds' (hs.not_holds hholds hk)⟩

theorem Inv.write (hs : Inv p fetched initial s) {i : ι} (h : s.phase i = .fetching) {a : α}
    (hfetched : fetched i = .ok a) : Inv p fetched initial (s.write i (p.write s.shared a)) := by
  have hnot : i ∉ s.writers := by
    rw [hs.mem_iff, h]
    exact id
  refine ⟨?_, ?_, fun j => ?_, ?_, fun j err hj => ?_, fun j => ?_⟩
  · show p.write s.shared a = (fetchedBy fetched (s.writers ++ [i])).foldl p.write initial
    rw [fetchedBy_concat hfetched, List.foldl_append, ← hs.shared_eq]
    rfl
  · exact List.nodup_append.mpr ⟨hs.nodup, List.nodup_singleton i, fun j hj k hk heq =>
      hnot (List.mem_singleton.mp hk ▸ heq ▸ hj)⟩
  · show j ∈ s.writers ++ [i] ↔ _
    rw [List.mem_append, List.mem_singleton, State.write_phase]
    by_cases hj : j = i
    · rw [if_pos hj]
      exact ⟨fun _ => trivial, fun _ => Or.inr hj⟩
    · rw [if_neg hj, ← hs.mem_iff, or_iff_left hj]
  · intro j hj
    rcases List.mem_append.mp hj with hj | hj
    · exact hs.exists_fetched j hj
    · exact ⟨a, List.mem_singleton.mp hj ▸ hfetched⟩
  · rw [State.write_phase] at hj
    by_cases hji : j = i
    · rw [if_pos hji] at hj
      cases hj
    · rw [if_neg hji] at hj
      exact hs.failed j err hj
  · rw [State.write_phase]
    refine (hs.holder_iff j).trans ?_
    by_cases hj : j = i
    · rw [if_pos hj, hj, h]
      exact Iff.rfl
    · rw [if_neg hj]

theorem Step.inv (hstep : Step p fetched s s') (hs : Inv p fetched initial s) :
    Inv p fetched initial s' := by
  cases hstep with
  | takeOff i h hfree =>
    refine hs.goto i (by rw [h]; exact Iff.rfl) (fun err => nofun) fun j => ?_
    have hnone := hs.holder_iff j
    rw [hfree] at hnone
    by_cases hj : j = i
    · rw [if_pos hj, hj]
      exact ⟨fun _ => trivial, fun _ => rfl⟩
    · rw [if_neg hj, ← hnone, Option.some_inj]
      exact ⟨fun heq => absurd heq.symm hj, nofun⟩
  | giveUp i j h hheld =>
    refine hs.goto i (by rw [h]; exact Iff.rfl) (fun err => nofun) fun k => ?_
    rw [hs.holder_iff k]
    by_cases hk : k = i
    · rw [if_pos hk, hk, h]
      exact Iff.rfl
    · rw [if_neg hk]
  | fail i err h hfetched =>
    refine hs.release (by rw [h]; trivial) id (by rw [h]; exact Iff.rfl) fun err' heq => ?_
    cases heq
    exact hfetched
  | write i a h hfetched => exact hs.write h hfetched
  | land i h =>
    exact hs.release (by rw [h]; trivial) id (by rw [h]; exact Iff.rfl) fun err => nofun

omit [DecidableEq ι] in
theorem init_inv : Inv p fetched initial (init initial : State ι ε σ) where
  shared_eq := rfl
  nodup := List.nodup_nil
  mem_iff _ := ⟨nofun, False.elim⟩
  exists_fetched := nofun
  failed _ _ := nofun
  holder_iff _ := ⟨nofun, False.elim⟩

/-- **Whatever is reached, the flights that wrote made it so.** -/
theorem Reaches.inv (h : Reaches p fetched (init initial) s) : Inv p fetched initial s := by
  induction h with
  | refl => exact init_inv
  | tail _ hstep ih => exact hstep.inv ih

end SingleFlight

end DragonflySdk.Foundation
