import Mathlib.Logic.Function.Basic
import Mathlib.Logic.Relation
import Mathlib.Tactic.Common

/-!
# Updates that let go of the lock

Data and an index built from it, both behind one lock. An update compares its data with the current
one under the lock and, if the index need not change, replaces the data and is done. Otherwise it
releases the lock, builds the index of its own data, and takes the lock again to replace both. So
what it compared with may be gone by the time it writes.

Still, whatever the interleaving of any number of updates,

* the index is always one built from the data (`Reaches.inv`),
* the data is that of the update which wrote last, and
* an update that had returned before another was called is not in effect after that one has
  returned (`lastWriter_ne`).
-/

namespace DragonflySdk.Foundation

/-- What the updates with arguments `α` do to the data `κ` and the index `ρ`. -/
structure SplitUpdate (α κ ρ : Type*) where
  dataOf : α → κ
  /-- from the current data to the new one, the index can stay -/
  unchanged : κ → κ → Bool
  /-- building from the data may give the index -/
  Builds : κ → ρ → Prop

namespace SplitUpdate

/-- How far an update has come. -/
inductive Phase (ρ : Type*)
  | idle
  | called
  /-- holds the lock, the data differed -/
  | compared
  | released
  | built (index : ρ)
  /-- holds the lock, has written -/
  | written
  | returned

/-- Whether the update has written. -/
def Phase.Wrote {ρ : Type*} : Phase ρ → Prop
  | .written | .returned => True
  | _ => False

/-- The shared state, who holds the lock, and how far each update has come. `lastWriter` records
history: no step reads it. -/
structure State (ι κ ρ : Type*) where
  data : κ
  index : ρ
  holder : Option ι
  phase : ι → Phase ρ
  lastWriter : Option ι

variable {ι α κ ρ : Type*} [DecidableEq ι]

/-- Before any call. -/
def init (data : κ) (index : ρ) : State ι κ ρ := ⟨data, index, none, fun _ => .idle, none⟩

namespace State

/-- The update `i` goes on, with or without the lock. -/
def goto (s : State ι κ ρ) (i : ι) (phase : Phase ρ) (holder : Option ι) : State ι κ ρ :=
  { s with phase := Function.update s.phase i phase, holder := holder }

/-- The update `i` writes, under the lock. -/
def write (s : State ι κ ρ) (i : ι) (data : κ) (index : ρ) : State ι κ ρ where
  data := data
  index := index
  holder := some i
  phase := Function.update s.phase i .written
  lastWriter := some i

theorem goto_phase_self (s : State ι κ ρ) (i : ι) (phase : Phase ρ) (holder : Option ι) :
    (s.goto i phase holder).phase i = phase :=
  Function.update_self _ _ _

theorem goto_phase_of_ne (s : State ι κ ρ) {i j : ι} (h : j ≠ i) (phase : Phase ρ)
    (holder : Option ι) : (s.goto i phase holder).phase j = s.phase j :=
  Function.update_of_ne h _ _

theorem write_phase_self (s : State ι κ ρ) (i : ι) (data : κ) (index : ρ) :
    (s.write i data index).phase i = .written :=
  Function.update_self _ _ _

theorem write_phase_of_ne (s : State ι κ ρ) {i j : ι} (h : j ≠ i) (data : κ) (index : ρ) :
    (s.write i data index).phase j = s.phase j :=
  Function.update_of_ne h _ _

end State

variable (p : SplitUpdate α κ ρ) (arg : ι → α)

/-- One atomic step. The lock is taken only when nobody holds it, also for reading. -/
inductive Step : State ι κ ρ → State ι κ ρ → Prop
  | call {s} (i : ι) (h : s.phase i = .idle) : Step s (s.goto i .called s.holder)
  | compareFast {s} (i : ι) (h : s.phase i = .called) (hfree : s.holder = none)
      (hsame : p.unchanged s.data (p.dataOf (arg i)) = true) :
      Step s (s.write i (p.dataOf (arg i)) s.index)
  | compareSlow {s} (i : ι) (h : s.phase i = .called) (hfree : s.holder = none)
      (hsame : p.unchanged s.data (p.dataOf (arg i)) = false) :
      Step s (s.goto i .compared (some i))
  | release {s} (i : ι) (h : s.phase i = .compared) (hheld : s.holder = some i) :
      Step s (s.goto i .released none)
  | build {s} (i : ι) (index : ρ) (h : s.phase i = .released)
      (hbuilds : p.Builds (p.dataOf (arg i)) index) : Step s (s.goto i (.built index) s.holder)
  | write {s} (i : ι) (index : ρ) (h : s.phase i = .built index) (hfree : s.holder = none) :
      Step s (s.write i (p.dataOf (arg i)) index)
  | finish {s} (i : ι) (h : s.phase i = .written) (hheld : s.holder = some i) :
      Step s (s.goto i .returned none)
  | read {s} (hfree : s.holder = none) : Step s s

/-- Any number of steps. -/
abbrev Reaches : State ι κ ρ → State ι κ ρ → Prop := Relation.ReflTransGen (Step p arg)

/-- What holds in every state: the index belongs to the data, and the data to the last writer. -/
structure Inv (data : κ) (s : State ι κ ρ) : Prop where
  builds : p.Builds s.data s.index
  built : ∀ i index, s.phase i = .built index → p.Builds (p.dataOf (arg i)) index
  data_eq : s.data = (s.lastWriter.map fun i => p.dataOf (arg i)).getD data

variable {p arg} {s s' : State ι κ ρ}

theorem Inv.goto {data : κ} (h : p.Inv arg data s) (i : ι) {phase : Phase ρ} (holder : Option ι)
    (hbuilt : ∀ index, phase = .built index → p.Builds (p.dataOf (arg i)) index) :
    p.Inv arg data (s.goto i phase holder) := by
  refine ⟨h.builds, ?_, h.data_eq⟩
  intro j index hj
  by_cases hji : j = i
  · subst hji
    rw [State.goto_phase_self] at hj
    exact hbuilt index hj
  · rw [State.goto_phase_of_ne s hji] at hj
    exact h.built j index hj

theorem Inv.write {data : κ} (h : p.Inv arg data s) (i : ι) {index : ρ}
    (hbuilds : p.Builds (p.dataOf (arg i)) index) :
    p.Inv arg data (s.write i (p.dataOf (arg i)) index) := by
  refine ⟨hbuilds, ?_, rfl⟩
  intro j index' hj
  by_cases hji : j = i
  · subst hji
    rw [State.write_phase_self] at hj
    exact absurd hj (by simp)
  · rw [State.write_phase_of_ne s hji] at hj
    exact h.built j index' hj

/-- One step keeps the invariant. The comparison of the slow path is never used: by the time of the
write its result may be stale. -/
theorem Step.inv {data : κ} (hkeep : ∀ old new index, p.unchanged old new = true →
      p.Builds old index → p.Builds new index)
    (hstep : p.Step arg s s') (h : p.Inv arg data s) : p.Inv arg data s' := by
  cases hstep with
  | call i hi => exact h.goto i _ (by simp)
  | compareFast i hi hfree hsame => exact h.write i (hkeep _ _ _ hsame h.builds)
  | compareSlow i hi hfree hsame => exact h.goto i _ (by simp)
  | release i hi hheld => exact h.goto i _ (by simp)
  | build i index hi hbuilds =>
    refine h.goto i _ fun index' hindex => ?_
    rw [Phase.built.injEq] at hindex
    exact hindex ▸ hbuilds
  | write i index hi hfree => exact h.write i (h.built i index hi)
  | finish i hi hheld => exact h.goto i _ (by simp)
  | read hfree => exact h

/-- **Data and index stay in step**, and the data is that of the last writer. -/
theorem Reaches.inv {data : κ} {index : ρ} (hkeep : ∀ old new index, p.unchanged old new = true →
      p.Builds old index → p.Builds new index)
    (hinit : p.Builds data index) (hrun : p.Reaches arg (init data index) s) :
    p.Inv arg data s := by
  induction hrun with
  | refl => exact ⟨hinit, by simp [init], rfl⟩
  | tail _ hstep ih => exact hstep.inv hkeep ih

/-- Once `a` has returned: it stays so, and after `b` has written, `a` is not the last writer. -/
structure Overtaken (a b : ι) (s : State ι κ ρ) : Prop where
  returned : s.phase a = .returned
  ne : (s.phase b).Wrote → s.lastWriter ≠ some a

theorem Overtaken.goto {a b : ι} (h : Overtaken a b s) (i : ι) {phase : Phase ρ} (holder : Option ι)
    (hi : s.phase i ≠ .returned) (hphase : phase.Wrote → (s.phase i).Wrote) :
    Overtaken a b (s.goto i phase holder) := by
  have hai : a ≠ i := fun hai => hi (hai ▸ h.returned)
  refine ⟨?_, ?_⟩
  · rw [State.goto_phase_of_ne s hai]
    exact h.returned
  · by_cases hbi : b = i
    · subst hbi
      intro hb
      rw [State.goto_phase_self] at hb
      exact h.ne (hphase hb)
    · rw [State.goto_phase_of_ne s hbi]
      exact h.ne

theorem Overtaken.write {a b : ι} (h : Overtaken a b s) (i : ι) (data : κ) (index : ρ)
    (hi : s.phase i ≠ .returned) : Overtaken a b (s.write i data index) := by
  have hai : a ≠ i := fun hai => hi (hai ▸ h.returned)
  refine ⟨?_, fun _ => ?_⟩
  · rw [State.write_phase_of_ne s hai]
    exact h.returned
  · show some i ≠ some a
    exact fun heq => hai (Option.some.inj heq).symm

theorem Step.overtaken {a b : ι} (hstep : p.Step arg s s') (h : Overtaken a b s) :
    Overtaken a b s' := by
  cases hstep with
  | call i hi => exact h.goto i _ (by simp [hi]) (by simp [Phase.Wrote])
  | compareFast i hi hfree hsame => exact h.write i _ _ (by simp [hi])
  | compareSlow i hi hfree hsame => exact h.goto i _ (by simp [hi]) (by simp [Phase.Wrote])
  | release i hi hheld => exact h.goto i _ (by simp [hi]) (by simp [Phase.Wrote])
  | build i index hi hbuilds => exact h.goto i _ (by simp [hi]) (by simp [Phase.Wrote])
  | write i index hi hfree => exact h.write i _ _ (by simp [hi])
  | finish i hi hheld => exact h.goto i _ (by simp [hi]) (by simp [hi, Phase.Wrote])
  | read hfree => exact h

/-- **Real time is respected**: what had returned before a call is not in effect after its return. -/
theorem lastWriter_ne {a b : ι} (ha : s.phase a = .returned) (hb : s.phase b = .idle)
    (hrun : p.Reaches arg s s') (hb' : s'.phase b = .returned) : s'.lastWriter ≠ some a := by
  have hstart : Overtaken a b s := ⟨ha, by simp [hb, Phase.Wrote]⟩
  have hend : Overtaken a b s' := by
    clear hb'
    induction hrun with
    | refl => exact hstart
    | tail _ hstep ih => exact hstep.overtaken ih
  exact hend.ne (by simp [hb', Phase.Wrote])

end SplitUpdate

end DragonflySdk.Foundation
