import Mathlib.Data.List.Basic
import Mathlib.Data.List.Infix
import Mathlib.Data.List.Nodup
import Mathlib.Logic.Function.Basic
import Mathlib.Logic.Relation
import Mathlib.Tactic.Common

/-!
# Calls that act at their last step

Any number of calls run on shared state, each in atomic steps of its own. When every step but the
last leaves the shared state as it is, and the last one does what the whole operation would do if it
ran at once (`ActsAtLastStep`), the calls are linearizable: whatever the interleaving, they take
effect and answer as in some sequential order, in which a call that had returned before another was
made comes first (`ActsAtLastStep.linearizable`).

The order is that of the last steps. A call that has made its last step but not yet returned is in
it; one that has not made it has had no effect.
-/

namespace DragonflySdk.Foundation

/-- Operations `Op` on the shared state `σ`, in atomic steps from one local state `L` to the next
until there is an answer `R`. -/
structure Stepped (Op L R σ : Type*) where
  start : L
  step : Op → L → σ → σ × (L ⊕ R)

namespace Stepped

variable {ι Op L R σ : Type*}

/-- How far a call has come. -/
inductive Phase (L R : Type*)
  | idle
  | running (progress : L)
  /-- has made its last step -/
  | finished (answer : R)
  | returned (answer : R)

/-- The call has made its last step, with this answer. -/
def Phase.Answered (phase : Phase L R) (answer : R) : Prop :=
  phase = .finished answer ∨ phase = .returned answer

@[simp] theorem Phase.answered_finished {answer answer' : R} :
    (Phase.finished answer : Phase L R).Answered answer' ↔ answer = answer' := by
  simp [Phase.Answered]

@[simp] theorem Phase.answered_returned {answer answer' : R} :
    (Phase.returned answer : Phase L R).Answered answer' ↔ answer = answer' := by
  simp [Phase.Answered]

/-- The shared state and how far each call has come. `order` records history: the calls that have
made their last step, in the order they did. No step reads it. -/
structure State (ι L R σ : Type*) where
  shared : σ
  phase : ι → Phase L R
  order : List ι

/-- Before any call. -/
def init (shared : σ) : State ι L R σ := ⟨shared, fun _ => .idle, []⟩

variable [DecidableEq ι] (object : Stepped Op L R σ) (op : ι → Op)

/-- One atomic step of one call. -/
inductive Step : State ι L R σ → State ι L R σ → Prop
  | call {s} (i : ι) (h : s.phase i = .idle) :
      Step s { s with phase := Function.update s.phase i (.running object.start) }
  | goOn {s} (i : ι) (progress progress' : L) (shared : σ) (h : s.phase i = .running progress)
      (hstep : object.step (op i) progress s.shared = (shared, .inl progress')) :
      Step s
        { s with shared := shared, phase := Function.update s.phase i (.running progress') }
  | finish {s} (i : ι) (progress : L) (shared : σ) (answer : R)
      (h : s.phase i = .running progress)
      (hstep : object.step (op i) progress s.shared = (shared, .inr answer)) :
      Step s ⟨shared, Function.update s.phase i (.finished answer), s.order ++ [i]⟩
  | ret {s} (i : ι) (answer : R) (h : s.phase i = .finished answer) :
      Step s { s with phase := Function.update s.phase i (.returned answer) }

/-- Any number of steps. -/
abbrev Reaches : State ι L R σ → State ι L R σ → Prop :=
  Relation.ReflTransGen (Step object op)

/-- Every step goes on without touching the shared state, or does at once what `apply` does. -/
def ActsAtLastStep (apply : Op → σ → σ × R) : Prop :=
  ∀ op progress s, (∃ progress', object.step op progress s = (s, .inl progress')) ∨
    object.step op progress s = ((apply op s).1, .inr (apply op s).2)

/-- The operations one after the other. -/
def inOrder (apply : Op → σ → σ × R) (s : σ) (order : List ι) : σ :=
  order.foldl (fun s i => (apply (op i) s).1) s

/-- The calls that have made their last step act and answer as they do in this order. -/
structure IsLinearization (apply : Op → σ → σ × R) (initial : σ) (s : State ι L R σ)
    (order : List ι) : Prop where
  nodup : order.Nodup
  mem_iff : ∀ i, i ∈ order ↔ ∃ answer, (s.phase i).Answered answer
  shared_eq : s.shared = inOrder op apply initial order
  answer_eq : ∀ before i after, order = before ++ i :: after → ∀ answer,
    (s.phase i).Answered answer → answer = (apply (op i) (inOrder op apply initial before)).2

/-- Whatever state is reached, there is such an order in which a call that had returned before another
was made comes first. -/
def Linearizable (apply : Op → σ → σ × R) (initial : σ) : Prop :=
  ∀ s, Reaches object op (init initial) s →
    ∃ order, IsLinearization op apply initial s order ∧
      ∀ s₀, Reaches object op (init initial) s₀ → Reaches object op s₀ s → ∀ a b answer,
        s₀.phase a = .returned answer → s₀.phase b = .idle → b ∈ order → [a, b].Sublist order

variable {object op} {apply : Op → σ → σ × R} {initial : σ} {s s' : State ι L R σ}

theorem IsLinearization.update {order : List ι} (h : IsLinearization op apply initial s order)
    (i : ι) {phase : Phase L R}
    (hphase : ∀ answer, phase.Answered answer ↔ (s.phase i).Answered answer) :
    IsLinearization op apply initial { s with phase := Function.update s.phase i phase } order := by
  have hsame : ∀ j answer, (Function.update s.phase i phase j).Answered answer ↔
      (s.phase j).Answered answer := by
    intro j answer
    by_cases hj : j = i
    · subst hj
      rw [Function.update_self]
      exact hphase answer
    · rw [Function.update_of_ne hj]
  refine ⟨h.nodup, fun j => ?_, h.shared_eq, fun before j after horder answer hanswer => ?_⟩
  · rw [h.mem_iff]
    exact exists_congr fun answer => (hsame j answer).symm
  · exact h.answer_eq before j after horder answer ((hsame j answer).mp hanswer)

theorem IsLinearization.finish {order : List ι} (h : IsLinearization op apply initial s order)
    (i : ι) (hi : ∀ answer, ¬ (s.phase i).Answered answer) :
    IsLinearization op apply initial
      ⟨(apply (op i) s.shared).1,
        Function.update s.phase i (.finished (apply (op i) s.shared).2), order ++ [i]⟩
      (order ++ [i]) := by
  have hnew : i ∉ order := fun hmem => by
    obtain ⟨answer, hanswer⟩ := (h.mem_iff i).mp hmem
    exact hi answer hanswer
  have hother : ∀ j ∈ order, j ≠ i := fun j hj hji => hnew (hji ▸ hj)
  refine ⟨?_, fun j => ?_, ?_, fun before j after horder answer hanswer => ?_⟩
  · rw [← List.concat_eq_append, List.nodup_concat]
    exact ⟨hnew, h.nodup⟩
  · by_cases hj : j = i
    · subst hj
      simp
    · rw [List.mem_append, List.mem_singleton, or_iff_left hj, h.mem_iff]
      simp only [Function.update_of_ne hj]
  · rw [inOrder, List.foldl_append, List.foldl_cons, List.foldl_nil]
    show (apply (op i) s.shared).1 = (apply (op i) (inOrder op apply initial order)).1
    rw [← h.shared_eq]
  · rcases List.eq_nil_or_concat after with rfl | ⟨after, last, rfl⟩
    · -- the call that has just made its last step
      obtain ⟨hbefore, hij⟩ := List.append_inj' horder rfl
      obtain rfl : i = j := by simpa using hij
      simp only [Function.update_self, Phase.answered_finished] at hanswer
      rw [← hbefore, ← h.shared_eq, hanswer]
    · have horder' : order ++ [i] = (before ++ j :: after) ++ [last] := by
        rw [horder]
        simp
      obtain ⟨hinit, _⟩ := List.append_inj' horder' rfl
      have hj : j ≠ i := hother j (hinit ▸ by simp)
      simp only [Function.update_of_ne hj] at hanswer
      exact h.answer_eq before j after hinit answer hanswer

theorem Step.isLinearization (hacts : object.ActsAtLastStep apply) (hstep : Step object op s s')
    (h : IsLinearization op apply initial s s.order) :
    IsLinearization op apply initial s' s'.order := by
  cases hstep with
  | call i hi => exact h.update i (by simp [hi, Phase.Answered])
  | goOn i progress progress' shared hi hstep =>
    rcases hacts (op i) progress s.shared with ⟨progress'', heq⟩ | heq
    · rw [heq, Prod.mk.injEq] at hstep
      rw [← hstep.1]
      exact h.update i (by simp [hi, Phase.Answered])
    · simp [heq] at hstep
  | finish i progress shared answer hi hstep =>
    rcases hacts (op i) progress s.shared with ⟨progress', heq⟩ | heq
    · simp [heq] at hstep
    · rw [heq, Prod.mk.injEq, Sum.inr.injEq] at hstep
      rw [← hstep.1, ← hstep.2]
      exact h.finish i (by simp [hi, Phase.Answered])
  | ret i answer hi => exact h.update i (by simp [hi])

theorem Reaches.isLinearization (hacts : object.ActsAtLastStep apply)
    (hrun : Reaches object op (init initial) s) :
    IsLinearization op apply initial s s.order := by
  induction hrun with
  | refl =>
    refine ⟨List.nodup_nil, ?_, rfl, ?_⟩
    · simp [init, Phase.Answered]
    · simp [init]
  | tail _ hstep ih => exact hstep.isLinearization hacts ih

theorem Reaches.order_prefix (hrun : Reaches object op s s') : s.order <+: s'.order := by
  induction hrun with
  | refl => exact List.prefix_rfl
  | tail _ hstep ih =>
    refine ih.trans ?_
    cases hstep with
    | finish => exact List.prefix_append _ _
    | call | goOn | ret => exact List.prefix_rfl

/-- **Calls that act at their last step are linearizable.** -/
theorem ActsAtLastStep.linearizable (hacts : object.ActsAtLastStep apply) (op : ι → Op)
    (initial : σ) : Linearizable object op apply initial := by
  intro s hrun
  refine ⟨s.order, Reaches.isLinearization hacts hrun, ?_⟩
  intro s₀ hrun₀ hlater a b answer ha hb hmem
  have h₀ := Reaches.isLinearization hacts hrun₀
  have ha₀ : a ∈ s₀.order := (h₀.mem_iff a).mpr ⟨answer, by simp [ha]⟩
  have hb₀ : b ∉ s₀.order := by
    rw [h₀.mem_iff, hb]
    simp [Phase.Answered]
  obtain ⟨rest, hrest⟩ := hlater.order_prefix
  rw [← hrest] at hmem ⊢
  have hbrest : b ∈ rest := (List.mem_append.mp hmem).resolve_left hb₀
  exact (List.singleton_sublist.mpr ha₀).append (List.singleton_sublist.mpr hbrest)

end Stepped

end DragonflySdk.Foundation
