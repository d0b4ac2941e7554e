import Mathlib.Data.List.Basic
import Mathlib.Tactic.Common

/-!
# Releasing resources

Resources are acquired one after another, and it is counted how often each is released (`Handles`).
If an attempt acquires one and releases it when it fails, then after failing attempts each has been
released once (`AllReleased.failed`), and after one that succeeds all but its own have
(`AllReleased.kept`).

A machine whose steps depend on whether a resource has been released can be `guarded`: the resource
is released after each step that ends its use. Then it is released just from the first such step on
(`released_runs_guarded`), up to which the machine does what it would with the resource never
released (`runs_guarded_eq`).
-/

namespace DragonflySdk.Foundation

/-! ### How often each is released -/

/-- How often each of the resources has been released, in the order they were acquired. -/
structure Handles where
  releases : List Nat
deriving DecidableEq, Repr

namespace Handles

def empty : Handles := ⟨[]⟩

/-- How many there are, which is the name of the next one. -/
def next (handles : Handles) : Nat := handles.releases.length

def acquire (handles : Handles) : Handles := ⟨handles.releases ++ [0]⟩

def release (handles : Handles) (i : Nat) : Handles := ⟨handles.releases.modify i (· + 1)⟩

def count (handles : Handles) (i : Nat) : Nat := handles.releases.getD i 0

/-- Whether it has been released. -/
def released (handles : Handles) (i : Nat) : Bool := 0 < handles.count i

variable {handles : Handles} {i j : Nat}

@[simp] theorem next_acquire : handles.acquire.next = handles.next + 1 := by
  rw [next, acquire, List.length_append]
  rfl

@[simp] theorem next_release : (handles.release i).next = handles.next :=
  List.length_modify _ _ _

@[simp] theorem count_acquire : handles.acquire.count i = handles.count i := by
  unfold count acquire
  rw [List.getD_eq_getElem?_getD, List.getD_eq_getElem?_getD]
  rcases Nat.lt_trichotomy i handles.releases.length with hlt | rfl | hgt
  · rw [List.getElem?_append_left hlt]
  · rw [List.getElem?_concat_length, List.getElem?_eq_none (Nat.le_refl _)]
    rfl
  · have hle : (handles.releases ++ [0]).length ≤ i := by
      rw [List.length_append]
      exact hgt
    rw [List.getElem?_eq_none hle, List.getElem?_eq_none (Nat.le_of_lt hgt)]

theorem count_next : handles.count handles.next = 0 := by
  rw [count, List.getD_eq_getElem?_getD,
    List.getElem?_eq_none (show handles.releases.length ≤ handles.next from Nat.le_refl _)]
  rfl

theorem count_release_self (h : i < handles.next) :
    (handles.release i).count i = handles.count i + 1 := by
  unfold count release
  rw [List.getD_eq_getElem?_getD, List.getD_eq_getElem?_getD, List.getElem?_modify_eq,
    List.getElem?_eq_getElem h]
  rfl

theorem count_release_of_ne (h : j ≠ i) : (handles.release i).count j = handles.count j := by
  unfold count release
  rw [List.getD_eq_getElem?_getD, List.getD_eq_getElem?_getD, List.getElem?_modify_ne _ _ h.symm]

theorem released_release_self (h : i < handles.next) : (handles.release i).released i = true := by
  rw [released, count_release_self h]
  exact decide_eq_true (Nat.succ_pos _)

theorem released_release_release (h : i < handles.next) (j : Nat) :
    ((handles.release i).release i).released j = (handles.release i).released j := by
  have hlt : i < (handles.release i).next := by rwa [next_release]
  by_cases hj : j = i
  · rw [hj, released_release_self h, released_release_self hlt]
  · rw [released, released, count_release_of_ne hj]

/-- Each has been released once. -/
def AllReleased (handles : Handles) : Prop := ∀ i < handles.next, handles.count i = 1

/-- Each has been released once but this one, which has not. -/
structure AllReleasedBut (handles : Handles) (kept : Nat) : Prop where
  kept_lt : kept < handles.next
  kept_eq : handles.count kept = 0
  others : ∀ i < handles.next, i ≠ kept → handles.count i = 1

theorem allReleased_empty : empty.AllReleased := fun i hi => absurd hi (Nat.not_lt_zero i)

theorem AllReleased.failed (h : handles.AllReleased) :
    (handles.acquire.release handles.next).AllReleased := by
  intro i hi
  rw [next_release, next_acquire] at hi
  rcases Nat.lt_succ_iff_lt_or_eq.mp hi with hlt | rfl
  · rw [count_release_of_ne (Nat.ne_of_lt hlt), count_acquire]
    exact h i hlt
  · rw [count_release_self (by rw [next_acquire]; exact Nat.lt_succ_self _), count_acquire,
      count_next]

theorem AllReleased.kept (h : handles.AllReleased) :
    handles.acquire.AllReleasedBut handles.next where
  kept_lt := by
    rw [next_acquire]
    exact Nat.lt_succ_self _
  kept_eq := by rw [count_acquire, count_next]
  others i hi hne := by
    rw [next_acquire] at hi
    rw [count_acquire]
    exact h i (Nat.lt_of_le_of_ne (Nat.le_of_lt_succ hi) hne)

theorem AllReleasedBut.released_eq (h : handles.AllReleasedBut i) : handles.released i = false := by
  rw [released, h.kept_eq]
  rfl

theorem AllReleasedBut.allReleased {kept : Nat} (h : handles.AllReleasedBut kept) :
    (handles.release kept).AllReleased := by
  intro i hi
  rw [next_release] at hi
  by_cases heq : i = kept
  · rw [heq, count_release_self h.kept_lt, h.kept_eq]
  · rw [count_release_of_ne heq]
    exact h.others i hi heq

end Handles

/-! ### Steps that end the use of a resource -/

section
variable {σ τ β C O : Type*}

/-- The steps of a machine in order, with what each comes to. -/
def runs (step : σ → C → σ × O) : σ → List C → σ × List O
  | s, [] => (s, [])
  | s, c :: calls =>
    let (s', o) := step s c
    let (s'', outcomes) := runs step s' calls
    (s'', o :: outcomes)

theorem runs_cons (step : σ → C → σ × O) (s : σ) (c : C) (calls : List C) :
    runs step s (c :: calls) =
      ((runs step (step s c).1 calls).1, (step s c).2 :: (runs step (step s c).1 calls).2) :=
  rfl

theorem runs_ne_nil {step : σ → C → σ × O} {s : σ} {calls : List C} (h : calls ≠ []) :
    (runs step s calls).2 ≠ [] := by
  cases calls with
  | nil => exact absurd rfl h
  | cons c calls => exact List.cons_ne_nil _ _

/-- A machine that is another one seen through `f`. -/
theorem runs_map {step : σ → C → σ × O} {step' : τ → C → τ × O} {f : σ → τ}
    (hstep : ∀ s c, step' (f s) c = (f (step s c).1, (step s c).2)) (s : σ) (calls : List C) :
    runs step' (f s) calls = (f (runs step s calls).1, (runs step s calls).2) := by
  induction calls generalizing s with
  | nil => rfl
  | cons c calls ih => rw [runs_cons, hstep, ih, runs_cons]

/-- A step of a machine that sees whether resource `i` has been released, which is released after
it if the step ends its use. -/
def guarded (step : β → Bool → C → β × O) (ends : O → Bool) (i : Nat) (s : β × Handles) (c : C) :
    (β × Handles) × O :=
  let (b, o) := step s.1 (s.2.released i) c
  ((b, if ends o then s.2.release i else s.2), o)

variable {step : β → Bool → C → β × O} {ends : O → Bool} {i : Nat} {s : β × Handles} {c : C}

theorem next_guarded : (guarded step ends i s c).1.2.next = s.2.next := by
  show (if ends _ = true then s.2.release i else s.2).next = _
  split
  · exact Handles.next_release
  · rfl

theorem count_guarded {j : Nat} (h : j ≠ i) :
    (guarded step ends i s c).1.2.count j = s.2.count j := by
  show (if ends _ = true then s.2.release i else s.2).count j = _
  split
  · exact Handles.count_release_of_ne h
  · rfl

theorem guarded_handles (h : ends (guarded step ends i s c).2 = false) :
    (guarded step ends i s c).1.2 = s.2 := by
  show (if ends (guarded step ends i s c).2 = true then s.2.release i else s.2) = s.2
  rw [h]
  rfl

theorem released_guarded (hi : i < s.2.next) : (guarded step ends i s c).1.2.released i = true ↔
    s.2.released i = true ∨ ends (guarded step ends i s c).2 = true := by
  by_cases hends : ends (guarded step ends i s c).2 = true
  · have hhandles : (guarded step ends i s c).1.2 = s.2.release i := if_pos hends
    rw [hhandles, Handles.released_release_self hi]
    exact ⟨fun _ => Or.inr hends, fun _ => rfl⟩
  · rw [guarded_handles (eq_false_of_ne_true hends)]
    exact (or_iff_left hends).symm

/-- **The resource is released just from the first step on that ends its use.** -/
theorem released_runs_guarded (hi : i < s.2.next) (calls : List C) :
    (runs (guarded step ends i) s calls).1.2.released i = true ↔
      s.2.released i = true ∨ ∃ o ∈ (runs (guarded step ends i) s calls).2, ends o = true := by
  induction calls generalizing s with
  | nil => exact ⟨Or.inl, fun h => h.resolve_right fun ⟨_, ho, _⟩ => absurd ho List.not_mem_nil⟩
  | cons c calls ih =>
    have hnext : i < (guarded step ends i s c).1.2.next := by
      rw [next_guarded]
      exact hi
    rw [runs_cons, ih hnext, released_guarded hi, List.exists_mem_cons_iff, or_assoc]

theorem count_runs_guarded {j : Nat} (h : j ≠ i) (calls : List C) :
    (runs (guarded step ends i) s calls).1.2.count j = s.2.count j := by
  induction calls generalizing s with
  | nil => rfl
  | cons c calls ih =>
    rw [runs_cons, ih]
    exact count_guarded h

/-- **Up to the first step that ends the use, the steps are those with the resource held.** -/
theorem runs_guarded_eq (hheld : s.2.released i = false) (calls : List C)
    (hends : ∀ o ∈ (runs (guarded step ends i) s calls).2.dropLast, ends o = false) :
    (runs (guarded step ends i) s calls).2 = (runs (fun b => step b false) s.1 calls).2 := by
  induction calls generalizing s with
  | nil => rfl
  | cons c calls ih =>
    have hfirst : (guarded step ends i s c).2 = (step s.1 false c).2 := by
      rw [guarded, hheld]
    have hstate : (guarded step ends i s c).1.1 = (step s.1 false c).1 := by
      rw [guarded, hheld]
    have hrest : (runs (guarded step ends i) (guarded step ends i s c).1 calls).2 =
        (runs (fun b => step b false) (step s.1 false c).1 calls).2 := by
      by_cases hcalls : calls = []
      · rw [hcalls]
        rfl
      · -- another step follows, so this one has not ended the use
        rw [runs_cons, List.dropLast_cons_of_ne_nil (runs_ne_nil hcalls)] at hends
        rw [← hstate]
        refine ih ?_ fun o ho => hends o (List.mem_cons_of_mem _ ho)
        rw [guarded_handles (hends _ List.mem_cons_self)]
        exact hheld
    rw [runs_cons, runs_cons, hfirst, hrest]

end

end DragonflySdk.Foundation
