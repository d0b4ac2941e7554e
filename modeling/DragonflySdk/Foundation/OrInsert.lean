import DragonflySdk.Foundation.Trace
import Mathlib.Logic.Function.Basic
import Mathlib.Data.List.Basic
import Mathlib.Tactic.Common

/-!
# Inserting where there is nothing

A map into which a value is put only where there is none, and from which keys are dropped. Whoever
gets the value of a key, by finding it or by putting it there, gets the one value that is put there
between two drops of the key (`Runs.stretch`): all get the same (`Runs.got_eq`).
-/

namespace DragonflySdk.Foundation.OrInsert

variable {κ α : Type*}

/-- What a step shows. -/
inductive Event (κ α : Type*)
  | found (key : κ) (value : α)
  | put (key : κ) (value : α)
  | dropped (keys : List κ)
  /-- the map is left as it is -/
  | nothing

/-- None of the events drops the key. -/
def Keeps (key : κ) (events : List (Event κ α)) : Prop :=
  ∀ keys, .dropped keys ∈ events → key ∉ keys

variable {event : Event κ α} {events : List (Event κ α)} {keys : List κ} {key : κ} {value : α}

theorem Keeps.tail (h : Keeps key (event :: events)) : Keeps key events :=
  fun keys hmem => h keys (List.mem_cons_of_mem _ hmem)

theorem Keeps.head (h : Keeps key (.dropped keys :: events)) : key ∉ keys :=
  h keys List.mem_cons_self

variable [DecidableEq κ]

/-- One step on the map. -/
inductive Step : (κ → Option α) → Event κ α → (κ → Option α) → Prop
  | found {m} (key : κ) (value : α) (h : m key = some value) : Step m (.found key value) m
  | put {m} (key : κ) (value : α) (h : m key = none) :
      Step m (.put key value) (Function.update m key (some value))
  | drop {m} (keys : List κ) : Step m (.dropped keys) fun key => if key ∈ keys then none else m key
  | nothing {m} : Step m .nothing m

/-- Any number of steps. -/
abbrev Runs (m : κ → Option α) (events : List (Event κ α)) (m' : κ → Option α) : Prop :=
  Trace Step m events m'

/-- The value that is got of a key, found or put. -/
def Event.got (key : κ) : Event κ α → Option α
  | .found key' value | .put key' value => if key' = key then some value else none
  | .dropped _ | .nothing => none

/-- The value that is put. -/
def Event.made (key : κ) : Event κ α → Option α
  | .put key' value => if key' = key then some value else none
  | .found _ _ | .dropped _ | .nothing => none

variable {m m' : κ → Option α}

/-! ### One key -/

theorem Step.got_eq (h : Step m event m') (hgot : event.got key = some value) :
    m' key = some value := by
  cases h with
  | found key' value' hfound =>
    by_cases hkey : key' = key
    · rw [Event.got, if_pos hkey] at hgot
      rw [← hkey, ← hgot]
      exact hfound
    · rw [Event.got, if_neg hkey] at hgot
      cases hgot
  | put key' value' hnone =>
    by_cases hkey : key' = key
    · rw [Event.got, if_pos hkey] at hgot
      rw [← hkey, Function.update_self, hgot]
    · rw [Event.got, if_neg hkey] at hgot
      cases hgot
  | drop keys => cases hgot
  | nothing => cases hgot

theorem Step.keeps (h : Step m event m') (hkeeps : Keeps key [event]) (hm : m key = some value) :
    m' key = some value ∧ event.made key = none ∧
      ∀ value', event.got key = some value' → value' = value := by
  cases h with
  | found key' value' hfound =>
    refine ⟨hm, rfl, fun value'' hgot => ?_⟩
    by_cases hkey : key' = key
    · rw [Event.got, if_pos hkey] at hgot
      rw [hkey, hm] at hfound
      exact (Option.some.inj hgot).symm.trans (Option.some.inj hfound).symm
    · rw [Event.got, if_neg hkey] at hgot
      cases hgot
  | put key' value' hnone =>
    have hkey : key' ≠ key := by
      intro heq
      rw [heq, hm] at hnone
      cases hnone
    refine ⟨?_, if_neg hkey, fun value'' hgot => ?_⟩
    · rw [Function.update_of_ne (Ne.symm hkey)]
      exact hm
    · rw [Event.got, if_neg hkey] at hgot
      cases hgot
  | drop keys =>
    exact ⟨(if_neg hkeeps.head).trans hm, rfl, fun value' hgot => by cases hgot⟩
  | nothing => exact ⟨hm, rfl, fun value' hgot => by cases hgot⟩

theorem Step.fresh (h : Step m event m') (hm : m key = none) :
    event.made key = event.got key ∧ m' key = event.got key := by
  cases h with
  | found key' value' hfound =>
    have hkey : key' ≠ key := by
      intro heq
      rw [heq, hm] at hfound
      cases hfound
    rw [Event.got, if_neg hkey]
    exact ⟨rfl, hm⟩
  | put key' value' hnone =>
    refine ⟨rfl, ?_⟩
    rw [Event.got]
    by_cases hkey : key' = key
    · rw [if_pos hkey, hkey, Function.update_self]
    · rw [if_neg hkey, Function.update_of_ne (Ne.symm hkey)]
      exact hm
  | drop keys =>
    refine ⟨rfl, ?_⟩
    show (if key ∈ keys then none else m key) = none
    rw [hm, ite_self]
  | nothing => exact ⟨rfl, hm⟩

/-! ### Between two drops -/

theorem Runs.keeps (h : Runs m events m') (hkeeps : Keeps key events) (hm : m key = some value) :
    m' key = some value ∧ events.filterMap (Event.made key) = [] ∧
      ∀ value' ∈ events.filterMap (Event.got key), value' = value := by
  induction events generalizing m with
  | nil =>
    obtain rfl : m' = m := h
    exact ⟨hm, rfl, fun value' hmem => absurd hmem List.not_mem_nil⟩
  | cons event events ih =>
    obtain ⟨m₁, hstep, hrest⟩ := h
    have hfirst : Keeps key [event] := by
      intro keys hmem
      exact hkeeps keys (List.mem_cons.mpr (.inl (List.mem_singleton.mp hmem)))
    obtain ⟨hm₁, hmade, hgot⟩ := hstep.keeps hfirst hm
    obtain ⟨hm', hnone, hall⟩ := ih hrest hkeeps.tail hm₁
    refine ⟨hm', ?_, ?_⟩
    · rw [List.filterMap_cons, hmade]
      exact hnone
    · intro value' hmem
      obtain ⟨event', hevent', heq⟩ := List.mem_filterMap.mp hmem
      rcases List.mem_cons.mp hevent' with rfl | hevent'
      · exact hgot value' heq
      · exact hall value' (List.mem_filterMap.mpr ⟨event', hevent', heq⟩)

/-- **Between two drops one value is put, and all get it**, if any is got at all. -/
theorem Runs.stretch (h : Runs m events m') (hkeeps : Keeps key events) (hm : m key = none) :
    events.filterMap (Event.got key) = [] ∧ events.filterMap (Event.made key) = [] ∨
      ∃ value, events.filterMap (Event.made key) = [value] ∧
        ∀ value' ∈ events.filterMap (Event.got key), value' = value := by
  induction events generalizing m with
  | nil => exact .inl ⟨rfl, rfl⟩
  | cons event events ih =>
    obtain ⟨m₁, hstep, hrest⟩ := h
    obtain ⟨hmade, hm₁⟩ := hstep.fresh hm
    rw [List.filterMap_cons, List.filterMap_cons, hmade]
    rcases hgot : event.got key with _ | value
    · exact ih hrest hkeeps.tail (hm₁.trans hgot)
    · obtain ⟨_, hnone, hall⟩ := Runs.keeps hrest hkeeps.tail (hm₁.trans hgot)
      refine .inr ⟨value, ?_, ?_⟩
      · show value :: events.filterMap (Event.made key) = [value]
        rw [hnone]
      · intro value' hmem
        rcases List.mem_cons.mp hmem with rfl | hmem
        · rfl
        · exact hall value' hmem

/-- **Two that get the value of a key between two drops get the same.** -/
theorem Runs.got_eq {m₁ m₂ m₃ : κ → Option α} {first last : Event κ α} {value' : α}
    (hfirst : Step m first m₁) (hrest : Runs m₁ events m₂) (hlast : Step m₂ last m₃)
    (hkeeps : Keeps key events) (hgot : first.got key = some value)
    (hgot' : last.got key = some value') : value' = value := by
  obtain ⟨hm₂, _, _⟩ := Runs.keeps hrest hkeeps (hfirst.got_eq hgot)
  have hkeeps' : Keeps key [last] := by
    rintro keys hmem
    rw [← List.mem_singleton.mp hmem] at hgot'
    cases hgot'
  exact (hlast.keeps hkeeps' hm₂).2.2 value' hgot'

end DragonflySdk.Foundation.OrInsert
