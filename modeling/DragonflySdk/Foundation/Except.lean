import Mathlib.Data.Finset.Insert
import Mathlib.Data.List.Forall2

/-!
# Sequences of fallible steps

When a computation in `Except` succeeds: step by step (`bind_eq_ok_iff`), over a list, where every
element succeeds with the result at its place (`mapM_eq_ok_iff`), and in a loop that takes no key
twice (`distinct_loop_eq_ok_iff`).
-/

namespace DragonflySdk.Foundation

variable {ε α β : Type}

theorem bind_eq_ok_iff {x : Except ε α} {f : α → Except ε β} {b : β} :
    (x >>= f) = .ok b ↔ ∃ a, x = .ok a ∧ f a = .ok b := by
  rcases x with err | a <;> simp [bind, Except.bind]

theorem bind_eq_error_iff {x : Except ε α} {f : α → Except ε β} {err : ε} :
    (x >>= f) = .error err ↔ x = .error err ∨ ∃ a, x = .ok a ∧ f a = .error err := by
  cases x <;> simp [bind, Except.bind]

theorem map_eq_ok_iff {x : Except ε α} {f : α → β} {b : β} :
    x.map f = .ok b ↔ ∃ a, x = .ok a ∧ f a = b := by
  rcases x with err | a <;> simp [Except.map]

theorem map_eq_error_iff {x : Except ε α} {f : α → β} {err : ε} :
    x.map f = .error err ↔ x = .error err := by
  rcases x with err' | a <;> simp [Except.map]

theorem mapError_eq_ok_iff {ε' : Type} {x : Except ε α} {f : ε → ε'} {a : α} :
    x.mapError f = .ok a ↔ x = .ok a := by
  rcases x with err | a' <;> simp [Except.mapError]

theorem mapM_eq_ok_iff {f : α → Except ε β} {l : List α} {l' : List β} :
    l.mapM f = .ok l' ↔ List.Forall₂ (fun a b => f a = .ok b) l l' := by
  induction l generalizing l' with
  | nil =>
    rw [List.mapM_nil, List.forall₂_nil_left_iff]
    exact ⟨fun h => (Except.ok.inj h).symm, fun h => congrArg Except.ok h.symm⟩
  | cons a l ih =>
    rw [List.mapM_cons, List.forall₂_cons_left_iff, bind_eq_ok_iff]
    apply exists_congr
    intro b
    rw [bind_eq_ok_iff]
    constructor
    · rintro ⟨ha, bs, hl, hbs⟩
      exact ⟨bs, ha, ih.mp hl, (Except.ok.inj hbs).symm⟩
    · rintro ⟨bs, ha, hl, rfl⟩
      exact ⟨ha, bs, ih.mpr hl, rfl⟩

theorem exists_of_mem_mapM {f : α → Except ε β} {l : List α} {l' : List β} (h : l.mapM f = .ok l')
    {b : β} (hb : b ∈ l') : ∃ a ∈ l, f a = .ok b := by
  have hall := mapM_eq_ok_iff.mp h
  clear h
  induction hall with
  | nil => simp at hb
  | cons ha _ ih =>
    rcases List.mem_cons.mp hb with rfl | hb
    · exact ⟨_, List.mem_cons_self, ha⟩
    · obtain ⟨a, hmem, ha⟩ := ih hb
      exact ⟨a, List.mem_cons_of_mem _ hmem, ha⟩

theorem exists_mapM_eq_ok {f : α → Except ε β} {l : List α} (h : ∀ a ∈ l, ∃ b, f a = .ok b) :
    ∃ l', l.mapM f = .ok l' := by
  induction l with
  | nil => exact ⟨[], rfl⟩
  | cons a l ih =>
    obtain ⟨b, hb⟩ := h a List.mem_cons_self
    obtain ⟨bs, hbs⟩ := ih fun a ha => h a (List.mem_cons_of_mem _ ha)
    exact ⟨b :: bs, mapM_eq_ok_iff.mpr (.cons hb (mapM_eq_ok_iff.mp hbs))⟩

theorem exists_of_mapM_eq_error {f : α → Except ε β} {l : List α} {err : ε}
    (h : l.mapM f = .error err) : ∃ a ∈ l, f a = .error err := by
  induction l with
  | nil => cases h
  | cons a l ih =>
    rw [List.mapM_cons] at h
    rcases ha : f a with err' | b
    · rw [ha] at h
      have herr : err' = err := Except.error.inj h
      exact ⟨a, List.mem_cons_self, herr ▸ ha⟩
    · rw [ha] at h
      rcases hl : l.mapM f with err' | bs
      · rw [hl] at h
        have herr : err' = err := Except.error.inj h
        obtain ⟨a', hmem, ha'⟩ := ih (herr ▸ hl)
        exact ⟨a', List.mem_cons_of_mem _ hmem, ha'⟩
      · rw [hl] at h
        cases h

theorem forM_eq_ok_iff {f : α → Except ε Unit} {l : List α} :
    forM l f = .ok () ↔ ∀ a ∈ l, f a = .ok () := by
  induction l with
  | nil => exact ⟨fun _ => List.forall_mem_nil _, fun _ => rfl⟩
  | cons a l ih =>
    rw [List.forM_cons, bind_eq_ok_iff, List.forall_mem_cons, ← ih]
    constructor
    · intro h
      obtain ⟨_, ha, hl⟩ := h
      exact ⟨ha, hl⟩
    · intro h
      exact ⟨(), h.1, h.2⟩

theorem exists_of_forM_eq_error {f : α → Except ε Unit} {l : List α} {err : ε}
    (h : forM l f = .error err) : ∃ a ∈ l, f a = .error err := by
  induction l with
  | nil => cases h
  | cons a l ih =>
    rw [List.forM_cons] at h
    rcases ha : f a with err' | value
    · rw [ha] at h
      have herr : err' = err := Except.error.inj h
      exact ⟨a, List.mem_cons_self, herr ▸ ha⟩
    · rw [ha] at h
      obtain ⟨a', hmem, ha'⟩ := ih h
      exact ⟨a', List.mem_cons_of_mem _ hmem, ha'⟩

/-- A loop that checks each element and rejects the second of two with one key. -/
theorem distinct_loop_eq_ok_iff {κ : Type} [DecidableEq κ] (key : α → κ) (Good : α → Prop)
    {loop : Finset κ → List α → Except ε Unit} (hnil : ∀ seen, loop seen [] = .ok ())
    (hcons : ∀ seen a l, loop seen (a :: l) = .ok () ↔
      Good a ∧ key a ∉ seen ∧ loop (insert (key a) seen) l = .ok ())
    (seen : Finset κ) (l : List α) :
    loop seen l = .ok () ↔ (∀ a ∈ l, Good a) ∧ (∀ a ∈ l, key a ∉ seen) ∧ (l.map key).Nodup := by
  induction l generalizing seen with
  | nil => simp [hnil]
  | cons a l ih =>
    rw [hcons, ih, List.forall_mem_cons, List.forall_mem_cons, List.map_cons, List.nodup_cons]
    simp only [Finset.mem_insert, not_or, List.mem_map, not_exists, not_and]
    constructor
    · intro h
      obtain ⟨hgood, hnew, hall, hkeys, hnodup⟩ := h
      exact ⟨⟨hgood, hall⟩, ⟨hnew, fun b hb => (hkeys b hb).2⟩, fun b hb => (hkeys b hb).1, hnodup⟩
    · intro h
      obtain ⟨⟨hgood, hall⟩, ⟨hnew, hseen⟩, hkeys, hnodup⟩ := h
      exact ⟨hgood, hnew, hall, fun b hb => ⟨hkeys b hb, hseen b hb⟩, hnodup⟩

end DragonflySdk.Foundation
