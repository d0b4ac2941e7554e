import Mathlib.Data.Int.CardIntervalMod
import Mathlib.Tactic.Common

/-!
# Retrying over rotating targets

A retry loop attempts until an outcome is decisive or the delays run out (`RetryLoop`). What it
comes to is the state and the outcome of the attempt number `attempts` (`RetryLoop.eq`), before which
the state is as failing attempts keep it (`RetryLoop.exists_last`).

Attempt `i` of `n` targets in rotation aims at position `i % n`: as many attempts in a row as there
are targets aim at different ones (`nodup_positions`), and every target gets its share
(`count_position`).
-/

namespace DragonflySdk.Foundation

/-! ### How many attempts -/

/-- The attempts up to the first decisive one, `limit` at most. -/
def attempts (decisive : Nat → Bool) (limit : Nat) : Nat :=
  match (List.range limit).find? decisive with
  | some i => i + 1
  | none => limit

section attempts
variable {decisive : Nat → Bool}

theorem attempts_succ (limit : Nat) : attempts decisive (limit + 1) =
    if decisive 0 = true then 1 else attempts (fun i => decisive (i + 1)) limit + 1 := by
  unfold attempts
  rw [List.range_succ_eq_map, List.find?_cons]
  by_cases h : decisive 0 = true
  · rw [if_pos h, h]
  · rw [if_neg h, Bool.eq_false_of_not_eq_true h]
    simp only [List.find?_map]
    show (match Option.map Nat.succ ((List.range limit).find? fun i => decisive (i + 1)) with
      | some i => i + 1
      | none => limit + 1) = _
    cases (List.range limit).find? fun i => decisive (i + 1) <;> rfl

theorem attempts_le (limit : Nat) : attempts decisive limit ≤ limit := by
  induction limit generalizing decisive with
  | zero => exact Nat.le_refl 0
  | succ limit ih =>
    rw [attempts_succ]
    split
    · omega
    · have := @ih fun i => decisive (i + 1)
      omega

theorem attempts_pos {limit : Nat} (h : 0 < limit) : 0 < attempts decisive limit := by
  obtain ⟨limit, rfl⟩ := Nat.exists_eq_add_one.mpr h
  rw [attempts_succ]
  split <;> omega

theorem lt_attempts_iff {i limit : Nat} :
    i < attempts decisive limit ↔ i < limit ∧ ∀ j < i, decisive j = false := by
  induction limit generalizing decisive i with
  | zero =>
    have hle := @attempts_le decisive 0
    omega
  | succ limit ih =>
    rw [attempts_succ]
    cases i with
    | zero =>
      refine ⟨fun _ => ⟨Nat.succ_pos _, fun j hj => absurd hj (Nat.not_lt_zero j)⟩, fun _ => ?_⟩
      split <;> omega
    | succ i =>
      rw [Nat.forall_lt_succ_left]
      by_cases hfirst : decisive 0 = true
      · rw [if_pos hfirst, hfirst]
        simp
      · rw [if_neg hfirst, Nat.add_lt_add_iff_right, ih, Nat.add_lt_add_iff_right]
        simp [hfirst]

theorem decisive_of_attempts_lt {limit : Nat} (h : attempts decisive limit < limit) :
    decisive (attempts decisive limit - 1) = true := by
  induction limit generalizing decisive with
  | zero => omega
  | succ limit ih =>
    rw [attempts_succ] at h ⊢
    by_cases hzero : decisive 0 = true
    · rw [if_pos hzero]
      exact hzero
    · rw [if_neg hzero] at h ⊢
      have hrest : attempts (fun i => decisive (i + 1)) limit < limit := by omega
      have hpos : 0 < attempts (fun i => decisive (i + 1)) limit := attempts_pos (by omega)
      have := ih hrest
      rwa [Nat.sub_add_cancel hpos, ← Nat.add_sub_cancel (n := attempts _ _) (m := 1)] at this

theorem attempts_eq_iff {l m : Nat} (h : l ≤ m) :
    attempts decisive l = attempts decisive m ↔ l = m ∨ ∃ i < l, decisive i = true := by
  induction l generalizing decisive m with
  | zero =>
    constructor
    · intro heq
      by_contra hne
      have hpos : 0 < attempts decisive m := attempts_pos (by omega)
      have hzero : attempts decisive 0 = 0 := rfl
      omega
    · rintro (rfl | ⟨i, hi, _⟩)
      · rfl
      · omega
  | succ l ih =>
    obtain ⟨m, rfl⟩ : ∃ m', m = m' + 1 := ⟨m - 1, by omega⟩
    rw [attempts_succ, attempts_succ]
    by_cases hzero : decisive 0 = true
    · simp only [if_pos hzero, true_iff]
      exact Or.inr ⟨0, by omega, hzero⟩
    · rw [if_neg hzero, if_neg hzero, Nat.add_right_cancel_iff, ih (by omega),
        Nat.add_right_cancel_iff]
      apply or_congr_right
      constructor
      · rintro ⟨i, hi, hdecisive⟩
        exact ⟨i + 1, by omega, hdecisive⟩
      · rintro ⟨i, hi, hdecisive⟩
        obtain ⟨i, rfl⟩ : ∃ i', i = i' + 1 := by
          refine ⟨i - 1, ?_⟩
          by_contra hne
          have : i = 0 := by omega
          exact hzero (this ▸ hdecisive)
        exact ⟨i, by omega, hdecisive⟩

theorem attempts_eq_of_last {limit made : Nat} (hpos : 0 < made) (hle : made ≤ limit)
    (hgoes : ∀ k, k + 1 < made → decisive k = false)
    (hlast : made = limit ∨ decisive (made - 1) = true) : attempts decisive limit = made := by
  have hreached : made - 1 < attempts decisive limit :=
    lt_attempts_iff.mpr ⟨by omega, fun k hk => hgoes k (by omega)⟩
  have hstops : ¬made < attempts decisive limit := by
    intro hlt
    obtain ⟨hlimit, hnone⟩ := lt_attempts_iff.mp hlt
    rcases hlast with hall | hdecisive
    · omega
    · rw [hnone (made - 1) (by omega)] at hdecisive
      cases hdecisive
  omega

end attempts

/-! ### The loop -/

section loop
variable {S E T D : Type}

/-- An outcome that is not worth another attempt. -/
def decisive (retryable : E → Bool) : Except E T → Bool
  | .ok _ => true
  | .error err => !retryable err

/-- Attempt, and on an error that is retryable go on with the next delay, if there is one. -/
def RetryLoop (attempt : S → S × Except E T) (retryable : E → Bool)
    (loop : List D → S → S × Except E T) : Prop :=
  ∀ delays s, loop delays s =
    match attempt s, delays with
    | (s', .ok value), _ => (s', .ok value)
    | (s', .error err), [] => (s', .error err)
    | (s', .error err), _ :: delays => if retryable err then loop delays s' else (s', .error err)

variable (attempt : S → S × Except E T)

/-- The state before attempt `i`, if all before it were made. -/
def stateAt (s : S) (i : Nat) : S := (fun s => (attempt s).1)^[i] s

/-- The outcome of attempt `i`. -/
def outcomeAt (s : S) (i : Nat) : Except E T := (attempt (stateAt attempt s i)).2

theorem stateAt_succ (s : S) (i : Nat) :
    stateAt attempt s (i + 1) = (attempt (stateAt attempt s i)).1 :=
  Function.iterate_succ_apply' _ _ _

theorem outcomeAt_succ (s : S) (i : Nat) :
    outcomeAt attempt s (i + 1) = outcomeAt attempt (attempt s).1 i :=
  rfl

variable {attempt} {retryable : E → Bool} {loop : List D → S → S × Except E T}

theorem RetryLoop.exists_last (h : RetryLoop attempt retryable loop) {Inv : S → Prop}
    (hfail : ∀ s err, Inv s → (attempt s).2 = .error err → Inv (attempt s).1) (delays : List D)
    {s : S} (hs : Inv s) : ∃ last, Inv last ∧ loop delays s = attempt last := by
  induction delays generalizing s with
  | nil =>
    refine ⟨s, hs, ?_⟩
    rw [h]
    rcases attempt s with ⟨s', err | value⟩ <;> rfl
  | cons delay delays ih =>
    rw [h]
    have hkept := hfail s
    rcases hattempt : attempt s with ⟨s', err | value⟩
    · rw [hattempt] at hkept
      show ∃ last, Inv last ∧ (if retryable err then loop delays s' else (s', .error err)) = _
      by_cases hretryable : retryable err = true
      · rw [if_pos hretryable]
        exact ih (hkept err hs rfl)
      · rw [if_neg hretryable]
        exact ⟨s, hs, hattempt.symm⟩
    · exact ⟨s, hs, hattempt.symm⟩

theorem RetryLoop.keeps (h : RetryLoop attempt retryable loop) (Inv : S → Prop)
    (hstep : ∀ s, Inv s → Inv (attempt s).1) (delays : List D) {s : S} (hs : Inv (attempt s).1) :
    Inv (loop delays s).1 := by
  rw [h]
  revert hs
  rcases attempt s with ⟨s', err | value⟩ <;> intro hs
  · cases delays with
    | nil => exact hs
    | cons delay delays =>
      show Inv (if retryable err then loop delays s' else (s', .error err)).1
      by_cases hretryable : retryable err = true
      · obtain ⟨last, hlast, hrest⟩ := h.exists_last (fun s _ hs _ => hstep s hs) delays hs
        rw [if_pos hretryable, hrest]
        exact hstep last hlast
      · rw [if_neg hretryable]
        exact hs
  · exact hs

/-- **What a retry loop comes to.** -/
theorem RetryLoop.eq (h : RetryLoop attempt retryable loop) (delays : List D) (s : S) :
    loop delays s =
      (stateAt attempt s
          (attempts (fun i => decisive retryable (outcomeAt attempt s i)) (1 + delays.length)),
        outcomeAt attempt s
          (attempts (fun i => decisive retryable (outcomeAt attempt s i)) (1 + delays.length)
            - 1)) := by
  induction delays generalizing s with
  | nil =>
    have hone : attempts (fun i => decisive retryable (outcomeAt attempt s i)) 1 = 1 :=
      Nat.le_antisymm (attempts_le 1) (attempts_pos (by omega))
    rw [h]
    show _ = (stateAt attempt s (attempts _ 1), outcomeAt attempt s (attempts _ 1 - 1))
    rw [hone]
    show _ = ((attempt s).1, (attempt s).2)
    obtain ⟨s', value | err⟩ := attempt s <;> rfl
  | cons delay delays ih =>
    have hlen : 1 + (delay :: delays).length = (1 + delays.length) + 1 := by
      rw [List.length_cons]
      omega
    rw [h, hlen, attempts_succ]
    by_cases hdecisive : decisive retryable (outcomeAt attempt s 0) = true
    · rw [if_pos hdecisive]
      show _ = ((attempt s).1, (attempt s).2)
      change decisive retryable (attempt s).2 = true at hdecisive
      rcases hattempt : attempt s with ⟨s', err | value⟩
      · rw [hattempt] at hdecisive
        have hnot : ¬ retryable err = true := by simpa [decisive] using hdecisive
        exact if_neg hnot
      · rfl
    · -- the rest of the loop runs from the state the first attempt left
      rw [if_neg hdecisive]
      change ¬ decisive retryable (attempt s).2 = true at hdecisive
      have hrest := ih (attempt s).1
      have hpos : 0 < attempts (fun i => decisive retryable (outcomeAt attempt (attempt s).1 i))
          (1 + delays.length) := attempts_pos (by omega)
      rw [Nat.add_sub_cancel]
      show _ = (stateAt attempt (attempt s).1 _, outcomeAt attempt s _)
      have hlast : outcomeAt attempt s
            (attempts (fun i => decisive retryable (outcomeAt attempt s (i + 1)))
              (1 + delays.length)) =
          outcomeAt attempt (attempt s).1
            (attempts (fun i => decisive retryable (outcomeAt attempt (attempt s).1 i))
              (1 + delays.length) - 1) := by
        rw [← outcomeAt_succ, Nat.sub_add_cancel hpos]
        rfl
      rw [hlast]
      refine Eq.trans ?_ hrest
      rcases hattempt : attempt s with ⟨s', err | value⟩
      · rw [hattempt] at hdecisive
        have hretryable : retryable err = true := by simpa [decisive] using hdecisive
        exact if_pos hretryable
      · rw [hattempt] at hdecisive
        exact absurd rfl hdecisive

end loop

/-! ### Rotation -/

theorem nodup_positions {n m : Nat} (k : Nat) (h : m ≤ n) :
    ((List.range' k m).map (· % n)).Nodup := by
  refine List.Nodup.map_on ?_ List.nodup_range'
  intro i hi j hj hmod
  rw [List.mem_range'_1] at hi hj
  have hmod' : i ≡ j [MOD n] := hmod
  rcases Nat.le_total i j with hle | hle
  · have := Nat.eq_zero_of_dvd_of_lt ((Nat.modEq_iff_dvd' hle).mp hmod') (by omega)
    omega
  · have := Nat.eq_zero_of_dvd_of_lt ((Nat.modEq_iff_dvd' hle).mp hmod'.symm) (by omega)
    omega

theorem count_position {n j : Nat} (a : Nat) (h : j < n) :
    Nat.count (· % n = j) a = a / n ∨ Nat.count (· % n = j) a = (a + n - 1) / n := by
  have hn : 0 < n := by omega
  have hcount : Nat.count (· % n = j) a = a / n + if j % n < a % n then 1 else 0 := by
    rw [← Nat.count_modEq_card a hn j]
    simp only [Nat.ModEq, Nat.mod_eq_of_lt h]
  rw [hcount]
  by_cases hlt : j % n < a % n
  · right
    rw [if_pos hlt]
    have hceil : (a + n - 1) / n = (a % n - 1 + n * (a / n + 1)) / n := by
      congr 1
      have := Nat.mod_add_div a n
      rw [Nat.mul_add]
      omega
    have hrest : a % n - 1 < n := by
      have := Nat.mod_lt a hn
      omega
    rw [hceil, Nat.add_mul_div_left _ _ hn, Nat.div_eq_of_lt hrest, Nat.zero_add]
  · left
    rw [if_neg hlt, Nat.add_zero]

end DragonflySdk.Foundation
