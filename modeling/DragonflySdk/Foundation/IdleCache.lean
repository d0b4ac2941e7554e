import DragonflySdk.Foundation.OrInsert
import Mathlib.Data.Finset.Card
import Mathlib.Order.Defs.LinearOrder

/-!
# Caches that forget what is idle

A cache of values under keys, each with the time it was last used. A visit first cleans up, unless
the last cleanup is too short ago: what has not been used recently is removed, and everything if
there is more than the cache should hold. Then the value of the visited key is used again, or one is
made.

A value that is used again was used recently, or so at the last cleanup, which is short ago
(`Logs.reused`). As long as the cache is not too full, what was used recently is used again
(`Logs.reuses`), and what is made under a key serves all visits until the key is removed
(`Logs.stretch`). It gets too full just when something is made with no room left
(`Visits.fits_iff`).
-/

namespace DragonflySdk.Foundation.IdleCache

/-- When a cleanup is too early, what counts as recently used, and how much the cache should
hold. -/
structure Policy (τ : Type*) where
  early : (now cleanedAt : τ) → Bool
  recent : (now usedAt : τ) → Bool
  capacity : Int

/-- The values with the times they were last used, the keys there are, and the time of the last
cleanup. -/
structure State (κ α τ : Type*) where
  lookup : κ → Option (α × τ)
  keys : Finset κ
  mem_keys : ∀ key, key ∈ keys ↔ (lookup key).isSome = true
  cleanedAt : τ

/-- What a visit comes to. -/
inductive Outcome (α : Type*)
  | reused (value : α)
  | made (value : α)
  | failed
deriving DecidableEq, Repr

/-- A visit of a key, with the keys it removed, in order, and how much there is in the cache
then. -/
structure Visit (κ α τ : Type*) where
  key : κ
  now : τ
  removed : List κ
  outcome : Outcome α
  size : Nat

variable {κ α τ : Type*}

/-- The value a visit comes to. -/
def Outcome.value : Outcome α → Option α
  | reused value | made value => some value
  | failed => none

theorem Outcome.value_eq_none_iff {outcome : Outcome α} :
    outcome.value = none ↔ outcome = .failed := by
  rcases outcome with _ | _ | _ <;> simp [Outcome.value]

namespace State

/-- An empty cache. -/
def new (cleanedAt : τ) : State κ α τ := ⟨fun _ => none, ∅, fun _ => by simp, cleanedAt⟩

theorem ext_lookup {s s' : State κ α τ} (hlookup : s.lookup = s'.lookup)
    (hcleanedAt : s.cleanedAt = s'.cleanedAt) : s = s' := by
  obtain ⟨lookup, keys, hkeys, cleanedAt⟩ := s
  obtain ⟨lookup', keys', hkeys', cleanedAt'⟩ := s'
  obtain rfl : lookup = lookup' := hlookup
  obtain rfl : cleanedAt = cleanedAt' := hcleanedAt
  have hsame : keys = keys' := by
    ext key
    rw [hkeys, hkeys']
  subst hsame
  rfl

section
variable (policy : Policy τ) (now : τ) (s : State κ α τ)

/-- There is more than the cache should hold. -/
def exceeds : Bool := policy.capacity < s.keys.card

/-- A cleanup retains the value. -/
def retains (value : α × τ) : Bool := !s.exceeds policy && policy.recent now value.2

/-- Removes what is not retained, if a cleanup is not too early. -/
def clean : State κ α τ :=
  if policy.early now s.cleanedAt then s
  else
    { lookup := fun key => (s.lookup key).filter (s.retains policy now)
      keys := s.keys.filter fun key => ((s.lookup key).filter (s.retains policy now)).isSome
      mem_keys := by
        intro key
        rw [Finset.mem_filter, s.mem_keys, and_iff_right_iff_imp]
        intro hsome
        obtain ⟨value, hvalue⟩ := Option.isSome_iff_exists.mp hsome
        rw [(Option.filter_eq_some_iff.mp hvalue).1]
        rfl
      cleanedAt := now }

variable [DecidableEq κ]

/-- The value of the key, used now. -/
def put (key : κ) (value : α) (now : τ) : State κ α τ where
  lookup := Function.update s.lookup key (some (value, now))
  keys := insert key s.keys
  mem_keys := by
    intro other
    rw [Finset.mem_insert, s.mem_keys]
    by_cases h : other = key
    · rw [h, Function.update_self]
      simp
    · rw [Function.update_of_ne h]
      simp [h]
  cleanedAt := s.cleanedAt

end

end State

section
variable [DecidableEq κ]

/-- The use of a key, after a cleanup. -/
inductive Uses (key : κ) (now : τ) : State κ α τ → Outcome α → State κ α τ → Prop
  | reuse {s} (value : α) (usedAt : τ) (h : s.lookup key = some (value, usedAt)) :
      Uses key now s (.reused value) (s.put key value now)
  | make {s} (value : α) (h : s.lookup key = none) :
      Uses key now s (.made value) (s.put key value now)
  | fail {s} (h : s.lookup key = none) : Uses key now s .failed s

/-- One visit. -/
structure Visits (policy : Policy τ) (s : State κ α τ) (v : Visit κ α τ) (s' : State κ α τ) :
    Prop where
  mem_removed : ∀ key, key ∈ v.removed ↔ key ∈ s.keys ∧ key ∉ (s.clean policy v.now).keys
  uses : Uses v.key v.now (s.clean policy v.now) v.outcome s'
  size_eq : v.size = s'.keys.card

/-- Visits one after the other. -/
abbrev Logs (policy : Policy τ) (s : State κ α τ) (log : List (Visit κ α τ)) (s' : State κ α τ) :
    Prop :=
  Trace (Visits policy) s log s'

end

/-! ### Cleanups -/

variable {policy : Policy τ} {s s' s'' : State κ α τ} {v : Visit κ α τ}
  {log log' : List (Visit κ α τ)} {key : κ} {value : α} {now usedAt : τ}

namespace State

theorem mem_keys_iff : key ∈ s.keys ↔ ∃ e, s.lookup key = some e := by
  rw [s.mem_keys, Option.isSome_iff_exists]

theorem retains_iff {e : α × τ} :
    s.retains policy now e = true ↔ (s.keys.card : Int) ≤ policy.capacity ∧
      policy.recent now e.2 = true := by
  rw [retains, exceeds, Bool.and_eq_true, Bool.not_eq_true', decide_eq_false_iff_not, not_lt]

theorem of_clean_lookup {e : α × τ} (h : (s.clean policy now).lookup key = some e) :
    s.lookup key = some e ∧
      (policy.early now s.cleanedAt = true ∨ policy.recent now e.2 = true) := by
  unfold clean at h
  by_cases hearly : policy.early now s.cleanedAt = true
  · rw [if_pos hearly] at h
    exact ⟨h, .inl hearly⟩
  · rw [if_neg hearly] at h
    obtain ⟨hlookup, hretains⟩ := Option.filter_eq_some_iff.mp h
    exact ⟨hlookup, .inr (retains_iff.mp hretains).2⟩

theorem clean_lookup {e : α × τ} (h : s.lookup key = some e)
    (hsize : (s.keys.card : Int) ≤ policy.capacity) (hrecent : policy.recent now e.2 = true) :
    (s.clean policy now).lookup key = some e := by
  unfold clean
  split
  · exact h
  · exact Option.filter_eq_some_iff.mpr ⟨h, retains_iff.mpr ⟨hsize, hrecent⟩⟩

theorem clean_keys_subset : (s.clean policy now).keys ⊆ s.keys := by
  intro key hmem
  obtain ⟨e, he⟩ := mem_keys_iff.mp hmem
  exact mem_keys_iff.mpr ⟨e, (of_clean_lookup he).1⟩

theorem clean_cleanedAt :
    (s.clean policy now).cleanedAt =
      if policy.early now s.cleanedAt = true then s.cleanedAt else now := by
  unfold clean
  split <;> rfl

end State

/-! ### Visits in order -/

/-- The last visit of the key was then, and came to the value. -/
def LastVisit (log : List (Visit κ α τ)) (key : κ) (value : α) (now : τ) : Prop :=
  ∃ before last after, log = before ++ last :: after ∧ last.key = key ∧ last.now = now ∧
    last.outcome.value = some value ∧ ∀ v ∈ after, v.key ≠ key

theorem LastVisit.concat (h : LastVisit log key value now) (hne : v.key ≠ key) :
    LastVisit (log ++ [v]) key value now := by
  obtain ⟨before, last, after, rfl, hkey, hnow, hvalue, hafter⟩ := h
  refine ⟨before, last, after ++ [v], by simp, hkey, hnow, hvalue, ?_⟩
  intro v' hmem
  rcases List.mem_append.mp hmem with hmem | hmem
  · exact hafter v' hmem
  · rwa [List.mem_singleton.mp hmem]

/-- The visits are one after the other, from the time the cache was made on. -/
def Sorted [LE τ] (createdAt : τ) (log : List (Visit κ α τ)) : Prop :=
  (createdAt :: log.map Visit.now).Pairwise (· ≤ ·)

theorem Sorted.concat [LE τ] {createdAt : τ} (h : Sorted createdAt (log ++ [v])) :
    Sorted createdAt log ∧ ∀ t ∈ createdAt :: log.map Visit.now, t ≤ v.now := by
  unfold Sorted at h
  rw [List.map_append, ← List.cons_append, List.pairwise_append] at h
  exact ⟨h.1, fun t ht => h.2.2 t ht v.now (List.mem_singleton.mpr rfl)⟩

/-! ### Visits -/

section
variable [DecidableEq κ]

theorem Visits.mem_clean_keys (h : Visits policy s v s') :
    key ∈ (s.clean policy v.now).keys ↔ key ∈ s.keys ∧ key ∉ v.removed := by
  rw [h.mem_removed]
  constructor
  · intro hmem
    exact ⟨State.clean_keys_subset hmem, fun hremoved => hremoved.2 hmem⟩
  · rintro ⟨hmem, hkept⟩
    by_contra hgone
    exact hkept ⟨hmem, hgone⟩

theorem Uses.lookup_of_ne {outcome : Outcome α} (h : Uses key now s outcome s') {other : κ}
    (hne : other ≠ key) : s'.lookup other = s.lookup other := by
  cases h with
  | reuse value usedAt h => exact Function.update_of_ne hne _ _
  | make value h => exact Function.update_of_ne hne _ _
  | fail h => rfl

theorem Uses.lookup_self {outcome : Outcome α} (h : Uses key now s outcome s') :
    s'.lookup key = outcome.value.map fun value => (value, now) := by
  cases h with
  | reuse value usedAt h => exact Function.update_self _ _ _
  | make value h => exact Function.update_self _ _ _
  | fail h => exact h

theorem Uses.cleanedAt_eq {outcome : Outcome α} (h : Uses key now s outcome s') :
    s'.cleanedAt = s.cleanedAt := by
  cases h <;> rfl

/-! ### How long ago -/

section
variable [LinearOrder τ]

/-- What is in the cache was last visited when it was last used; and that was recent at the last
cleanup, unless it was after it. -/
structure Inv (policy : Policy τ) (createdAt : τ) (log : List (Visit κ α τ)) (s : State κ α τ) :
    Prop where
  cleanedAt_mem : s.cleanedAt ∈ createdAt :: log.map Visit.now
  lastVisit : ∀ key value usedAt, s.lookup key = some (value, usedAt) →
    LastVisit log key value usedAt
  recent : ∀ key value usedAt, s.lookup key = some (value, usedAt) →
    s.cleanedAt ≤ usedAt ∨ policy.recent s.cleanedAt usedAt = true

theorem Visits.inv {createdAt : τ} (h : Visits policy s v s') (hinv : Inv policy createdAt log s)
    (hnow : ∀ t ∈ createdAt :: log.map Visit.now, t ≤ v.now) :
    Inv policy createdAt (log ++ [v]) s' := by
  have hcleanedAt : s'.cleanedAt =
      if policy.early v.now s.cleanedAt = true then s.cleanedAt else v.now :=
    h.uses.cleanedAt_eq.trans State.clean_cleanedAt
  have hle : s'.cleanedAt ≤ v.now := by
    rw [hcleanedAt]
    split
    · exact hnow _ hinv.cleanedAt_mem
    · exact le_refl _
  have hself : ∀ {value usedAt}, s'.lookup v.key = some (value, usedAt) →
      v.outcome.value = some value ∧ v.now = usedAt := by
    intro value usedAt hlookup
    rw [h.uses.lookup_self, Option.map_eq_some_iff] at hlookup
    obtain ⟨value', hvalue, heq⟩ := hlookup
    obtain ⟨rfl, rfl⟩ := Prod.mk.inj heq
    exact ⟨hvalue, rfl⟩
  refine ⟨?_, ?_, ?_⟩
  · rw [hcleanedAt, List.map_append, ← List.cons_append]
    split
    · exact List.mem_append_left _ hinv.cleanedAt_mem
    · exact List.mem_append_right _ (List.mem_singleton.mpr rfl)
  · intro key value usedAt hlookup
    by_cases hkey : v.key = key
    · subst hkey
      obtain ⟨hvalue, hnow⟩ := hself hlookup
      exact ⟨log, v, [], rfl, rfl, hnow, hvalue, fun v' hmem => absurd hmem List.not_mem_nil⟩
    · rw [h.uses.lookup_of_ne (Ne.symm hkey)] at hlookup
      exact (hinv.lastVisit key value usedAt (State.of_clean_lookup hlookup).1).concat hkey
  · intro key value usedAt hlookup
    by_cases hkey : v.key = key
    · subst hkey
      rw [← (hself hlookup).2]
      exact .inl hle
    · rw [h.uses.lookup_of_ne (Ne.symm hkey)] at hlookup
      obtain ⟨hbefore, hkept⟩ := State.of_clean_lookup hlookup
      rw [hcleanedAt]
      by_cases hearly : policy.early v.now s.cleanedAt = true
      · rw [if_pos hearly]
        exact hinv.recent key value usedAt hbefore
      · rw [if_neg hearly]
        exact .inr (hkept.resolve_left hearly)

theorem Logs.inv {createdAt : τ} (h : Logs policy (State.new createdAt) log s')
    (hsorted : Sorted createdAt log) : Inv policy createdAt log s' := by
  induction log using List.reverseRecOn generalizing s' with
  | nil =>
    obtain rfl : s' = State.new createdAt := h
    refine ⟨List.mem_singleton.mpr rfl, ?_, ?_⟩
    · intro key value usedAt hlookup
      cases hlookup
    · intro key value usedAt hlookup
      cases hlookup
  | append_singleton log v ih =>
    obtain ⟨s, hlog, hvisit⟩ := Trace.concat_iff.mp h
    obtain ⟨hbefore, hnow⟩ := hsorted.concat
    exact hvisit.inv (ih hlog hbefore) hnow

/-- **A value that is used again** was last used recently, or it was at the last cleanup (or that
was before), which is too short ago for another one. -/
theorem Logs.reused {createdAt : τ} (h : Logs policy (State.new createdAt) (log ++ [v]) s')
    (hsorted : Sorted createdAt (log ++ [v])) (hreused : v.outcome = .reused value) :
    ∃ usedAt, LastVisit log v.key value usedAt ∧ (policy.recent v.now usedAt = true ∨
      ∃ cleanedAt, policy.early v.now cleanedAt = true ∧
        (cleanedAt ≤ usedAt ∨ policy.recent cleanedAt usedAt = true)) := by
  obtain ⟨s, hlog, hvisit⟩ := Trace.concat_iff.mp h
  have hinv := Logs.inv hlog hsorted.concat.1
  have huses := hvisit.uses
  rw [hreused] at huses
  cases huses with
  | reuse value usedAt hlookup =>
    obtain ⟨hbefore, hkept⟩ := State.of_clean_lookup hlookup
    refine ⟨usedAt, hinv.lastVisit v.key value usedAt hbefore, ?_⟩
    rcases hkept with hearly | hrecent
    · exact .inr ⟨s.cleanedAt, hearly, hinv.recent v.key value usedAt hbefore⟩
    · exact .inl hrecent

end

/-! ### As long as there is not too much -/

theorem Logs.kept (h : Logs policy s log s') (hlookup : s.lookup key = some (value, usedAt))
    (hother : ∀ v ∈ log, v.key ≠ key) (hrecent : ∀ v ∈ log, policy.recent v.now usedAt = true)
    (hsize : (s.keys.card : Int) ≤ policy.capacity)
    (hsizes : ∀ v ∈ log, (v.size : Int) ≤ policy.capacity) :
    s'.lookup key = some (value, usedAt) ∧ (s'.keys.card : Int) ≤ policy.capacity := by
  induction log generalizing s with
  | nil =>
    obtain rfl : s' = s := h
    exact ⟨hlookup, hsize⟩
  | cons v log ih =>
    obtain ⟨s₁, hvisit, hlog⟩ := h
    have hv : v ∈ v :: log := List.mem_cons_self
    have hkept := State.clean_lookup hlookup hsize (hrecent v hv)
    have hsize₁ := hsizes v hv
    rw [hvisit.size_eq] at hsize₁
    refine ih hlog ?_ (fun w hw => hother w (List.mem_cons_of_mem _ hw))
      (fun w hw => hrecent w (List.mem_cons_of_mem _ hw)) hsize₁
      (fun w hw => hsizes w (List.mem_cons_of_mem _ hw))
    rw [hvisit.uses.lookup_of_ne (Ne.symm (hother v hv))]
    exact hkept

theorem Visits.reuses (h : Visits policy s v s') (hlookup : s.lookup v.key = some (value, usedAt))
    (hrecent : policy.recent v.now usedAt = true)
    (hsize : (s.keys.card : Int) ≤ policy.capacity) : v.outcome = .reused value := by
  have hkept := State.clean_lookup hlookup hsize hrecent
  have huses := h.uses
  generalize v.outcome = outcome at huses ⊢
  cases huses with
  | reuse value' usedAt' hlookup' =>
    rw [hkept] at hlookup'
    rw [(Prod.mk.inj (Option.some.inj hlookup')).1]
  | make value' hnone =>
    rw [hkept] at hnone
    cases hnone
  | fail hnone =>
    rw [hkept] at hnone
    cases hnone

/-- **What was visited recently is used again**, as long as there was not too much. -/
theorem Logs.reuses [LinearOrder τ] {createdAt : τ} {before middle : List (Visit κ α τ)}
    {last : Visit κ α τ}
    (hmono : ∀ now now' usedAt, now ≤ now' → policy.recent now' usedAt = true →
      policy.recent now usedAt = true)
    (h : Logs policy (State.new createdAt) (before ++ last :: middle ++ [v]) s')
    (hsorted : Sorted createdAt (before ++ last :: middle ++ [v]))
    (hsizes : ∀ w ∈ before ++ last :: middle, (w.size : Int) ≤ policy.capacity)
    (hvalue : last.outcome.value = some value) (hkey : v.key = last.key)
    (hother : ∀ w ∈ middle, w.key ≠ last.key) (hrecent : policy.recent v.now last.now = true) :
    v.outcome = .reused value := by
  obtain ⟨s₂, hlog, hvisit⟩ := Trace.concat_iff.mp h
  obtain ⟨s₀, _, s₁, hlast, hmiddle⟩ := Trace.append_iff.mp hlog
  have hmem : ∀ w ∈ last :: middle, w ∈ before ++ last :: middle :=
    fun w hw => List.mem_append_right _ hw
  have hle : ∀ w ∈ middle, w.now ≤ v.now := by
    intro w hw
    refine hsorted.concat.2 w.now (List.mem_cons_of_mem _ (List.mem_map_of_mem ?_))
    exact hmem w (List.mem_cons_of_mem _ hw)
  have hsize₁ := hsizes last (hmem last List.mem_cons_self)
  rw [hlast.size_eq] at hsize₁
  have hlookup₁ : s₁.lookup last.key = some (value, last.now) := by
    rw [hlast.uses.lookup_self, hvalue]
    rfl
  obtain ⟨hlookup₂, hsize₂⟩ := Logs.kept hmiddle hlookup₁ hother
    (fun w hw => hmono _ _ _ (hle w hw) hrecent) hsize₁
    (fun w hw => hsizes w (hmem w (List.mem_cons_of_mem _ hw)))
  rw [← hkey] at hlookup₂
  exact hvisit.reuses hlookup₂ hrecent hsize₂

/-! ### Between two removals -/

/-- The value a visit gets of the key. -/
def Visit.got (key : κ) (v : Visit κ α τ) : Option α :=
  if v.key = key then v.outcome.value else none

/-- The value a visit makes for the key. -/
def Visit.made (key : κ) (v : Visit κ α τ) : Option α :=
  match v.outcome with
  | .made value => if v.key = key then some value else none
  | .reused _ | .failed => none

/-- The visit of the key asks for a value to be made. -/
def Visit.asks (key : κ) (v : Visit κ α τ) : Bool :=
  match v.outcome with
  | .reused _ => false
  | .made _ | .failed => v.key = key

/-- The visit of the key fails. -/
def Visit.fails (key : κ) (v : Visit κ α τ) : Bool :=
  match v.outcome with
  | .reused _ | .made _ => false
  | .failed => v.key = key

/-- What a visit does to the map, past the cleanup. -/
def Visit.event (v : Visit κ α τ) : OrInsert.Event κ α :=
  match v.outcome with
  | .reused value => .found v.key value
  | .made value => .put v.key value
  | .failed => .nothing

/-- The map, without the times. -/
def State.values (s : State κ α τ) (key : κ) : Option α := (s.lookup key).map Prod.fst

theorem Visit.got_event (key : κ) (v : Visit κ α τ) : v.event.got key = v.got key := by
  unfold Visit.event Visit.got
  rcases v.outcome with value | value | _
  · rfl
  · rfl
  · exact (ite_self none).symm

theorem Visit.made_event (key : κ) (v : Visit κ α τ) : v.event.made key = v.made key := by
  unfold Visit.event Visit.made
  rcases v.outcome with value | value | _ <;> rfl

theorem countP_asks (key : κ) (log : List (Visit κ α τ)) :
    log.countP (Visit.asks key) =
      (log.filterMap (Visit.made key)).length + log.countP (Visit.fails key) := by
  induction log with
  | nil => rfl
  | cons v log ih =>
    rw [List.countP_cons, List.countP_cons, ih, List.filterMap_cons]
    unfold Visit.asks Visit.fails Visit.made
    rcases v.outcome with value | value | _ <;> by_cases hkey : v.key = key <;> simp [hkey] <;>
      omega

omit [DecidableEq κ] in
theorem State.values_eq_none_iff : s.values key = none ↔ key ∉ s.keys := by
  rw [values, Option.map_eq_none_iff, s.mem_keys, Bool.not_eq_true, Option.isSome_eq_false_iff,
    Option.isNone_iff_eq_none]

theorem State.values_put (key : κ) (value : α) (now : τ) :
    (s.put key value now).values = Function.update s.values key (some value) := by
  funext other
  show (Function.update s.lookup key (some (value, now)) other).map Prod.fst = _
  by_cases h : other = key
  · rw [h, Function.update_self, Function.update_self]
    rfl
  · rw [Function.update_of_ne h, Function.update_of_ne h]
    rfl

theorem Visits.drops (h : Visits policy s v s') :
    OrInsert.Step s.values (.dropped v.removed) (s.clean policy v.now).values := by
  have hvalues : (s.clean policy v.now).values =
      fun key => if key ∈ v.removed then none else s.values key := by
    funext key
    by_cases hremoved : key ∈ v.removed
    · rw [if_pos hremoved, State.values_eq_none_iff]
      exact fun hmem => (h.mem_clean_keys.mp hmem).2 hremoved
    · rw [if_neg hremoved]
      by_cases hmem : key ∈ (s.clean policy v.now).keys
      · obtain ⟨e, he⟩ := State.mem_keys_iff.mp hmem
        rw [State.values, State.values, he, (State.of_clean_lookup he).1]
      · have hnone : key ∉ s.keys := fun hbefore => hmem (h.mem_clean_keys.mpr ⟨hbefore, hremoved⟩)
        rw [State.values_eq_none_iff.mpr hmem, State.values_eq_none_iff.mpr hnone]
  rw [hvalues]
  exact .drop v.removed

theorem Visits.event (h : Visits policy s v s') :
    OrInsert.Step (s.clean policy v.now).values v.event s'.values := by
  have huses := h.uses
  unfold Visit.event
  generalize v.outcome = outcome at huses ⊢
  cases huses with
  | reuse value usedAt hlookup =>
    have hvalue : (s.clean policy v.now).values v.key = some value := by
      rw [State.values, hlookup]
      rfl
    have hsame : ((s.clean policy v.now).put v.key value v.now).values =
        (s.clean policy v.now).values := by
      rw [State.values_put, ← hvalue, Function.update_eq_self]
    rw [hsame]
    exact .found v.key value hvalue
  | make value hlookup =>
    rw [State.values_put]
    refine .put v.key value ?_
    rw [State.values, hlookup]
    rfl
  | fail hlookup => exact .nothing

theorem Logs.runs (h : Logs policy s log s') :
    OrInsert.Runs s.values (log.flatMap fun v => [.dropped v.removed, v.event]) s'.values := by
  induction log generalizing s with
  | nil =>
    obtain rfl : s' = s := h
    rfl
  | cons v log ih =>
    obtain ⟨s₁, hvisit, hlog⟩ := h
    exact ⟨_, hvisit.drops, _, hvisit.event, ih hlog⟩

omit [DecidableEq κ] in
theorem filterMap_events (f : OrInsert.Event κ α → Option α) (g : Visit κ α τ → Option α)
    (hdropped : ∀ keys, f (.dropped keys) = none) (hevent : ∀ v : Visit κ α τ, f v.event = g v)
    (log : List (Visit κ α τ)) :
    (log.flatMap fun v => [OrInsert.Event.dropped v.removed, v.event]).filterMap f =
      log.filterMap g := by
  induction log with
  | nil => rfl
  | cons v log ih =>
    rw [List.flatMap_cons, List.filterMap_append, ih, List.filterMap_cons, hdropped,
      List.filterMap_cons, hevent, List.filterMap_cons]
    rcases g v with _ | value <;> rfl

/-- **Between two removals of a key one value is made**, if any visit gets one, and all get it. -/
theorem Logs.stretch {createdAt : τ} {before rest : List (Visit κ α τ)} {first : Visit κ α τ}
    (h : Logs policy (State.new createdAt) (before ++ first :: rest) s')
    (hfirst : before = [] ∨ key ∈ first.removed) (hrest : ∀ v ∈ rest, key ∉ v.removed) :
    (first :: rest).filterMap (Visit.got key) = [] ∧
        (first :: rest).filterMap (Visit.made key) = [] ∨
      ∃ value, (first :: rest).filterMap (Visit.made key) = [value] ∧
        ∀ value' ∈ (first :: rest).filterMap (Visit.got key), value' = value := by
  obtain ⟨s₀, hbefore, s₁, hvisit, hlog⟩ := Trace.append_iff.mp h
  have hnone : (s₀.clean policy first.now).values key = none := by
    rw [State.values_eq_none_iff]
    rcases hfirst with rfl | hremoved
    · obtain rfl : s₀ = State.new createdAt := hbefore
      intro hmem
      exact absurd (State.clean_keys_subset hmem) (Finset.notMem_empty key)
    · exact fun hmem => (hvisit.mem_clean_keys.mp hmem).2 hremoved
  have hkeeps : OrInsert.Keeps key (first.event ::
      rest.flatMap fun v => [OrInsert.Event.dropped v.removed, v.event]) := by
    intro keys hmem
    have hnot : ∀ v : Visit κ α τ, OrInsert.Event.dropped keys ≠ v.event := by
      intro v
      unfold Visit.event
      rcases v.outcome with value | value | _ <;> exact fun h => by cases h
    rcases List.mem_cons.mp hmem with heq | hmem
    · exact absurd heq (hnot first)
    · obtain ⟨v, hv, hmem⟩ := List.mem_flatMap.mp hmem
      rcases List.mem_cons.mp hmem with heq | hmem
      · rw [OrInsert.Event.dropped.inj heq]
        exact hrest v hv
      · exact absurd (List.mem_singleton.mp hmem) (hnot v)
  have hruns : OrInsert.Runs (s₀.clean policy first.now).values (first.event ::
      rest.flatMap fun v => [OrInsert.Event.dropped v.removed, v.event]) s'.values :=
    ⟨_, hvisit.event, Logs.runs hlog⟩
  have hstretch := OrInsert.Runs.stretch hruns hkeeps hnone
  have hmap : ∀ (f : OrInsert.Event κ α → Option α) (g : Visit κ α τ → Option α),
      (∀ keys, f (.dropped keys) = none) → (∀ v : Visit κ α τ, f v.event = g v) →
      (first.event ::
          rest.flatMap fun v => [OrInsert.Event.dropped v.removed, v.event]).filterMap f =
        (first :: rest).filterMap g := by
    intro f g hdropped hevent
    rw [List.filterMap_cons, hevent, filterMap_events f g hdropped hevent, List.filterMap_cons]
  rw [hmap _ _ (fun _ => rfl) (Visit.made_event key), hmap _ _ (fun _ => rfl) (Visit.got_event key)]
    at hstretch
  exact hstretch

/-! ### Room -/

/-- What a cleanup leaves unless there is too much. -/
def State.survivors (policy : Policy τ) (now : τ) (s : State κ α τ) : Finset κ :=
  if policy.early now s.cleanedAt then s.keys
  else s.keys.filter fun key => (s.lookup key).any fun value => policy.recent now value.2

/-- There is room for what a visit of the key makes: the key survives, or making it fails, or there
is less than the cache should hold. -/
def State.Room (policy : Policy τ) (s : State κ α τ) (key : κ) (now : τ) (fails : Prop) : Prop :=
  key ∈ s.survivors policy now ∨ fails ∨ ((s.survivors policy now).card : Int) < policy.capacity

/-- A visit respects the capacity: there is not too much afterwards, and nothing that was used
recently is removed because there was, while something that was not is left. -/
structure State.Respects (policy : Policy τ) (s : State κ α τ) (v : Visit κ α τ) : Prop where
  fits : (v.size : Int) ≤ policy.capacity
  spares : s.exceeds policy = true → ∀ before key after value usedAt idle value' usedAt',
    v.removed = before ++ key :: after →
    s.lookup key = some (value, usedAt) → policy.recent v.now usedAt = true →
    s.lookup idle = some (value', usedAt') → policy.recent v.now usedAt' = false → idle ∈ before

omit [DecidableEq κ] in
theorem State.clean_keys (hsize : (s.keys.card : Int) ≤ policy.capacity) :
    (s.clean policy now).keys = s.survivors policy now := by
  unfold clean survivors
  split
  · rfl
  · ext key
    rw [Finset.mem_filter, Finset.mem_filter]
    rcases s.lookup key with _ | value
    · rfl
    · have hretains : s.retains policy now value = policy.recent now value.2 := by
        rw [Bool.eq_iff_iff, retains_iff, and_iff_right hsize]
      rw [Option.filter_some, hretains, Option.any_some]
      rcases policy.recent now value.2 <;> rfl

/-- **A cache gets too full just when there is no room** for what is made. -/
theorem Visits.fits_iff (h : Visits policy s v s') (hsize : (s.keys.card : Int) ≤ policy.capacity)
    {fails : Prop}
    (hfails : v.key ∉ (s.clean policy v.now).keys → (fails ↔ v.outcome = .failed)) :
    (v.size : Int) ≤ policy.capacity ↔ s.Room policy v.key v.now fails := by
  have hkeys : (s.clean policy v.now).keys = s.survivors policy v.now := State.clean_keys hsize
  have hclean : ((s.clean policy v.now).keys.card : Int) ≤ policy.capacity := by
    have hsubset : (s.clean policy v.now).keys ⊆ s.keys := State.clean_keys_subset
    have hle := Finset.card_le_card hsubset
    omega
  have hnotMem : (s.clean policy v.now).lookup v.key = none →
      v.key ∉ (s.clean policy v.now).keys := by
    intro hnone hmem
    obtain ⟨e, he⟩ := State.mem_keys_iff.mp hmem
    rw [hnone] at he
    cases he
  have huses := h.uses
  unfold State.Room
  rw [h.size_eq, ← hkeys]
  generalize v.outcome = outcome at huses hfails
  cases huses with
  | reuse value usedAt hlookup =>
    have hmem : v.key ∈ (s.clean policy v.now).keys := State.mem_keys_iff.mpr ⟨_, hlookup⟩
    have hput : ((s.clean policy v.now).put v.key value v.now).keys =
        (s.clean policy v.now).keys := Finset.insert_eq_of_mem hmem
    rw [hput]
    exact iff_of_true hclean (.inl hmem)
  | make value hlookup =>
    have hmem := hnotMem hlookup
    have hcard : ((s.clean policy v.now).put v.key value v.now).keys.card =
        (s.clean policy v.now).keys.card + 1 := Finset.card_insert_of_notMem hmem
    rw [hcard]
    constructor
    · intro hle
      exact .inr (.inr (by omega))
    · rintro (hin | hfail | hlt)
      · exact absurd hin hmem
      · cases (hfails hmem).mp hfail
      · omega
  | fail hlookup => exact iff_of_true hclean (.inr (.inl ((hfails (hnotMem hlookup)).mpr rfl)))

theorem Visits.respects_iff (h : Visits policy s v s')
    (hsize : (s.keys.card : Int) ≤ policy.capacity) {fails : Prop}
    (hfails : v.key ∉ (s.clean policy v.now).keys → (fails ↔ v.outcome = .failed)) :
    s.Respects policy v ↔ s.Room policy v.key v.now fails := by
  rw [← h.fits_iff hsize hfails]
  constructor
  · exact State.Respects.fits
  · intro hfits
    refine ⟨hfits, fun hexceeds => ?_⟩
    have hlt : policy.capacity < s.keys.card := of_decide_eq_true hexceeds
    omega

end

/-! ### Along a run -/

section
variable {σ β : Type*} {step : σ → β → σ}

theorem forall_along_nil {P : σ → β → Prop} (s : σ) (before : List β) (b : β) (after : List β)
    (h : [] = before ++ b :: after) : P (before.foldl step s) b := by
  simp at h

theorem forall_along_cons {P : σ → β → Prop} {s : σ} {first : β} {bs : List β} :
    (∀ before b after, first :: bs = before ++ b :: after → P (before.foldl step s) b) ↔
      P s first ∧
        ∀ before b after, bs = before ++ b :: after → P (before.foldl step (step s first)) b := by
  constructor
  · intro h
    refine ⟨h [] first bs rfl, fun before b after heq => ?_⟩
    exact h (first :: before) b after (congrArg (first :: ·) heq)
  · rintro ⟨hfirst, hrest⟩ before b after heq
    cases before with
    | nil =>
      obtain ⟨rfl, rfl⟩ := List.cons.inj heq
      exact hfirst
    | cons b' before =>
      obtain ⟨rfl, htail⟩ := List.cons.inj heq
      exact hrest before b after htail

theorem forall_along_iff {Kept : σ → Prop} {P Q : σ → β → Prop}
    (hiff : ∀ s b, Kept s → (P s b ↔ Q s b)) (hkept : ∀ s b, Kept s → P s b → Kept (step s b))
    {s : σ} (hs : Kept s) (bs : List β) :
    (∀ before b after, bs = before ++ b :: after → P (before.foldl step s) b) ↔
      ∀ before b after, bs = before ++ b :: after → Q (before.foldl step s) b := by
  induction bs generalizing s with
  | nil => simp
  | cons first bs ih =>
    rw [forall_along_cons, forall_along_cons, hiff s first hs]
    refine and_congr_right fun hfirst => ?_
    exact ih (hkept s first hs ((hiff s first hs).mpr hfirst))

end

/-! ### Caches in code -/

section
variable {σ χ : Type*}

/-- What is seen of calls one after the other. -/
def logOf (next : χ → σ → σ) (visit : χ → σ → Visit κ α τ) : σ → List χ → List (Visit κ α τ)
  | _, [] => []
  | s, call :: calls => visit call s :: logOf next visit (next call s) calls

/-- Calls are visits of the cache that is viewed in the state, as long as an invariant holds. Where
nothing is found, those that are to fail do. -/
structure Implements [DecidableEq κ] (policy : Policy τ) (view : σ → State κ α τ) (Kept : σ → Prop)
    (next : χ → σ → σ) (visit : χ → σ → Visit κ α τ) (now : χ → τ) (fails : χ → Prop) : Prop where
  now_eq : ∀ s call, (visit call s).now = now call
  visits : ∀ s call, Kept s → Visits policy (view s) (visit call s) (view (next call s))
  kept : ∀ s call, Kept s → Kept (next call s)
  fails_iff : ∀ s call, Kept s →
    (visit call s).key ∉ ((view s).clean policy (visit call s).now).keys →
    (fails call ↔ (visit call s).outcome = .failed)

namespace Implements
variable [DecidableEq κ] {view : σ → State κ α τ} {Kept : σ → Prop} {next : χ → σ → σ}
  {visit : χ → σ → Visit κ α τ} {now : χ → τ} {fails : χ → Prop} {s : σ}

theorem map_now_log (h : Implements policy view Kept next visit now fails) (s : σ) (calls : List χ) :
    (logOf next visit s calls).map Visit.now = calls.map now := by
  induction calls generalizing s with
  | nil => rfl
  | cons call calls ih => exact congrArg₂ List.cons (h.now_eq s call) (ih _)

theorem sorted_log [LE τ] (h : Implements policy view Kept next visit now fails) {createdAt : τ}
    {calls : List χ} (hsorted : (createdAt :: calls.map now).Pairwise (· ≤ ·)) :
    Sorted createdAt (logOf next visit s calls) := by
  rw [Sorted, h.map_now_log]
  exact hsorted

theorem logs (h : Implements policy view Kept next visit now fails) (hs : Kept s) (calls : List χ) :
    Logs policy (view s) (logOf next visit s calls)
      (view (calls.foldl (fun s call => next call s) s)) := by
  induction calls generalizing s with
  | nil => rfl
  | cons call calls ih => exact ⟨_, h.visits s call hs, ih (h.kept s call hs)⟩

/-- **A run respects the capacity just as long as there is room** for what its calls make. -/
theorem respects_along_iff (h : Implements policy view Kept next visit now fails) (hs : Kept s)
    (hsize : ((view s).keys.card : Int) ≤ policy.capacity) (calls : List χ) :
    (∀ before call after, calls = before ++ call :: after →
        (view (before.foldl (fun s call => next call s) s)).Respects policy
          (visit call (before.foldl (fun s call => next call s) s))) ↔
      ∀ before call after, calls = before ++ call :: after →
        (view (before.foldl (fun s call => next call s) s)).Room policy
          (visit call (before.foldl (fun s call => next call s) s)).key
          (visit call (before.foldl (fun s call => next call s) s)).now (fails call) := by
  have hiff : ∀ s call, (Kept s ∧ ((view s).keys.card : Int) ≤ policy.capacity) →
      ((view s).Respects policy (visit call s) ↔
        (view s).Room policy (visit call s).key (visit call s).now (fails call)) :=
    fun s call hs => (h.visits s call hs.1).respects_iff hs.2 (h.fails_iff s call hs.1)
  have hkept : ∀ s call, (Kept s ∧ ((view s).keys.card : Int) ≤ policy.capacity) →
      (view s).Respects policy (visit call s) →
      Kept (next call s) ∧ ((view (next call s)).keys.card : Int) ≤ policy.capacity := by
    intro s call hs hrespects
    refine ⟨h.kept s call hs.1, ?_⟩
    rw [← (h.visits s call hs.1).size_eq]
    exact hrespects.fits
  exact forall_along_iff hiff hkept ⟨hs, hsize⟩ calls

end Implements

end

end DragonflySdk.Foundation.IdleCache
