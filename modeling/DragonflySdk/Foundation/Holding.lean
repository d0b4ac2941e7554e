import DragonflySdk.Foundation.Trace
import Mathlib.Data.Set.Basic
import Mathlib.Logic.Function.Basic

/-!
# What is placed on holders and taken back

An item is put on some of its holders and removed from some of them by operations. An operation
makes attempts at each of the holders it addresses, one after the other at each and all at the same
time, may be cut off, and returns with success only if the last attempt at each had success. An
attempt that has success leaves its holder with the item, or without it, as it was to; one that has
none may do so all the same, at once or late. And a holder may lose the item by itself.

Whatever the interleaving of any number of operations, the item is only on holders that were
addressed to put it there (`held_bounded`), a holder stays as it is as long as nothing disturbs it
(`held_of_undisturbed`), and an operation that has returned with success has brought about what it
was to, until that is disturbed (`held_of_returned`).
-/

namespace DragonflySdk.Foundation.Holding

/-- An operation: whether it is to put the item on the holders it addresses, or to remove it from
them, the results of the attempts at each that it makes unless it is cut off, and whether it has
success. -/
structure Operation (κ : Type*) where
  aim : Bool
  addressed : List κ
  attempts : Nat → List Bool
  ok : Bool
  last_ok : ok = true → ∀ i < addressed.length, (attempts i).getLast? = some true

/-- What an attempt with this result makes of a holder. -/
def Makes (aim ok before after : Bool) : Prop :=
  (after = before ∨ after = aim) ∧ (ok = true → after = aim)

inductive Event (ι κ : Type*)
  | called (i : ι) (op : Operation κ)
  | attempted (i : ι) (k : κ) (aim : Bool)
  | returned (i : ι)
  /-- an attempt without success takes effect after all -/
  | late (k : κ) (aim : Bool)
  | lost (k : κ)

/-- The event may take holder `k` away from what `aim` is. -/
def Event.Disturbs {ι κ : Type*} (aim : Bool) (k : κ) : Event ι κ → Prop
  | attempted _ k' aim' | late k' aim' => k' = k ∧ aim' ≠ aim
  | lost k' => k' = k ∧ aim = true
  | called _ _ | returned _ => False

/-- The holders, and the operations. -/
structure State (ι κ : Type*) where
  held : κ → Bool
  /-- those that have not returned, with the number of attempts made at each holder addressed -/
  running : ι → Option (Operation κ × (Nat → Nat))
  /-- those that have been called -/
  called : List (Operation κ)

/-- Nobody holds the item. -/
def State.new (ι κ : Type*) : State ι κ := ⟨fun _ => false, fun _ => none, []⟩

variable {ι κ : Type*} [DecidableEq ι] [DecidableEq κ]

inductive Step : State ι κ → Event ι κ → State ι κ → Prop
  | call {s} (i : ι) (op : Operation κ) (hidle : s.running i = none) :
      Step s (.called i op)
        ⟨s.held, Function.update s.running i (some (op, fun _ => 0)), op :: s.called⟩
  | attempt {s} (i : ι) {op : Operation κ} {made : Nat → Nat} (j : Nat) {k : κ} {ok : Bool}
      (after : Bool) (hrunning : s.running i = some (op, made)) (hk : op.addressed[j]? = some k)
      (hok : (op.attempts j)[made j]? = some ok) (hmakes : Makes op.aim ok (s.held k) after) :
      Step s (.attempted i k op.aim)
        ⟨Function.update s.held k after,
          Function.update s.running i (some (op, Function.update made j (made j + 1))), s.called⟩
  | leave {s} (i : ι) {op : Operation κ} {made : Nat → Nat}
      (hrunning : s.running i = some (op, made))
      (hall : op.ok = true → ∀ j < op.addressed.length, made j = (op.attempts j).length) :
      Step s (.returned i) { s with running := Function.update s.running i none }
  | late {s} {op : Operation κ} {k : κ} (hcalled : op ∈ s.called) (hk : k ∈ op.addressed) :
      Step s (.late k op.aim) { s with held := Function.update s.held k op.aim }
  | lose {s} (k : κ) : Step s (.lost k) { s with held := Function.update s.held k false }

variable {s s' : State ι κ} {event : Event ι κ} {events : List (Event ι κ)} {aim : Bool} {k : κ}

/-! ### Undisturbed holders -/

theorem Makes.of_eq {ok before after : Bool} (h : Makes aim ok before after)
    (hbefore : before = aim) : after = aim :=
  h.1.elim (fun heq => heq.trans hbefore) id

theorem Step.undisturbed (hstep : Step s event s') (hheld : s.held k = aim)
    (hnot : ¬event.Disturbs aim k) : s'.held k = aim := by
  cases hstep with
  | call | leave => exact hheld
  | @attempt _ op _ _ k' _ after _ _ _ hmakes =>
    by_cases hk : k = k'
    · subst hk
      have haim : op.aim = aim := by
        by_contra hne
        exact hnot ⟨rfl, hne⟩
      show Function.update s.held k after k = aim
      rw [Function.update_self]
      exact (haim ▸ hmakes).of_eq hheld
    · exact (Function.update_of_ne hk _ _).trans hheld
  | @late op k' =>
    by_cases hk : k = k'
    · subst hk
      have haim : op.aim = aim := by
        by_contra hne
        exact hnot ⟨rfl, hne⟩
      exact (Function.update_self k op.aim s.held).trans haim
    · exact (Function.update_of_ne hk _ _).trans hheld
  | lose k' =>
    by_cases hk : k = k'
    · subst hk
      have haim : aim = false := by
        by_contra hne
        exact hnot ⟨rfl, Bool.eq_true_of_not_eq_false hne⟩
      exact (Function.update_self k false s.held).trans haim.symm
    · exact (Function.update_of_ne hk _ _).trans hheld

/-- **What nothing disturbs stays.** -/
theorem held_of_undisturbed (h : Trace Step s events s') (hheld : s.held k = aim)
    (hnot : ∀ event ∈ events, ¬event.Disturbs aim k) : s'.held k = aim := by
  induction events generalizing s with
  | nil => exact h ▸ hheld
  | cons event events ih =>
    obtain ⟨s₁, hstep, hrest⟩ := h
    exact ih hrest (hstep.undisturbed hheld (hnot event List.mem_cons_self))
      fun event' hmem => hnot event' (List.mem_cons_of_mem _ hmem)

/-! ### What an operation brings about -/

/-- The operation is running, and has brought about what it was to wherever its last attempt so far
had success. -/
def Attains (i : ι) (op : Operation κ) (s : State ι κ) : Prop :=
  ∃ made, s.running i = some (op, made) ∧ ∀ j k, op.addressed[j]? = some k →
    ∀ n, made j = n + 1 → (op.attempts j)[n]? = some true → s.held k = op.aim

variable {i : ι} {op : Operation κ}

theorem Step.attains (hstep : Step s event s') (h : Attains i op s) (hreturn : event ≠ .returned i)
    (hnot : ∀ k ∈ op.addressed, ¬event.Disturbs op.aim k) : Attains i op s' := by
  obtain ⟨made, hrunning, hheld⟩ := h
  have hstays : ∀ k, k ∈ op.addressed → s.held k = op.aim → s'.held k = op.aim :=
    fun k hmem hk => hstep.undisturbed hk (hnot k hmem)
  cases hstep with
  | call i' op' hidle =>
    have hne : i ≠ i' := by
      rintro rfl
      cases hrunning.symm.trans hidle
    exact ⟨made, (Function.update_of_ne hne _ _).trans hrunning, hheld⟩
  | @attempt i' op' made' j' k' ok after hrunning' hk' hok hmakes =>
    by_cases hi : i = i'
    · -- an attempt of its own: the last one so far at `k'`
      subst hi
      obtain ⟨rfl, rfl⟩ := Prod.mk.inj (Option.some.inj (hrunning'.symm.trans hrunning))
      refine ⟨_, Function.update_self i _ _, fun j k hk n hn hlast => ?_⟩
      by_cases hj : j = j'
      · subst hj
        obtain rfl := Option.some.inj (hk.symm.trans hk')
        rw [Function.update_self, Nat.add_right_cancel_iff] at hn
        rw [hn, hlast] at hok
        exact (Function.update_self k after s.held).trans (hmakes.2 (Option.some.inj hok).symm)
      · rw [Function.update_of_ne hj] at hn
        exact hstays k (List.mem_of_getElem? hk) (hheld j k hk n hn hlast)
    · exact ⟨made, (Function.update_of_ne hi _ _).trans hrunning, fun j k hk n hn hlast =>
        hstays k (List.mem_of_getElem? hk) (hheld j k hk n hn hlast)⟩
  | leave i' _ _ =>
    have hne : i ≠ i' := by
      rintro rfl
      exact hreturn rfl
    exact ⟨made, (Function.update_of_ne hne _ _).trans hrunning, hheld⟩
  | late | lose =>
    exact ⟨made, hrunning, fun j k hk n hn hlast =>
      hstays k (List.mem_of_getElem? hk) (hheld j k hk n hn hlast)⟩

theorem attains_of_trace (h : Trace Step s events s') (hs : Attains i op s)
    (hreturn : .returned i ∉ events)
    (hnot : ∀ event ∈ events, ∀ k ∈ op.addressed, ¬event.Disturbs op.aim k) : Attains i op s' := by
  induction events generalizing s with
  | nil => exact h ▸ hs
  | cons event events ih =>
    obtain ⟨s₁, hstep, hrest⟩ := h
    have hne : event ≠ .returned i := fun heq => hreturn (heq ▸ List.mem_cons_self)
    exact ih hrest (hstep.attains hs hne (hnot event List.mem_cons_self))
      (fun hmem => hreturn (List.mem_cons_of_mem _ hmem))
      fun event' hmem => hnot event' (List.mem_cons_of_mem _ hmem)

theorem Attains.of_returned (h : Attains i op s) (hstep : Step s (.returned i) s')
    (hok : op.ok = true) : ∀ k ∈ op.addressed, s'.held k = op.aim := by
  obtain ⟨made, hrunning, hheld⟩ := h
  cases hstep with
  | leave _ hrunning' hall =>
    obtain ⟨rfl, rfl⟩ := Prod.mk.inj (Option.some.inj (hrunning.symm.trans hrunning'))
    intro k hmem
    obtain ⟨j, hk⟩ := List.mem_iff_getElem?.mp hmem
    have hj : j < op.addressed.length := (List.getElem?_eq_some_iff.mp hk).1
    have hlast := op.last_ok hok j hj
    rw [List.getLast?_eq_getElem?] at hlast
    have hlt := (List.getElem?_eq_some_iff.mp hlast).1
    exact hheld j k hk _ ((hall hok j hj).trans (Nat.sub_add_cancel (by omega)).symm) hlast

/-- **An operation that has returned with success has brought about what it was to**, and that stays
until something disturbs it. -/
theorem held_of_returned (h : Trace Step s (.called i op :: events) s')
    (hreturned : .returned i ∈ events) (hok : op.ok = true)
    (hnot : ∀ event ∈ events, ∀ k ∈ op.addressed, ¬event.Disturbs op.aim k) :
    ∀ k ∈ op.addressed, s'.held k = op.aim := by
  obtain ⟨s₁, hcall, hrest⟩ := h
  have hcalled : Attains i op s₁ := by
    cases hcall with
    | call =>
      refine ⟨fun _ => 0, Function.update_self i _ _, fun j k hk n hn => ?_⟩
      cases hn
  obtain ⟨front, back, rfl, hfirst⟩ := List.eq_append_cons_of_mem hreturned
  obtain ⟨s₂, hfront, s₃, hreturn, hback⟩ := Trace.append_iff.mp hrest
  have hattains := attains_of_trace hfront hcalled hfirst
    fun event hmem => hnot event (List.mem_append_left _ hmem)
  intro k hmem
  exact held_of_undisturbed hback (hattains.of_returned hreturn hok k hmem) fun event hevent =>
    hnot event (List.mem_append_right _ (List.mem_cons_of_mem _ hevent)) k hmem

/-! ### An operation on its own -/

/-- How many attempts are left at the first `n` holders. -/
def Operation.left (op : Operation κ) (made : Nat → Nat) : (n : Nat) → Nat
  | 0 => 0
  | n + 1 => op.left made n + ((op.attempts n).length - made n)

omit [DecidableEq κ] in
theorem Operation.left_update_of_le (op : Operation κ) (made : Nat → Nat) {j m n : Nat} (h : n ≤ j) :
    op.left (Function.update made j m) n = op.left made n := by
  induction n with
  | zero => rfl
  | succ n ih => rw [left, left, ih (by omega), Function.update_of_ne (by omega)]

omit [DecidableEq κ] in
theorem Operation.left_lt (op : Operation κ) {made : Nat → Nat} {j n : Nat} (hj : j < n)
    (hmade : made j < (op.attempts j).length) :
    op.left (Function.update made j (made j + 1)) n < op.left made n := by
  induction n with
  | zero => omega
  | succ n ih =>
    rw [left, left]
    by_cases hn : j = n
    · subst hn
      rw [left_update_of_le op made le_rfl, Function.update_self]
      omega
    · rw [Function.update_of_ne (Ne.symm hn)]
      have hlt := ih (by omega)
      omega

/-- The events are steps of one operation that was to bring about `aim`. -/
def Alone (i : ι) (aim : Bool) (events : List (Event ι κ)) : Prop :=
  ∀ event ∈ events, event = .returned i ∨ ∃ k, event = .attempted i k aim

theorem exists_alone {n : Nat} {made : Nat → Nat} (hrunning : s.running i = some (op, made))
    (hle : ∀ j, made j ≤ (op.attempts j).length)
    (hleft : op.left made op.addressed.length ≤ n) :
    ∃ events s', Trace Step s events s' ∧ .returned i ∈ events ∧ Alone i op.aim events ∧
      s'.running = Function.update s.running i none := by
  induction n generalizing s made with
  | zero =>
    have hall : op.ok = true → ∀ j < op.addressed.length, made j = (op.attempts j).length := by
      intro _ j hj
      by_contra hne
      have hlt := op.left_lt hj (Nat.lt_of_le_of_ne (hle j) hne)
      omega
    exact ⟨[.returned i], _, ⟨_, .leave i hrunning hall, rfl⟩, List.mem_singleton_self _,
      fun event hmem => .inl (List.mem_singleton.mp hmem), rfl⟩
  | succ n ih =>
    by_cases hall : ∀ j < op.addressed.length, made j = (op.attempts j).length
    · exact ⟨[.returned i], _, ⟨_, .leave i hrunning fun _ => hall, rfl⟩, List.mem_singleton_self _,
        fun event hmem => .inl (List.mem_singleton.mp hmem), rfl⟩
    · push Not at hall
      obtain ⟨j, hj, hne⟩ := hall
      have hmade : made j < (op.attempts j).length := Nat.lt_of_le_of_ne (hle j) hne
      have hlt := op.left_lt hj hmade
      have hle' : ∀ j', Function.update made j (made j + 1) j' ≤ (op.attempts j').length := by
        intro j'
        by_cases hj' : j' = j
        · subst hj'
          rw [Function.update_self]
          exact hmade
        · rw [Function.update_of_ne hj']
          exact hle j'
      obtain ⟨s₁, hstep, hrunning₁⟩ : ∃ s₁, Step s (.attempted i op.addressed[j] op.aim) s₁ ∧
          s₁.running = Function.update s.running i
            (some (op, Function.update made j (made j + 1))) :=
        ⟨_, .attempt i j op.aim hrunning (List.getElem?_eq_getElem hj)
          (List.getElem?_eq_getElem hmade) ⟨.inr rfl, fun _ => rfl⟩, rfl⟩
      obtain ⟨events, s', htrace, hreturned, halone, hrunning'⟩ :=
        ih (hrunning₁ ▸ Function.update_self ..) hle' (by omega)
      refine ⟨_ :: events, s', ⟨s₁, hstep, htrace⟩, List.mem_cons_of_mem _ hreturned, ?_, ?_⟩
      · intro event hmem
        rcases List.mem_cons.mp hmem with rfl | hmem
        · exact .inr ⟨_, rfl⟩
        · exact halone event hmem
      · rw [hrunning', hrunning₁, Function.update_idem]

theorem exists_returned (op : Operation κ) (hidle : s.running i = none) :
    ∃ events s', Trace Step s (.called i op :: events) s' ∧ .returned i ∈ events ∧
      Alone i op.aim events ∧ s'.running = s.running := by
  obtain ⟨s₁, hcall, hrunning⟩ : ∃ s₁, Step s (.called i op) s₁ ∧
      s₁.running = Function.update s.running i (some (op, fun _ => 0)) := ⟨_, .call i op hidle, rfl⟩
  obtain ⟨events, s', htrace, hreturned, halone, hrunning'⟩ :=
    exists_alone (hrunning ▸ Function.update_self ..) (fun _ => Nat.zero_le _) le_rfl
  refine ⟨events, s', ⟨s₁, hcall, htrace⟩, hreturned, halone, ?_⟩
  rw [hrunning', hrunning, Function.update_idem, ← hidle, Function.update_eq_self]

omit [DecidableEq ι] [DecidableEq κ] in
theorem Alone.undisturbed (h : Alone i aim events) : ∀ event ∈ events, ¬event.Disturbs aim k := by
  intro event hmem hdisturbs
  rcases h event hmem with rfl | ⟨k', rfl⟩
  · exact hdisturbs
  · exact hdisturbs.2 rfl

/-! ### Where the item can be -/

theorem Step.exists_running {made : Nat → Nat} (hstep : Step s event s')
    (hrunning : s'.running i = some (op, made)) :
    event = .called i op ∨ ∃ made, s.running i = some (op, made) := by
  cases hstep with
  | call i' op' hidle =>
    change Function.update s.running i' _ i = _ at hrunning
    by_cases hi : i = i'
    · subst hi
      rw [Function.update_self] at hrunning
      obtain ⟨rfl, -⟩ := Prod.mk.inj (Option.some.inj hrunning)
      exact .inl rfl
    · rw [Function.update_of_ne hi] at hrunning
      exact .inr ⟨made, hrunning⟩
  | attempt i' _ _ hrunning' =>
    change Function.update s.running i' _ i = _ at hrunning
    by_cases hi : i = i'
    · subst hi
      rw [Function.update_self] at hrunning
      obtain ⟨rfl, -⟩ := Prod.mk.inj (Option.some.inj hrunning)
      exact .inr ⟨_, hrunning'⟩
    · rw [Function.update_of_ne hi] at hrunning
      exact .inr ⟨made, hrunning⟩
  | leave i' =>
    change Function.update s.running i' _ i = _ at hrunning
    by_cases hi : i = i'
    · subst hi
      rw [Function.update_self] at hrunning
      cases hrunning
    · rw [Function.update_of_ne hi] at hrunning
      exact .inr ⟨made, hrunning⟩
  | late | lose => exact .inr ⟨made, hrunning⟩

theorem Step.mem_called (hstep : Step s event s') (h : op ∈ s'.called) :
    (∃ i, event = .called i op) ∨ op ∈ s.called := by
  cases hstep with
  | call i op' hidle =>
    rcases List.mem_cons.mp h with rfl | h
    · exact .inl ⟨i, rfl⟩
    · exact .inr h
  | attempt | leave | late | lose => exact .inr h

theorem Step.exists_put (hstep : Step s event s') (hheld : s'.held k = true) :
    s.held k = true ∨ ∃ op, ((∃ i made, s.running i = some (op, made)) ∨ op ∈ s.called) ∧
      op.aim = true ∧ k ∈ op.addressed := by
  cases hstep with
  | call | leave => exact .inl hheld
  | @attempt i op made j k' ok after hrunning hk hok hmakes =>
    change Function.update s.held k' after k = true at hheld
    by_cases hk' : k = k'
    · subst hk'
      rw [Function.update_self] at hheld
      rcases hmakes.1 with hbefore | haim
      · exact .inl (hbefore ▸ hheld)
      · exact .inr ⟨op, .inl ⟨i, made, hrunning⟩, haim ▸ hheld, List.mem_of_getElem? hk⟩
    · exact .inl ((Function.update_of_ne hk' _ _).symm.trans hheld)
  | @late op k' hcalled hk =>
    change Function.update s.held k' op.aim k = true at hheld
    by_cases hk' : k = k'
    · subst hk'
      rw [Function.update_self] at hheld
      exact .inr ⟨op, .inr hcalled, hheld, hk⟩
    · exact .inl ((Function.update_of_ne hk' _ _).symm.trans hheld)
  | lose k' =>
    change Function.update s.held k' false k = true at hheld
    by_cases hk' : k = k'
    · subst hk'
      rw [Function.update_self] at hheld
      cases hheld
    · exact .inl ((Function.update_of_ne hk' _ _).symm.trans hheld)

/-- The item is only in `bound`, and whoever has been called puts it nowhere else. -/
structure Bounded (bound : Set κ) (s : State ι κ) : Prop where
  held : ∀ k, s.held k = true → k ∈ bound
  running : ∀ i op made, s.running i = some (op, made) → op.aim = true →
    ∀ k ∈ op.addressed, k ∈ bound
  called : ∀ op ∈ s.called, op.aim = true → ∀ k ∈ op.addressed, k ∈ bound

variable {bound : Set κ}

omit [DecidableEq ι] [DecidableEq κ] in
theorem bounded_new : Bounded bound (State.new ι κ) :=
  ⟨fun _ => nofun, fun _ _ _ => nofun, nofun⟩

theorem Step.bounded (hstep : Step s event s') (h : Bounded bound s)
    (hcall : ∀ i op, event = .called i op → op.aim = true → ∀ k ∈ op.addressed, k ∈ bound) :
    Bounded bound s' where
  held k hheld := by
    rcases hstep.exists_put hheld with hbefore | ⟨op, ⟨i, made, hrunning⟩ | hcalled, haim, hmem⟩
    · exact h.held k hbefore
    · exact h.running i op made hrunning haim k hmem
    · exact h.called op hcalled haim k hmem
  running i op made hrunning := by
    rcases hstep.exists_running hrunning with hcalled | ⟨made', hbefore⟩
    · exact hcall i op hcalled
    · exact h.running i op made' hbefore
  called op hmem := by
    rcases hstep.mem_called hmem with ⟨i, heq⟩ | hbefore
    · exact hcall i op heq
    · exact h.called op hbefore

/-- **The item is only where it was addressed to.** -/
theorem held_bounded (h : Trace Step s events s') (hs : Bounded bound s)
    (hcalls : ∀ i op, .called i op ∈ events → op.aim = true → ∀ k ∈ op.addressed, k ∈ bound) :
    Bounded bound s' := by
  induction events generalizing s with
  | nil => exact h ▸ hs
  | cons event events ih =>
    obtain ⟨s₁, hstep, hrest⟩ := h
    refine ih hrest (hstep.bounded hs fun i op heq => hcalls i op (heq ▸ List.mem_cons_self)) ?_
    exact fun i op hmem => hcalls i op (List.mem_cons_of_mem _ hmem)

end DragonflySdk.Foundation.Holding
