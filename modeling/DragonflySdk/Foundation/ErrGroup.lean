import DragonflySdk.Foundation.Places
import DragonflySdk.Foundation.Trace
import Mathlib.Data.List.Nodup

/-!
# Groups of tasks that share a context

A main task makes a group with a context of its own, has it start `n` tasks, of which no more run at
once than a limit says, and waits for them. The first error that a task returns is kept, and the
context of the group is cancelled with it; so what a task comes to may depend on how that context has
ended by then (`Comes`). The context that the group was made with may end too, at any time.

In every run (`inv_of_trace`) the limit is kept, the tasks are begun in order, and the main task goes
on only when all have returned, each once (`Inv.once`). It returns no error just when no task did
(`Inv.returned_ok`); and the error it returns is the first that was noted, which a task came to in a
context that the group had not cancelled (`Inv.returned_error`). It comes to an end
(`length_le_of_trace`, `Inv.progress`).
-/

namespace DragonflySdk.Foundation.ErrGroup

/-- How far a task has come. -/
inductive Phase (ε : Type*)
  | running
  | returned (result : Except ε Unit)
  /-- an error is kept, unless another one was -/
  | noted (result : Except ε Unit)
  /-- its slot is free again -/
  | left (result : Except ε Unit)

/-- How far the main task has come. -/
inductive Main (ε : Type*)
  | starting | waiting
  | returned (result : Except ε Unit)

/-- The main task and the tasks that were started, in order. -/
structure State (κ ε : Type*) where
  main : Main ε
  tasks : List (Phase ε)
  /-- the first error -/
  err : Option ε
  /-- how the context that the group was made with has ended -/
  parent : Option κ
  /-- how the context of the group has ended -/
  ctx : Option κ

/-- What a step shows: that a task begins, returns, or has its result noted by the group. -/
inductive Event (ε : Type*)
  | began (i : Nat)
  | ended (i : Nat) (result : Except ε Unit)
  | noted (i : Nat) (result : Except ε Unit)
  | other

variable {κ ε : Type*}

namespace Event

def began? : Event ε → Option Nat
  | began i => some i
  | ended _ _ | noted _ _ | other => none

def ended? : Event ε → Option Nat
  | ended i _ => some i
  | began _ | noted _ _ | other => none

/-- The error that is noted. -/
def failure? : Event ε → Option ε
  | noted _ (.error err) => some err
  | began _ | ended _ _ | noted _ (.ok ()) | other => none

end Event

/-- The tasks that have begun, in order. -/
def begun (events : List (Event ε)) : List Nat := events.filterMap Event.began?

/-- The tasks that have returned, in order. -/
def ended (events : List (Event ε)) : List Nat := events.filterMap Event.ended?

/-- The errors that were noted, in order. -/
def failures (events : List (Event ε)) : List ε := events.filterMap Event.failure?

/-- The error that task `i` returned is noted before all others. -/
def First (events : List (Event ε)) (i : Nat) (err : ε) : Prop :=
  ∃ front back, events = front ++ .noted i (.error err) :: back ∧ failures front = [] ∧
    .ended i (.error err) ∈ front

namespace Phase

def result? : Phase ε → Option (Except ε Unit)
  | running => none
  | returned result | noted result | left result => some result

/-- It holds a slot. -/
def active : Phase ε → Bool
  | running | returned _ | noted _ => true
  | left _ => false

end Phase

namespace State

/-- A group that is made with a context. -/
def start (parent : Option κ) : State κ ε := ⟨.starting, [], none, parent, parent⟩

/-- How many slots are held. -/
def active (s : State κ ε) : Nat := s.tasks.countP Phase.active

/-- What a task has returned. -/
def came (s : State κ ε) (i : Nat) : Option (Except ε Unit) := s.tasks[i]?.bind Phase.result?

def put (s : State κ ε) (i : Nat) (phase : Phase ε) : State κ ε :=
  { s with tasks := s.tasks.set i phase }

/-- Keeps an error, and cancels the context with it, unless there was one before. -/
def keep (cause : ε → κ) (s : State κ ε) : Except ε Unit → State κ ε
  | .ok () => s
  | .error err =>
    match s.err with
    | some _ => s
    | none => { s with err := some err, ctx := s.ctx.or (some (cause err)) }

/-- What the main task returns once all tasks have. -/
def result (s : State κ ε) : Except ε Unit :=
  match s.err with
  | some err => .error err
  | none => .ok ()

end State

/-- One step, of the main task, of one of `n` tasks, or of the context the group was made with. -/
inductive Step (n : Nat) (limit : Option Nat) (cause : ε → κ)
    (Comes : Nat → Option κ → Except ε Unit → Prop) : State κ ε → Event ε → State κ ε → Prop
  | go {s} (hmain : s.main = .starting) (hlt : s.tasks.length < n)
      (hslot : ∀ l, limit = some l → s.active < l) :
      Step n limit cause Comes s (.began s.tasks.length) { s with tasks := s.tasks ++ [.running] }
  | wait {s} (hmain : s.main = .starting) (hall : s.tasks.length = n) :
      Step n limit cause Comes s .other { s with main := .waiting }
  | finish {s} (i : Nat) (result : Except ε Unit) (htask : s.tasks[i]? = some .running)
      (hcomes : Comes i s.ctx result) :
      Step n limit cause Comes s (.ended i result) (s.put i (.returned result))
  | note {s} (i : Nat) (result : Except ε Unit) (htask : s.tasks[i]? = some (.returned result)) :
      Step n limit cause Comes s (.noted i result) ((s.keep cause result).put i (.noted result))
  | leave {s} (i : Nat) (result : Except ε Unit) (htask : s.tasks[i]? = some (.noted result)) :
      Step n limit cause Comes s .other (s.put i (.left result))
  | done {s} (hmain : s.main = .waiting) (hall : ∀ phase ∈ s.tasks, phase.active = false) :
      Step n limit cause Comes s .other { s with main := .returned s.result }
  | parentEnds {s} (k : κ) (hparent : s.parent = none) :
      Step n limit cause Comes s .other { s with parent := some k, ctx := s.ctx.or (some k) }

/-- Task `i` comes to the result in a context that the group has not cancelled. -/
def Uncut (Comes : Nat → Option κ → Except ε Unit → Prop) (parent : Option κ) (i : Nat)
    (result : Except ε Unit) : Prop :=
  ∃ ended, (ended = none ∨ ended = parent) ∧ Comes i ended result

/-- What is known of a task that is this far, by the error that is kept. -/
structure Phase.Known (Comes : Nat → Option κ → Except ε Unit → Prop) (err : Option ε)
    (parent : Option κ) (i : Nat) (phase : Phase ε) : Prop where
  comes : ∀ result, phase.result? = some result → ∃ ended, Comes i ended result
  uncut : err = none → ∀ result, phase.result? = some result → Uncut Comes parent i result
  ok : err = none → ∀ result, phase = .noted result ∨ phase = .left result → result = .ok ()

/-- What is known of the main task when it is this far. -/
def Main.Known (n : Nat) (tasks : List (Phase ε)) (err : Option ε) : Main ε → Prop
  | starting => True
  | waiting => tasks.length = n
  | returned result => tasks.length = n ∧ (∀ phase ∈ tasks, phase.active = false) ∧
      result = match err with
        | some err => .error err
        | none => .ok ()

/-- What is known of the error that is kept: a task returned it, and it was noted first. -/
structure Kept (Comes : Nat → Option κ → Except ε Unit → Prop) (events : List (Event ε))
    (s : State κ ε) (i : Nat) (err : ε) : Prop where
  first : First events i err
  came : s.came i = some (.error err)
  uncut : Uncut Comes s.parent i (.error err)

/-- What holds of a state and of what was shown on the way to it. -/
structure Inv (n : Nat) (limit : Option Nat) (Comes : Nat → Option κ → Except ε Unit → Prop)
    (events : List (Event ε)) (s : State κ ε) : Prop where
  length_le : s.tasks.length ≤ n
  limited : ∀ l, limit = some l → s.active ≤ l
  begun_eq : begun events = List.range s.tasks.length
  ended_nodup : (ended events).Nodup
  ended_iff : ∀ i result, .ended i result ∈ events ↔ s.came i = some result
  tasks : ∀ i (phase : Phase ε), s.tasks[i]? = some phase → phase.Known Comes s.err s.parent i
  unkept : s.err = none → s.ctx = s.parent ∧ failures events = []
  kept : ∀ err, s.err = some err → s.ctx.isSome = true ∧ ∃ i, Kept Comes events s i err
  main : s.main.Known n s.tasks s.err

variable {n : Nat} {limit : Option Nat} {cause : ε → κ}
  {Comes : Nat → Option κ → Except ε Unit → Prop} {events : List (Event ε)} {s s' : State κ ε}
  {event : Event ε} {i : Nat} {old new : Phase ε} {err : ε} {result : Except ε Unit}

/-! ### What is shown -/

@[simp] theorem begun_concat : begun (events ++ [event]) = begun events ++ event.began?.toList :=
  filterMap_concat _ _ _

@[simp] theorem ended_concat : ended (events ++ [event]) = ended events ++ event.ended?.toList :=
  filterMap_concat _ _ _

@[simp] theorem failures_concat :
    failures (events ++ [event]) = failures events ++ event.failure?.toList :=
  filterMap_concat _ _ _

@[simp] theorem began?_other : (Event.other : Event ε).began?.toList = [] := rfl

@[simp] theorem began?_began : (Event.began i : Event ε).began?.toList = [i] := rfl

@[simp] theorem began?_ended : (Event.ended i result).began?.toList = [] := rfl

@[simp] theorem began?_noted : (Event.noted i result).began?.toList = [] := rfl

@[simp] theorem ended?_other : (Event.other : Event ε).ended?.toList = [] := rfl

@[simp] theorem ended?_began : (Event.began i : Event ε).ended?.toList = [] := rfl

@[simp] theorem ended?_ended : (Event.ended i result).ended?.toList = [i] := rfl

@[simp] theorem ended?_noted : (Event.noted i result).ended?.toList = [] := rfl

theorem ended?_eq_none (h : ∀ i result, .ended i result ≠ event) : event.ended? = none := by
  cases event with
  | ended i result => exact absurd rfl (h i result)
  | began _ | noted _ _ | other => rfl

theorem mem_ended : i ∈ ended events ↔ ∃ result, .ended i result ∈ events := by
  unfold ended
  rw [List.mem_filterMap]
  constructor
  · rintro ⟨event, hmem, hevent⟩
    cases event with
    | ended j result =>
      obtain rfl := Option.some.inj hevent
      exact ⟨result, hmem⟩
    | began _ | noted _ _ | other => cases hevent
  · rintro ⟨result, hmem⟩
    exact ⟨_, hmem, rfl⟩

theorem First.concat (h : First events i err) (event : Event ε) :
    First (events ++ [event]) i err := by
  obtain ⟨front, back, rfl, hfront, hended⟩ := h
  exact ⟨front, back ++ [event], by rw [List.append_assoc, List.cons_append], hfront, hended⟩

/-! ### Moving a task -/

theorem came_put (htask : s.tasks[i]? = some old) (new : Phase ε) (j : Nat) :
    (s.put i new).came j = if j = i then new.result? else s.came j := by
  obtain ⟨hi, _⟩ := List.getElem?_eq_some_iff.mp htask
  show (s.tasks.set i new)[j]?.bind Phase.result? = _
  split_ifs with hij
  · rw [hij, List.getElem?_set_self hi]
    rfl
  · rw [List.getElem?_set_ne (Ne.symm hij)]
    rfl

theorem came_put_same (htask : s.tasks[i]? = some old) (hresult : old.result? = new.result?)
    (j : Nat) : (s.put i new).came j = s.came j := by
  rw [came_put htask]
  split_ifs with hij
  · rw [hij, State.came, htask, ← hresult]
    rfl
  · rfl

theorem active_put (htask : s.tasks[i]? = some old) (hle : new.active = true → old.active = true) :
    (s.put i new).active ≤ s.active := by
  obtain ⟨hi, hold⟩ := List.getElem?_eq_some_iff.mp htask
  have hset := List.countP_set (p := Phase.active) (a := new) hi
  have hmem : old.active = true → 0 < s.tasks.countP Phase.active := fun hactive =>
    List.countP_pos_iff.mpr ⟨old, List.mem_of_getElem? htask, hactive⟩
  rw [hold] at hset
  unfold State.active State.put
  rw [hset]
  by_cases hnew : new.active = true
  · have hpos := hmem (hle hnew)
    rw [if_pos hnew, if_pos (hle hnew)]
    omega
  · rw [if_neg hnew]
    omega

/-! ### What is known stays known -/

theorem Uncut.parentEnds {result : Except ε Unit} (h : Uncut Comes none i result) (k : κ) :
    Uncut Comes (some k) i result := by
  obtain ⟨ended, hended, hcomes⟩ := h
  exact ⟨ended, .inl (hended.elim id id), hcomes⟩

theorem Phase.Known.parentEnds {err : Option ε} {phase : Phase ε}
    (h : phase.Known Comes err none i) (k : κ) : phase.Known Comes err (some k) i where
  comes := h.comes
  uncut hnone result hresult := (h.uncut hnone result hresult).parentEnds k
  ok := h.ok

theorem Phase.Known.kept {parent : Option κ} {err : Option ε} {phase : Phase ε}
    (h : phase.Known Comes err parent i) (first : ε) :
    phase.Known Comes (some first) parent i where
  comes := h.comes
  uncut hnone := by cases hnone
  ok hnone := by cases hnone

theorem Main.Known.of_active {tasks : List (Phase ε)} {err err' : Option ε} {main : Main ε}
    (h : main.Known n tasks err) (htask : tasks[i]? = some old) (hactive : old.active = true)
    (new : Phase ε) : main.Known n (tasks.set i new) err' := by
  cases main with
  | starting => trivial
  | waiting =>
    show (tasks.set i new).length = n
    rw [List.length_set]
    exact h
  | returned result =>
    have hleft := h.2.1 old (List.mem_of_getElem? htask)
    rw [hactive] at hleft
    cases hleft

/-! ### Steps -/

/-- What shows that no task begins or ends, nor the first failure. -/
theorem Inv.quiet (h : Inv n limit Comes events s) (hbegan : event.began? = none)
    (hended : ∀ i result, .ended i result ≠ event)
    (hfailure : s.err = none → event.failure? = none) :
    Inv n limit Comes (events ++ [event]) s where
  length_le := h.length_le
  limited := h.limited
  begun_eq := by
    rw [begun_concat, hbegan, Option.toList_none, List.append_nil]
    exact h.begun_eq
  ended_nodup := by
    rw [ended_concat, ended?_eq_none hended, Option.toList_none, List.append_nil]
    exact h.ended_nodup
  ended_iff i result := by
    rw [List.mem_append, List.mem_singleton, or_iff_left (hended i result)]
    exact h.ended_iff i result
  tasks := h.tasks
  unkept hnone := by
    rw [failures_concat, (h.unkept hnone).2, hfailure hnone]
    exact ⟨(h.unkept hnone).1, rfl⟩
  kept err herr := by
    obtain ⟨hctx, i, hkept⟩ := h.kept err herr
    exact ⟨hctx, i, hkept.first.concat _, hkept.came, hkept.uncut⟩
  main := h.main

theorem Inv.other (h : Inv n limit Comes events s) : Inv n limit Comes (events ++ [.other]) s :=
  h.quiet rfl nofun fun _ => rfl

theorem Inv.put (h : Inv n limit Comes events s) (htask : s.tasks[i]? = some old)
    (hactive : old.active = true) (hresult : old.result? = new.result?)
    (hnew : new.Known Comes s.err s.parent i) : Inv n limit Comes events (s.put i new) where
  length_le := by
    show (s.tasks.set i new).length ≤ n
    rw [List.length_set]
    exact h.length_le
  limited l hl := Nat.le_trans (active_put htask fun _ => hactive) (h.limited l hl)
  begun_eq := by
    show begun _ = List.range (s.tasks.set i new).length
    rw [List.length_set, h.begun_eq]
  ended_nodup := h.ended_nodup
  ended_iff j result := by
    rw [came_put_same htask hresult]
    exact h.ended_iff j result
  tasks := forall_set (P := fun j (phase : Phase ε) => phase.Known Comes s.err s.parent j)
    h.tasks hnew
  unkept := h.unkept
  kept err herr := by
    obtain ⟨hctx, j, hkept⟩ := h.kept err herr
    exact ⟨hctx, j, hkept.first, (came_put_same htask hresult j).trans hkept.came, hkept.uncut⟩
  main := h.main.of_active htask hactive new

theorem Inv.go (h : Inv n limit Comes events s) (hmain : s.main = .starting)
    (hlt : s.tasks.length < n) (hslot : ∀ l, limit = some l → s.active < l) :
    Inv n limit Comes (events ++ [.began s.tasks.length])
      { s with tasks := s.tasks ++ [.running] } := by
  have hcame : ∀ j, ({ s with tasks := s.tasks ++ [.running] } : State κ ε).came j = s.came j := by
    intro j
    show (s.tasks ++ [Phase.running])[j]?.bind Phase.result? = s.tasks[j]?.bind Phase.result?
    rcases Nat.lt_or_ge j s.tasks.length with hlt | hge
    · rw [List.getElem?_append_left hlt]
    · rw [List.getElem?_append_right hge, List.getElem?_eq_none hge]
      rcases j - s.tasks.length with _ | _ <;> rfl
  exact {
    length_le := by
      show (s.tasks ++ [Phase.running]).length ≤ n
      rw [List.length_append, List.length_singleton]
      exact hlt
    limited := fun l hl => by
      show (s.tasks ++ [Phase.running]).countP Phase.active ≤ l
      rw [List.countP_append]
      exact hslot l hl
    begun_eq := by
      show begun _ = List.range (s.tasks ++ [Phase.running]).length
      rw [begun_concat, h.begun_eq, List.length_append, List.length_singleton, List.range_succ,
        began?_began]
    ended_nodup := by
      rw [ended_concat, ended?_began, List.append_nil]
      exact h.ended_nodup
    ended_iff := fun j result => by
      rw [hcame, List.mem_append, List.mem_singleton, or_iff_left nofun]
      exact h.ended_iff j result
    tasks := fun j phase hphase => by
      rcases getElem?_concat_eq_some.mp hphase with hphase | ⟨_, rfl⟩
      · exact h.tasks j phase hphase
      · exact ⟨nofun, fun _ => nofun, fun _ _ hnoted => by rcases hnoted with h | h <;> cases h⟩
    unkept := fun hnone => by
      rw [failures_concat, (h.unkept hnone).2]
      exact ⟨(h.unkept hnone).1, rfl⟩
    kept := fun err herr => by
      obtain ⟨hctx, j, hkept⟩ := h.kept err herr
      exact ⟨hctx, j, hkept.first.concat _, (hcame j).trans hkept.came, hkept.uncut⟩
    main := by
      show s.main.Known n _ s.err
      rw [hmain]
      trivial }

theorem Inv.goto (h : Inv n limit Comes events s) (main : Main ε)
    (hmain : main.Known n s.tasks s.err) : Inv n limit Comes events { s with main := main } where
  length_le := h.length_le
  limited := h.limited
  begun_eq := h.begun_eq
  ended_nodup := h.ended_nodup
  ended_iff := h.ended_iff
  tasks := h.tasks
  unkept := h.unkept
  kept err herr := by
    obtain ⟨hctx, i, hkept⟩ := h.kept err herr
    exact ⟨hctx, i, hkept.first, hkept.came, hkept.uncut⟩
  main := hmain

theorem Inv.finish (h : Inv n limit Comes events s) (htask : s.tasks[i]? = some .running)
    (hcomes : Comes i s.ctx result) :
    Inv n limit Comes (events ++ [.ended i result]) (s.put i (.returned result)) := by
  have hrunning : s.came i = none := by
    rw [State.came, htask]
    rfl
  have hcame := came_put htask (.returned result)
  exact {
    length_le := by
      show (s.tasks.set i _).length ≤ n
      rw [List.length_set]
      exact h.length_le
    limited := fun l hl => Nat.le_trans (active_put htask fun _ => rfl) (h.limited l hl)
    begun_eq := by
      show begun _ = List.range (s.tasks.set i _).length
      rw [begun_concat, List.length_set, h.begun_eq, began?_ended, List.append_nil]
    ended_nodup := by
      rw [ended_concat, ended?_ended]
      refine List.nodup_append'.mpr ⟨h.ended_nodup, List.nodup_singleton i, fun j hj hji => ?_⟩
      obtain rfl := List.mem_singleton.mp hji
      obtain ⟨result', hmem⟩ := mem_ended.mp hj
      exact absurd (hrunning.symm.trans ((h.ended_iff j result').mp hmem)) nofun
    ended_iff := fun j result' => by
      rw [hcame, List.mem_append, List.mem_singleton, h.ended_iff]
      split_ifs with hij
      · subst hij
        rw [hrunning]
        constructor
        · rintro (hnone | heq)
          · cases hnone
          · obtain ⟨_, rfl⟩ := Event.ended.inj heq
            rfl
        · intro heq
          obtain rfl := Option.some.inj heq
          exact .inr rfl
      · exact or_iff_left fun heq => hij (Event.ended.inj heq).1
    tasks := by
      refine forall_set (P := fun j (phase : Phase ε) => phase.Known Comes s.err s.parent j)
        h.tasks ⟨fun _ hresult => ?_, fun hnone _ hresult => ?_, fun _ _ hnoted => ?_⟩
      · obtain rfl := Option.some.inj hresult
        exact ⟨_, hcomes⟩
      · -- the group has cancelled nothing yet
        obtain rfl := Option.some.inj hresult
        exact ⟨s.ctx, .inr (h.unkept hnone).1, hcomes⟩
      · rcases hnoted with h | h <;> cases h
    unkept := fun hnone => by
      rw [failures_concat, (h.unkept hnone).2]
      exact ⟨(h.unkept hnone).1, rfl⟩
    kept := fun err herr => by
      obtain ⟨hctx, j, hkept⟩ := h.kept err herr
      have hij : j ≠ i := by
        rintro rfl
        exact absurd (hrunning.symm.trans hkept.came) nofun
      refine ⟨hctx, j, hkept.first.concat _, ?_, hkept.uncut⟩
      rw [hcame, if_neg hij]
      exact hkept.came
    main := h.main.of_active htask rfl _ }

theorem Inv.parentEnds (h : Inv n limit Comes events s) (k : κ) (hparent : s.parent = none) :
    Inv n limit Comes events { s with parent := some k, ctx := s.ctx.or (some k) } where
  length_le := h.length_le
  limited := h.limited
  begun_eq := h.begun_eq
  ended_nodup := h.ended_nodup
  ended_iff := h.ended_iff
  tasks j phase hphase := by
    have hknown := h.tasks j phase hphase
    rw [hparent] at hknown
    exact hknown.parentEnds k
  unkept hnone := by
    refine ⟨?_, (h.unkept hnone).2⟩
    show s.ctx.or (some k) = some k
    rw [(h.unkept hnone).1, hparent]
    rfl
  kept err herr := by
    obtain ⟨hctx, j, hkept⟩ := h.kept err herr
    have hcut := hkept.uncut
    rw [hparent] at hcut
    refine ⟨?_, j, hkept.first, hkept.came, hcut.parentEnds k⟩
    show (s.ctx.or (some k)).isSome = true
    rw [Option.isSome_or, hctx, Bool.true_or]
  main := h.main

theorem Inv.keepFirst (h : Inv n limit Comes events s)
    (htask : s.tasks[i]? = some (.returned (.error err))) (hnone : s.err = none) (cause : κ) :
    Inv n limit Comes (events ++ [.noted i (.error err)])
      { s with err := some err, ctx := s.ctx.or (some cause) } where
  length_le := h.length_le
  limited := h.limited
  begun_eq := by
    rw [begun_concat, began?_noted, List.append_nil]
    exact h.begun_eq
  ended_nodup := by
    rw [ended_concat, ended?_noted, List.append_nil]
    exact h.ended_nodup
  ended_iff j result := by
    rw [List.mem_append, List.mem_singleton, or_iff_left nofun]
    exact h.ended_iff j result
  tasks j phase hphase := (h.tasks j phase hphase).kept err
  unkept := nofun
  kept err' herr' := by
    obtain rfl := Option.some.inj herr'
    have hcame : s.came i = some (.error err) := by
      rw [State.came, htask]
      rfl
    refine ⟨?_, i, ⟨events, [], rfl, (h.unkept hnone).2, (h.ended_iff i _).mpr hcame⟩, hcame,
      (h.tasks i _ htask).uncut hnone _ rfl⟩
    show (s.ctx.or (some cause)).isSome = true
    rw [Option.isSome_or, Option.isSome_some, Bool.or_true]
  main := by
    have hmain := h.main
    show s.main.Known n s.tasks (some err)
    cases hphase : s.main with
    | starting => trivial
    | waiting =>
      rw [hphase] at hmain
      exact hmain
    | returned _ =>
      rw [hphase] at hmain
      cases hmain.2.1 _ (List.mem_of_getElem? htask)

theorem Inv.keep (h : Inv n limit Comes events s)
    (htask : s.tasks[i]? = some (.returned result)) :
    Inv n limit Comes (events ++ [.noted i result]) (s.keep cause result) := by
  rcases result with err | _
  · rcases hnone : s.err with _ | first
    · have hkeep : s.keep cause (.error err) =
          { s with err := some err, ctx := s.ctx.or (some (cause err)) } := by
        rw [State.keep, hnone]
      rw [hkeep]
      exact h.keepFirst htask hnone (cause err)
    · have hkeep : s.keep cause (.error err) = s := by
        rw [State.keep, hnone]
      rw [hkeep]
      exact h.quiet rfl nofun fun hnone' => absurd (hnone.symm.trans hnone') nofun
  · exact h.quiet rfl nofun fun _ => rfl

theorem State.keep_tasks (s : State κ ε) (result : Except ε Unit) :
    (s.keep cause result).tasks = s.tasks := by
  unfold keep
  rcases result with err | _
  · rcases s.err with _ | first <;> rfl
  · rfl

theorem State.keep_err {s : State κ ε} {result : Except ε Unit}
    (h : (s.keep cause result).err = none) : result = .ok () := by
  rcases result with err | _
  · unfold keep at h
    rcases hnone : s.err with _ | first
    · rw [hnone] at h
      cases h
    · rw [hnone] at h
      exact absurd (hnone.symm.trans h) nofun
  · rfl

theorem Step.inv (hstep : Step n limit cause Comes s event s') (h : Inv n limit Comes events s) :
    Inv n limit Comes (events ++ [event]) s' := by
  cases hstep with
  | go hmain hlt hslot => exact h.go hmain hlt hslot
  | wait hmain hall => exact (h.goto .waiting hall).other
  | finish i result htask hcomes => exact h.finish htask hcomes
  | note i result htask =>
    have hkept : Inv n limit Comes _ (s.keep cause result) := h.keep htask
    have htask' : (s.keep cause result).tasks[i]? = some (.returned result) := by
      rwa [State.keep_tasks]
    have hknown := hkept.tasks i _ htask'
    refine hkept.put htask' rfl rfl ⟨hknown.comes, hknown.uncut, fun hnone result' hnoted => ?_⟩
    rcases hnoted with h | h <;> cases h
    exact State.keep_err hnone
  | leave i result htask =>
    have hknown := h.tasks i _ htask
    have hleft : (Phase.left result).Known Comes s.err s.parent i := by
      refine ⟨hknown.comes, hknown.uncut, fun hnone result' hleft => ?_⟩
      rcases hleft with h | h <;> cases h
      exact hknown.ok hnone _ (.inl rfl)
    have hput : Inv n limit Comes events (s.put i (.left result)) := h.put htask rfl rfl hleft
    exact hput.other
  | done hmain hall =>
    have hwaiting := h.main
    rw [hmain] at hwaiting
    exact (h.goto (.returned s.result) ⟨hwaiting, hall, rfl⟩).other
  | parentEnds k hparent => exact (h.parentEnds k hparent).other

theorem inv_start (parent : Option κ) :
    Inv n limit Comes [] (State.start parent : State κ ε) where
  length_le := Nat.zero_le n
  limited _ _ := Nat.zero_le _
  begun_eq := rfl
  ended_nodup := List.nodup_nil
  ended_iff _ _ := ⟨nofun, nofun⟩
  tasks _ _ h := nomatch h
  unkept _ := ⟨rfl, rfl⟩
  kept _ h := nomatch h
  main := trivial

/-- **In every run** the limit is kept, each task begins and returns once, and the error that is kept
is the first, which the group is not the cause of. -/
theorem inv_of_trace {parent : Option κ}
    (h : Trace (Step n limit cause Comes) (State.start parent) events s) :
    Inv n limit Comes events s :=
  h.keeps (inv_start parent) fun _ _ _ _ hinv hstep => hstep.inv hinv

/-! ### What the main task returns -/

section
variable {result : Except ε Unit} (h : Inv n limit Comes events s)
  (hmain : s.main = .returned result)
include h hmain

theorem Inv.known_returned : s.tasks.length = n ∧
    (∀ phase ∈ s.tasks, phase.active = false) ∧ result = s.result := by
  have hknown := h.main
  rw [hmain] at hknown
  exact hknown

theorem Inv.once : begun events = List.range n ∧ (ended events).Perm (List.range n) := by
  obtain ⟨hlength, hleft, _⟩ := h.known_returned hmain
  refine ⟨hlength ▸ h.begun_eq, ?_⟩
  refine (List.perm_ext_iff_of_nodup h.ended_nodup List.nodup_range).mpr fun j => ?_
  simp only [mem_ended, h.ended_iff, List.mem_range, ← hlength]
  constructor
  · rintro ⟨result, hcame⟩
    obtain ⟨phase, hphase, _⟩ := Option.bind_eq_some_iff.mp hcame
    exact (List.getElem?_eq_some_iff.mp hphase).1
  · intro hj
    have hactive := hleft _ (List.getElem_mem hj)
    cases hphase : s.tasks[j] with
    | left result =>
      refine ⟨result, ?_⟩
      rw [State.came, List.getElem?_eq_getElem hj, hphase]
      rfl
    | running | returned _ | noted _ =>
      rw [hphase] at hactive
      cases hactive

theorem Inv.exists_left {j : Nat} (hj : j < n) : ∃ result, s.tasks[j]? = some (.left result) := by
  obtain ⟨hlength, hleft, _⟩ := h.known_returned hmain
  rw [← hlength] at hj
  have hactive := hleft _ (List.getElem_mem hj)
  rw [List.getElem?_eq_getElem hj]
  cases hphase : s.tasks[j] with
  | left result => exact ⟨result, rfl⟩
  | running | returned _ | noted _ =>
    rw [hphase] at hactive
    cases hactive

end

theorem Inv.returned_ok (h : Inv n limit Comes events s) (hmain : s.main = .returned (.ok ()))
    {j : Nat} (hj : j < n) :
    s.tasks[j]? = some (.left (.ok ())) ∧ Uncut Comes s.parent j (.ok ()) := by
  have hnone : s.err = none := by
    have hresult := (h.known_returned hmain).2.2
    unfold State.result at hresult
    rcases herr : s.err with _ | err
    · rfl
    · rw [herr] at hresult
      cases hresult
  obtain ⟨result, htask⟩ := h.exists_left hmain hj
  have hknown := h.tasks j _ htask
  obtain rfl := hknown.ok hnone result (.inr rfl)
  exact ⟨htask, hknown.uncut hnone _ rfl⟩

/-- **The error is the first that was noted**, and that of a task the group had not cancelled. -/
theorem Inv.returned_error (h : Inv n limit Comes events s)
    (hmain : s.main = .returned (.error err)) : ∃ j < n, Kept Comes events s j err := by
  obtain ⟨hlength, _, hresult⟩ := h.known_returned hmain
  unfold State.result at hresult
  rcases herr : s.err with _ | err'
  · rw [herr] at hresult
    cases hresult
  · rw [herr] at hresult
    obtain rfl := Except.error.inj hresult
    obtain ⟨_, j, hkept⟩ := h.kept err herr
    obtain ⟨phase, hphase, _⟩ := Option.bind_eq_some_iff.mp hkept.came
    exact ⟨j, hlength ▸ (List.getElem?_eq_some_iff.mp hphase).1, hkept⟩

theorem Inv.ok_iff (h : Inv n limit Comes events s) (hmain : s.main = .returned result) :
    result = .ok () ↔ ∀ j < n, s.tasks[j]? = some (.left (.ok ())) := by
  constructor
  · rintro rfl j hj
    exact (h.returned_ok hmain hj).1
  · intro hall
    rcases result with err | _
    · obtain ⟨j, hj, hkept⟩ := h.returned_error hmain
      have hcame := hkept.came
      rw [State.came, hall j hj] at hcame
      cases hcame
    · rfl

/-! ### The end -/

/-- How many steps a task can still make. -/
def Phase.stepsLeft : Phase ε → Nat
  | running => 3
  | returned _ => 2
  | noted _ => 1
  | left _ => 0

def Main.stepsLeft : Main ε → Nat
  | starting => 2
  | waiting => 1
  | returned _ => 0

def State.stepsLeft (n : Nat) (s : State κ ε) : Nat :=
  s.main.stepsLeft + 4 * (n - s.tasks.length) + (s.tasks.map Phase.stepsLeft).sum +
    if s.parent.isNone then 1 else 0

theorem stepsLeft_put (htask : s.tasks[i]? = some old) (new : Phase ε) :
    (s.put i new).stepsLeft n + old.stepsLeft = s.stepsLeft n + new.stepsLeft := by
  have hsum := sum_map_set Phase.stepsLeft htask new
  show s.main.stepsLeft + 4 * (n - (s.tasks.set i new).length) +
    ((s.tasks.set i new).map Phase.stepsLeft).sum + (if s.parent.isNone then 1 else 0) +
      old.stepsLeft =
    s.main.stepsLeft + 4 * (n - s.tasks.length) + (s.tasks.map Phase.stepsLeft).sum +
      (if s.parent.isNone then 1 else 0) + new.stepsLeft
  rw [List.length_set]
  omega

theorem stepsLeft_keep (result : Except ε Unit) :
    (s.keep cause result).stepsLeft n = s.stepsLeft n := by
  unfold State.keep
  rcases result with err | _
  · rcases s.err with _ | first <;> rfl
  · rfl

theorem Step.stepsLeft_lt (hstep : Step n limit cause Comes s event s') :
    s'.stepsLeft n < s.stepsLeft n := by
  have hgoto : ∀ main : Main ε, main.stepsLeft < s.main.stepsLeft →
      State.stepsLeft n { s with main := main } < s.stepsLeft n := by
    intro main hlt
    exact Nat.add_lt_add_right (Nat.add_lt_add_right (Nat.add_lt_add_right hlt _) _) _
  cases hstep with
  | go hmain hlt hslot =>
    show s.main.stepsLeft + 4 * (n - (s.tasks ++ [Phase.running]).length) +
      ((s.tasks ++ [Phase.running]).map Phase.stepsLeft).sum + (if s.parent.isNone then 1 else 0) <
        s.main.stepsLeft + 4 * (n - s.tasks.length) + (s.tasks.map Phase.stepsLeft).sum +
          if s.parent.isNone then 1 else 0
    rw [List.length_append, List.length_singleton, List.map_append, List.sum_append,
      List.map_singleton, List.sum_singleton]
    have hrunning : (Phase.running : Phase ε).stepsLeft = 3 := rfl
    omega
  | wait hmain hall => exact hgoto _ (by simp [hmain, Main.stepsLeft])
  | finish i result htask hcomes =>
    have hput := stepsLeft_put (n := n) htask (.returned result)
    have hold : (Phase.running : Phase ε).stepsLeft = 3 := rfl
    have hnew : (Phase.returned result).stepsLeft = 2 := rfl
    omega
  | note i result htask =>
    have htask' : (s.keep cause result).tasks[i]? = some (.returned result) := by
      rwa [State.keep_tasks]
    have hput := stepsLeft_put (n := n) htask' (.noted result)
    rw [stepsLeft_keep] at hput
    have hold : (Phase.returned result).stepsLeft = 2 := rfl
    have hnew : (Phase.noted result).stepsLeft = 1 := rfl
    omega
  | leave i result htask =>
    have hput := stepsLeft_put (n := n) htask (.left result)
    have hold : (Phase.noted result).stepsLeft = 1 := rfl
    have hnew : (Phase.left result).stepsLeft = 0 := rfl
    omega
  | done hmain hall => exact hgoto _ (by simp [hmain, Main.stepsLeft])
  | parentEnds k hparent =>
    show s.main.stepsLeft + 4 * (n - s.tasks.length) + (s.tasks.map Phase.stepsLeft).sum + 0 <
      s.main.stepsLeft + 4 * (n - s.tasks.length) + (s.tasks.map Phase.stepsLeft).sum +
        if s.parent.isNone then 1 else 0
    rw [hparent]
    exact Nat.lt_succ_self _

/-- No run is longer than four steps for each task, and three. -/
theorem length_le_of_trace {parent : Option κ}
    (h : Trace (Step n limit cause Comes) (State.start parent) events s) :
    events.length ≤ 4 * n + 3 := by
  have hle := h.length_le fun _ _ _ hstep => hstep.stepsLeft_lt
  have hstart : (State.start parent : State κ ε).stepsLeft n ≤ 4 * n + 3 := by
    show 2 + 4 * n + 0 + (if parent.isNone then 1 else 0) ≤ 4 * n + 3
    split <;> omega
  exact Nat.le_trans hle hstart

/-- **The main task gets on**: until it has returned, there is a step of it or of a task, if the
tasks come to something in every context. -/
theorem Inv.progress (h : Inv n limit Comes events s) (hlimit : limit ≠ some 0)
    (hcomes : ∀ i < n, ∀ ended, ∃ result, Comes i ended result) :
    (∃ event s', Step n limit cause Comes s event s' ∧ s'.parent = s.parent) ∨
      ∃ result, s.main = .returned result := by
  -- a task that holds a slot has a step
  have hactive : ∀ phase ∈ s.tasks, phase.active = true →
      ∃ event s', Step n limit cause Comes s event s' ∧ s'.parent = s.parent := by
    intro phase hmem hphase
    obtain ⟨i, htask⟩ := List.mem_iff_getElem?.mp hmem
    cases phase with
    | running =>
      have hi := (List.getElem?_eq_some_iff.mp htask).1
      obtain ⟨result, hresult⟩ := hcomes i (Nat.lt_of_lt_of_le hi h.length_le) s.ctx
      exact ⟨_, _, .finish i result htask hresult, rfl⟩
    | returned result =>
      refine ⟨_, _, .note i result htask, ?_⟩
      show (s.keep cause result).parent = s.parent
      unfold State.keep
      rcases result with err | _
      · rcases s.err with _ | first <;> rfl
      · rfl
    | noted result => exact ⟨_, _, .leave i result htask, rfl⟩
    | left result => cases hphase
  rcases hmain : s.main with _ | _ | result
  · left
    rcases Nat.lt_or_ge s.tasks.length n with hlt | hge
    · by_cases hslot : ∀ l, limit = some l → s.active < l
      · exact ⟨_, _, .go hmain hlt hslot, rfl⟩
      · -- all slots are held
        push Not at hslot
        obtain ⟨l, rfl, hle⟩ := hslot
        have hpos : 0 < s.tasks.countP Phase.active := by
          have hl : l ≠ 0 := fun hzero => hlimit (by rw [hzero])
          unfold State.active at hle
          omega
        obtain ⟨phase, hmem, hphase⟩ := List.countP_pos_iff.mp hpos
        exact hactive phase hmem hphase
    · exact ⟨_, _, .wait hmain (Nat.le_antisymm h.length_le hge), rfl⟩
  · left
    by_cases hall : ∀ phase ∈ s.tasks, phase.active = false
    · exact ⟨_, _, .done hmain hall, rfl⟩
    · push Not at hall
      obtain ⟨phase, hmem, hphase⟩ := hall
      exact hactive phase hmem (by simpa using hphase)
  · exact .inr ⟨result, rfl⟩

/-- Whatever context the group is made with, there is a run to its end in which that context does
not end meanwhile. -/
theorem exists_returned (n : Nat) (cause : ε → κ) (hlimit : limit ≠ some 0)
    (hcomes : ∀ i < n, ∀ ended, ∃ result, Comes i ended result) (parent : Option κ) :
    ∃ events s result, Trace (Step n limit cause Comes) (State.start parent) events s ∧
      s.main = .returned result ∧ s.parent = parent := by
  have hnext : ∀ events (s : State κ ε),
      Trace (Step n limit cause Comes) (State.start parent) events s →
      (∃ event s', Step n limit cause Comes s event s' ∧ s'.parent = s.parent) ∨
        ∃ result, s.main = .returned result :=
    fun events s htrace => (inv_of_trace htrace).progress hlimit hcomes
  have hgo : ∀ left events (s : State κ ε), s.stepsLeft n ≤ left →
      Trace (Step n limit cause Comes) (State.start parent) events s → s.parent = parent →
      ∃ events s result, Trace (Step n limit cause Comes) (State.start parent) events s ∧
        s.main = .returned result ∧ s.parent = parent := by
    intro left
    induction left with
    | zero =>
      intro events s hleft htrace hparent
      rcases hnext events s htrace with ⟨event, s', hstep, _⟩ | ⟨result, hmain⟩
      · have hlt := hstep.stepsLeft_lt
        omega
      · exact ⟨events, s, result, htrace, hmain, hparent⟩
    | succ left ih =>
      intro events s hleft htrace hparent
      rcases hnext events s htrace with ⟨event, s', hstep, hsame⟩ | ⟨result, hmain⟩
      · have hlt := hstep.stepsLeft_lt
        exact ih (events ++ [event]) s' (by omega)
          (Trace.concat_iff.mpr ⟨s, htrace, hstep⟩) (hsame.trans hparent)
      · exact ⟨events, s, result, htrace, hmain, hparent⟩
  exact hgo _ [] (State.start parent) (Nat.le_refl _) rfl rfl

/-! ### What is awaited -/

/-- What a group of `n` tasks comes to, in every run, where `Done i` says that task `i` does what it
is for. -/
structure Awaits (n : Nat) (limit : Option Nat) (cause : ε → κ)
    (Comes : Nat → Option κ → Except ε Unit → Prop) (Done : Nat → Prop) : Prop where
  /-- no more tasks hold a slot than the limit says -/
  limited : ∀ parent events s, Trace (Step n limit cause Comes) (State.start parent) events s →
    ∀ l, limit = some l → s.active ≤ l
  /-- it gets on until it returns, after so many steps, if every task comes to something -/
  returns : (∀ i < n, ∀ ended, ∃ result, Comes i ended result) → ∀ parent events s,
    Trace (Step n limit cause Comes) (State.start parent) events s → events.length ≤ 4 * n + 3 ∧
      ((∃ event s', Step n limit cause Comes s event s' ∧ s'.parent = s.parent) ∨
        ∃ result, s.main = .returned result)
  /-- it returns only when each task has begun once, in order, and has returned -/
  once : ∀ parent events s result,
    Trace (Step n limit cause Comes) (State.start parent) events s → s.main = .returned result →
    begun events = List.range n ∧ (ended events).Perm (List.range n)
  /-- it succeeds just when none of them has failed -/
  ok_iff : ∀ parent events s result,
    Trace (Step n limit cause Comes) (State.start parent) events s → s.main = .returned result →
    (result = .ok () ↔ ∀ i < n, s.tasks[i]? = some (.left (.ok ())))
  /-- if it fails, then with the error that was noted first, and with what its task comes to when the
  group has not cancelled it -/
  failed : ∀ parent events s err, Trace (Step n limit cause Comes) (State.start parent) events s →
    s.main = .returned (.error err) →
    ∃ i < n, First events i err ∧ Uncut Comes s.parent i (.error err)
  /-- if it succeeds, all is done -/
  done : ∀ parent events s, Trace (Step n limit cause Comes) (State.start parent) events s →
    s.main = .returned (.ok ()) → ∀ i < n, Done i
  /-- and if all is, it succeeds, unless the context it was given ends -/
  succeeds : ∀ parent events s result,
    Trace (Step n limit cause Comes) (State.start parent) events s → s.main = .returned result →
    s.parent = none → (∀ i < n, Done i) → result = .ok ()

/-- **A group awaits its tasks**, when what a task is for can be told from what it comes to. -/
theorem awaits (n : Nat) (cause : ε → κ) {Done : Nat → Prop} (hlimit : limit ≠ some 0)
    (hdone : ∀ i < n, ∀ ended, Comes i ended (.ok ()) → Done i)
    (hsucceeds : ∀ i < n, ∀ result, Done i → Comes i none result → result = .ok ()) :
    Awaits n limit cause Comes Done where
  limited _ _ _ htrace := (inv_of_trace htrace).limited
  returns hcomes _ _ _ htrace :=
    ⟨length_le_of_trace htrace, (inv_of_trace htrace).progress hlimit hcomes⟩
  once _ _ _ _ htrace hmain := (inv_of_trace htrace).once hmain
  ok_iff _ _ _ _ htrace hmain := (inv_of_trace htrace).ok_iff hmain
  failed _ _ _ _ htrace hmain := by
    obtain ⟨i, hi, hkept⟩ := (inv_of_trace htrace).returned_error hmain
    exact ⟨i, hi, hkept.first, hkept.uncut⟩
  done _ _ _ htrace hmain i hi := by
    obtain ⟨_, ended, _, hcomes⟩ := (inv_of_trace htrace).returned_ok hmain hi
    exact hdone i hi ended hcomes
  succeeds _ _ s result htrace hmain hparent hall := by
    rcases result with err | _
    · obtain ⟨i, hi, hkept⟩ := (inv_of_trace htrace).returned_error hmain
      obtain ⟨ended, hended, hcomes⟩ := hkept.uncut
      have hnone : ended = none := by
        rcases hended with h | h
        · exact h
        · exact h.trans hparent
      rw [hnone] at hcomes
      exact hsucceeds i hi _ (hall i hi) hcomes
    · rfl

end DragonflySdk.Foundation.ErrGroup
