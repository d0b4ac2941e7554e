import DragonflySdk.Foundation.Trace
import Mathlib.Algebra.GroupWithZero.Nat
import Mathlib.Data.List.Basic

/-!
# Sets of tasks under a semaphore

A main task spawns a task for each of some requests, which runs while it holds a permit of a
semaphore, and joins the tasks as they finish; it returns at the first that came to an error, and the
tasks that are left are aborted then. Tasks get permits, finish and are joined in any order.

What is known of a run is one invariant (`inv_of_trace`): at no time do more tasks run than there are
permits, each task begins and ends once at most, with the request it was spawned for, and what the
main task returns is the error of a task, or that all came to a result. It comes to an end
(`length_le_of_trace`, `Inv.progress`), and if it returns no error, each request was run exactly once
(`Inv.once`).
-/

namespace DragonflySdk.Foundation.TaskSet

/-- How far a task has come, and with which result. -/
inductive Phase (ε : Type*)
  | waiting | running
  | finished (result : Except ε Unit)
  | joined (result : Except ε Unit)
  | aborted

/-- A task and the request it is for. -/
structure Task (ρ ε : Type*) where
  request : ρ
  phase : Phase ε

/-- How far the main task has come: spawning, what is still to be spawned. -/
inductive Main (ρ ε : Type*)
  | spawning (rest : List ρ)
  | joining
  | returned (result : Except ε Unit)
  | panicked

/-- The main task, the tasks that are spawned, in order, and the permits that are left. -/
structure State (ρ ε : Type*) where
  main : Main ρ ε
  tasks : List (Task ρ ε)
  permits : Nat

/-- What a step shows: that a task begins its request, or ends it. -/
inductive Event (ρ ε : Type*)
  | began (i : Nat) (request : ρ)
  | ended (i : Nat) (request : ρ) (result : Except ε Unit)
  | other

variable {ρ ε : Type*}

namespace Event

/-- The request the `i`-th task begins. -/
def began? (i : Nat) : Event ρ ε → Option ρ
  | began j request => if j = i then some request else none
  | ended _ _ _ | other => none

/-- The request the `i`-th task ends, and what it came to. -/
def ended? (i : Nat) : Event ρ ε → Option (ρ × Except ε Unit)
  | ended j request result => if j = i then some (request, result) else none
  | began _ _ | other => none

end Event

def Phase.isRunning : Phase ε → Bool
  | running => true
  | _ => false

namespace State

/-- A main task with a new semaphore, which panics if it is to have more permits than a semaphore
can. -/
def start (maxPermits limit : Nat) (requests : List ρ) : State ρ ε :=
  if limit ≤ maxPermits then ⟨.spawning requests, [], limit⟩ else ⟨.panicked, [], 0⟩

/-- How many tasks run. -/
def inProgress (s : State ρ ε) : Nat := s.tasks.countP fun task => task.phase.isRunning

/-- Puts a task into a phase, with so many permits left then. -/
def put (s : State ρ ε) (i : Nat) (task : Task ρ ε) (permits : Nat) : State ρ ε :=
  { s with tasks := s.tasks.set i task, permits := permits }

end State

/-- One step, of the main task or of a task; the `i`-th ends with what its request may come to. -/
inductive Step (Comes : Nat → ρ → Except ε Unit → Prop) :
    State ρ ε → Event ρ ε → State ρ ε → Prop
  | spawn {s} (request : ρ) (rest : List ρ) (hmain : s.main = .spawning (request :: rest)) :
      Step Comes s .other
        { s with main := .spawning rest, tasks := s.tasks ++ [⟨request, .waiting⟩] }
  | spawned {s} (hmain : s.main = .spawning []) : Step Comes s .other { s with main := .joining }
  | acquire {s} (i : Nat) (request : ρ) (htask : s.tasks[i]? = some ⟨request, .waiting⟩)
      (hpermit : 0 < s.permits) :
      Step Comes s (.began i request) (s.put i ⟨request, .running⟩ (s.permits - 1))
  | finish {s} (i : Nat) (request : ρ) (result : Except ε Unit)
      (htask : s.tasks[i]? = some ⟨request, .running⟩) (hcomes : Comes i request result) :
      Step Comes s (.ended i request result)
        (s.put i ⟨request, .finished result⟩ (s.permits + 1))
  | join {s} (i : Nat) (request : ρ) (hmain : s.main = .joining)
      (htask : s.tasks[i]? = some ⟨request, .finished (.ok ())⟩) :
      Step Comes s .other (s.put i ⟨request, .joined (.ok ())⟩ s.permits)
  | joinError {s} (i : Nat) (request : ρ) (err : ε) (hmain : s.main = .joining)
      (htask : s.tasks[i]? = some ⟨request, .finished (.error err)⟩) :
      Step Comes s .other
        { s.put i ⟨request, .joined (.error err)⟩ s.permits with main := .returned (.error err) }
  | done {s} (hmain : s.main = .joining)
      (hall : ∀ task ∈ s.tasks, task.phase = .joined (.ok ())) :
      Step Comes s .other { s with main := .returned (.ok ()) }
  | abortWaiting {s} {result : Except ε Unit} (i : Nat) (request : ρ)
      (hmain : s.main = .returned result) (htask : s.tasks[i]? = some ⟨request, .waiting⟩) :
      Step Comes s .other (s.put i ⟨request, .aborted⟩ s.permits)
  | abortRunning {s} {result : Except ε Unit} (i : Nat) (request : ρ)
      (hmain : s.main = .returned result) (htask : s.tasks[i]? = some ⟨request, .running⟩) :
      Step Comes s .other (s.put i ⟨request, .aborted⟩ (s.permits + 1))

/-- What was shown of a task, by how far it has come. -/
def Shown (Comes : ρ → Except ε Unit → Prop) :
    Option (Task ρ ε) → (began : List ρ) → (ended : List (ρ × Except ε Unit)) → Prop
  | none, began, ended | some ⟨_, .waiting⟩, began, ended => began = [] ∧ ended = []
  | some ⟨request, .running⟩, began, ended => began = [request] ∧ ended = []
  | some ⟨request, .finished result⟩, began, ended
  | some ⟨request, .joined result⟩, began, ended =>
    began = [request] ∧ ended = [(request, result)] ∧ Comes request result
  | some ⟨request, .aborted⟩, began, ended => (began = [] ∨ began = [request]) ∧ ended = []

/-- What is still to be spawned. -/
def Main.rest : Main ρ ε → List ρ
  | spawning rest => rest
  | joining | returned _ | panicked => []

/-- What is known of the tasks, by how far the main task has come. -/
def Main.Known (tasks : List (Task ρ ε)) : Main ρ ε → Prop
  | spawning _ | joining => ∀ task ∈ tasks, task.phase ≠ .aborted ∧
      ∀ err, task.phase ≠ .joined (.error err)
  | returned (.ok ()) => ∀ task ∈ tasks, task.phase = .joined (.ok ())
  | returned (.error err) => ∃ task ∈ tasks, task.phase = .joined (.error err)
  | panicked => False

/-- What holds of a state and of what was shown on the way to it. -/
structure Inv (requests : List ρ) (limit : Nat) (Comes : Nat → ρ → Except ε Unit → Prop)
    (events : List (Event ρ ε)) (s : State ρ ε) : Prop where
  requests_eq : s.tasks.map Task.request ++ s.main.rest = requests
  permits_eq : s.permits + s.inProgress = limit
  shown : ∀ i, Shown (Comes i) s.tasks[i]? (events.filterMap (Event.began? i))
    (events.filterMap (Event.ended? i))
  known : s.main.Known s.tasks

variable {requests : List ρ} {limit : Nat} {Comes : Nat → ρ → Except ε Unit → Prop}
  {events : List (Event ρ ε)} {s s' : State ρ ε} {event : Event ρ ε} {i : Nat} {request : ρ}
  {old new : Phase ε}

/-! ### Moving a task -/

theorem inProgress_put (htask : s.tasks[i]? = some ⟨request, old⟩) (permits : Nat) :
    (s.put i ⟨request, new⟩ permits).inProgress + (if old.isRunning then 1 else 0) =
      s.inProgress + if new.isRunning then 1 else 0 := by
  obtain ⟨hi, hold⟩ := List.getElem?_eq_some_iff.mp htask
  have hcount : (s.put i ⟨request, new⟩ permits).inProgress = s.inProgress -
      (if old.isRunning then 1 else 0) + if new.isRunning then 1 else 0 := by
    have hset := List.countP_set (p := fun task : Task ρ ε => task.phase.isRunning)
      (a := ⟨request, new⟩) hi
    rw [hold] at hset
    exact hset
  have hmem : old.isRunning = true → 0 < s.inProgress := fun hrunning =>
    List.countP_pos_iff.mpr ⟨_, List.mem_of_getElem? htask, hrunning⟩
  split at hcount <;> rename_i h
  · have hpos := hmem h
    rw [if_pos h]
    omega
  · rw [if_neg h]
    omega

theorem shown_put (permits : Nat)
    (hshown : ∀ j, Shown (Comes j) s.tasks[j]? (events.filterMap (Event.began? j))
      (events.filterMap (Event.ended? j)))
    (htask : s.tasks[i]? = some ⟨request, old⟩)
    (hmove : ∀ began ended, Shown (Comes i) (some ⟨request, old⟩) began ended →
      Shown (Comes i) (some ⟨request, new⟩) (began ++ (event.began? i).toList)
        (ended ++ (event.ended? i).toList))
    (hother : ∀ j, j ≠ i → event.began? j = none ∧ event.ended? j = none) (j : Nat) :
    Shown (Comes j) (s.put i ⟨request, new⟩ permits).tasks[j]?
      ((events ++ [event]).filterMap (Event.began? j))
      ((events ++ [event]).filterMap (Event.ended? j)) := by
  obtain ⟨hi, _⟩ := List.getElem?_eq_some_iff.mp htask
  rw [filterMap_concat, filterMap_concat, State.put]
  by_cases hj : j = i
  · subst hj
    rw [List.getElem?_set_self hi]
    have hbefore := hshown j
    rw [htask] at hbefore
    exact hmove _ _ hbefore
  · obtain ⟨hbegan, hended⟩ := hother j hj
    rw [List.getElem?_set_ne (Ne.symm hj), hbegan, hended, Option.toList_none, Option.toList_none,
      List.append_nil, List.append_nil]
    exact hshown j

theorem Main.Known.put {main : Main ρ ε} {tasks : List (Task ρ ε)} (h : main.Known tasks)
    (htask : tasks[i]? = some ⟨request, old⟩) (hold : ∀ result, old ≠ .joined result)
    (hnew : ∀ err, new ≠ .joined (.error err))
    (haborted : new = .aborted → ∃ result, main = .returned result) :
    main.Known (tasks.set i ⟨request, new⟩) := by
  have hrunning : (new = .aborted → False) →
      (∀ task ∈ tasks, task.phase ≠ .aborted ∧ ∀ err, task.phase ≠ .joined (.error err)) →
      ∀ task ∈ tasks.set i ⟨request, new⟩, task.phase ≠ .aborted ∧
        ∀ err, task.phase ≠ .joined (.error err) := by
    intro hne hall task hmem
    rcases List.mem_or_eq_of_mem_set hmem with hmem | rfl
    · exact hall task hmem
    · exact ⟨hne, hnew⟩
  match main, h with
  | .spawning _, h =>
    exact hrunning (fun heq => by obtain ⟨_, h⟩ := haborted heq; cases h) h
  | .joining, h =>
    exact hrunning (fun heq => by obtain ⟨_, h⟩ := haborted heq; cases h) h
  | .returned (.ok ()), h => exact absurd (h _ (List.mem_of_getElem? htask)) (hold _)
  | .returned (.error err), ⟨task, hmem, hjoined⟩ =>
    refine ⟨task, ?_, hjoined⟩
    obtain ⟨j, hj⟩ := List.mem_iff_getElem?.mp hmem
    by_cases hji : j = i
    · subst hji
      obtain rfl := Option.some.inj (hj.symm.trans htask)
      exact absurd hjoined (hold _)
    · exact List.mem_iff_getElem?.mpr ⟨j, by rwa [List.getElem?_set_ne (Ne.symm hji)]⟩

/-! ### Steps -/

theorem Inv.put {permits : Nat} {main : Main ρ ε} (h : Inv requests limit Comes events s)
    (htask : s.tasks[i]? = some ⟨request, old⟩) (hrest : main.rest = s.main.rest)
    (hpermits : permits + (if new.isRunning then 1 else 0) =
      s.permits + if old.isRunning then 1 else 0)
    (hmove : ∀ began ended, Shown (Comes i) (some ⟨request, old⟩) began ended →
      Shown (Comes i) (some ⟨request, new⟩) (began ++ (event.began? i).toList)
        (ended ++ (event.ended? i).toList))
    (hother : ∀ j, j ≠ i → event.began? j = none ∧ event.ended? j = none)
    (hknown : main.Known (s.tasks.set i ⟨request, new⟩)) :
    Inv requests limit Comes (events ++ [event])
      { s.put i ⟨request, new⟩ permits with main := main } where
  requests_eq := by
    have hsame : (s.tasks.set i ⟨request, new⟩).map Task.request = s.tasks.map Task.request := by
      refine List.ext_getElem? fun j => ?_
      rw [List.getElem?_map, List.getElem?_map]
      by_cases hj : j = i
      · obtain ⟨hi, _⟩ := List.getElem?_eq_some_iff.mp htask
        rw [hj, List.getElem?_set_self hi, htask]
        rfl
      · rw [List.getElem?_set_ne (Ne.symm hj)]
    show (s.tasks.set i ⟨request, new⟩).map Task.request ++ main.rest = requests
    rw [hsame, hrest]
    exact h.requests_eq
  permits_eq := by
    have hcount : (s.put i ⟨request, new⟩ permits).inProgress +
        (if old.isRunning then 1 else 0) = s.inProgress + if new.isRunning then 1 else 0 :=
      inProgress_put htask permits
    have hbefore := h.permits_eq
    show permits + (s.put i ⟨request, new⟩ permits).inProgress = limit
    omega
  shown := shown_put permits h.shown htask hmove hother
  known := hknown

theorem Inv.goto {main : Main ρ ε} (h : Inv requests limit Comes events s)
    (hrest : main.rest = s.main.rest) (hknown : main.Known s.tasks) :
    Inv requests limit Comes (events ++ [.other]) { s with main := main } where
  requests_eq := by
    rw [hrest]
    exact h.requests_eq
  permits_eq := h.permits_eq
  shown j := by
    rw [filterMap_concat, filterMap_concat]
    simpa [Event.began?, Event.ended?] using h.shown j
  known := hknown

theorem Inv.spawn {rest : List ρ} (h : Inv requests limit Comes events s)
    (hmain : s.main = .spawning (request :: rest)) :
    Inv requests limit Comes (events ++ [.other])
      { s with main := .spawning rest, tasks := s.tasks ++ [⟨request, .waiting⟩] } where
  requests_eq := by
    have hrequests := h.requests_eq
    rw [hmain] at hrequests
    rw [List.map_append, List.append_assoc]
    exact hrequests
  permits_eq := by
    have hsame : State.inProgress
        { s with main := .spawning rest, tasks := s.tasks ++ [⟨request, .waiting⟩] } =
          s.inProgress := by
      rw [State.inProgress, List.countP_append]
      rfl
    rw [hsame]
    exact h.permits_eq
  shown j := by
    have hbefore := h.shown j
    rw [filterMap_concat, filterMap_concat]
    simp only [Event.began?, Event.ended?, Option.toList_none, List.append_nil]
    rcases Nat.lt_trichotomy j s.tasks.length with hlt | rfl | hgt
    · rwa [List.getElem?_append_left hlt]
    · rw [List.getElem?_eq_none (Nat.le_refl _)] at hbefore
      rw [List.getElem?_concat_length]
      exact hbefore
    · have hlength : (s.tasks ++ [(⟨request, .waiting⟩ : Task ρ ε)]).length ≤ j := by
        rw [List.length_append]
        exact hgt
      rw [List.getElem?_eq_none (Nat.le_of_lt hgt)] at hbefore
      rwa [List.getElem?_eq_none hlength]
  known := by
    have hknown := h.known
    rw [hmain] at hknown
    intro task hmem
    rcases List.mem_append.mp hmem with hmem | hmem
    · exact hknown task hmem
    · obtain rfl := List.mem_singleton.mp hmem
      exact ⟨nofun, nofun⟩

theorem Step.inv (hstep : Step Comes s event s') (h : Inv requests limit Comes events s) :
    Inv requests limit Comes (events ++ [event]) s' := by
  cases hstep with
  | spawn request rest hmain => exact h.spawn hmain
  | spawned hmain =>
    have hknown := h.known
    rw [hmain] at hknown
    refine h.goto ?_ hknown
    rw [hmain]
    rfl
  | acquire i request htask hpermit =>
    refine h.put htask rfl ?_ ?_ ?_ (h.known.put htask nofun nofun nofun)
    · show s.permits - 1 + 1 = s.permits + 0
      omega
    · rintro began ended ⟨rfl, rfl⟩
      simp [Shown, Event.began?, Event.ended?]
    · intro j hj
      simp [Event.began?, Event.ended?, Ne.symm hj]
  | finish i request result htask hcomes =>
    refine h.put htask rfl rfl ?_ ?_ (h.known.put htask nofun nofun nofun)
    · rintro began ended ⟨rfl, rfl⟩
      simpa [Shown, Event.began?, Event.ended?] using hcomes
    · intro j hj
      simp [Event.began?, Event.ended?, Ne.symm hj]
  | join i request hmain htask =>
    refine h.put htask rfl rfl ?_ (fun _ _ => ⟨rfl, rfl⟩) (h.known.put htask nofun nofun nofun)
    rintro began ended ⟨rfl, rfl, hresult⟩
    exact ⟨rfl, rfl, hresult⟩
  | joinError i request err hmain htask =>
    obtain ⟨hi, _⟩ := List.getElem?_eq_some_iff.mp htask
    refine h.put htask ?_ rfl ?_ (fun _ _ => ⟨rfl, rfl⟩) ⟨_, List.mem_set hi _, rfl⟩
    · rw [hmain]
      rfl
    · rintro began ended ⟨rfl, rfl, hresult⟩
      exact ⟨rfl, rfl, hresult⟩
  | done hmain hall =>
    refine h.goto ?_ hall
    rw [hmain]
    rfl
  | abortWaiting i request hmain htask =>
    refine h.put htask rfl rfl ?_ (fun _ _ => ⟨rfl, rfl⟩)
      (h.known.put htask nofun nofun fun _ => ⟨_, hmain⟩)
    rintro began ended ⟨rfl, rfl⟩
    exact ⟨.inl rfl, rfl⟩
  | abortRunning i request hmain htask =>
    refine h.put htask rfl rfl ?_ (fun _ _ => ⟨rfl, rfl⟩)
      (h.known.put htask nofun nofun fun _ => ⟨_, hmain⟩)
    rintro began ended ⟨rfl, rfl⟩
    exact ⟨.inr rfl, rfl⟩

theorem inv_start {maxPermits : Nat} (hlimit : limit ≤ maxPermits) :
    Inv requests limit Comes [] (State.start maxPermits limit requests) := by
  rw [State.start, if_pos hlimit]
  exact ⟨rfl, rfl, fun _ => ⟨rfl, rfl⟩, fun _ hmem => absurd hmem List.not_mem_nil⟩

/-- **In every run** the permits bound the tasks that run, each task begins and ends its own request
once at most, and the main task returns what the tasks came to. -/
theorem inv_of_trace {maxPermits : Nat} (hlimit : limit ≤ maxPermits)
    (h : Trace (Step Comes) (State.start maxPermits limit requests) events s) :
    Inv requests limit Comes events s :=
  h.keeps (inv_start hlimit) fun _ _ _ _ hinv hstep => hstep.inv hinv

theorem not_step_panicked : ¬ Step Comes (⟨.panicked, [], 0⟩ : State ρ ε) event s' := by
  intro hstep
  cases hstep <;> simp_all

/-! ### The end -/

/-- How many steps a task can still make, at most. -/
def Phase.left : Phase ε → Nat
  | waiting => 3
  | running => 2
  | finished _ => 1
  | joined _ | aborted => 0

def Main.left : Main ρ ε → Nat
  | spawning rest => 4 * rest.length + 2
  | joining => 1
  | returned _ | panicked => 0

def leftOf (tasks : List (Task ρ ε)) : Nat := (tasks.map fun task => task.phase.left).sum

def State.left (s : State ρ ε) : Nat := s.main.left + leftOf s.tasks

theorem leftOf_set {tasks : List (Task ρ ε)} (htask : tasks[i]? = some ⟨request, old⟩)
    (new : Phase ε) : leftOf (tasks.set i ⟨request, new⟩) + old.left = leftOf tasks + new.left := by
  unfold leftOf
  induction tasks generalizing i with
  | nil => cases htask
  | cons task tasks ih =>
    cases i with
    | zero =>
      obtain rfl : task = ⟨request, old⟩ := Option.some.inj htask
      simp only [List.set_cons_zero, List.map_cons, List.sum_cons]
      omega
    | succ i =>
      have hrest := ih (i := i) htask
      simp only [List.set_cons_succ, List.map_cons, List.sum_cons]
      omega

theorem Step.left_lt (hstep : Step Comes s event s') : s'.left < s.left := by
  have hput : ∀ {i : Nat} {request : ρ} {old new : Phase ε} {permits : Nat},
      s.tasks[i]? = some ⟨request, old⟩ → new.left < old.left →
        (s.put i ⟨request, new⟩ permits).left < s.left := by
    intro i request old new permits htask hlt
    have hset := leftOf_set htask new
    show s.main.left + leftOf (s.tasks.set i ⟨request, new⟩) < s.main.left + leftOf s.tasks
    omega
  have hgoto : ∀ {main : Main ρ ε}, main.left < s.main.left →
      State.left { s with main := main } < s.left := by
    intro main hlt
    exact Nat.add_lt_add_right hlt _
  cases hstep with
  | spawn request rest hmain =>
    show 4 * rest.length + 2 + leftOf (s.tasks ++ [⟨request, .waiting⟩]) <
      s.main.left + leftOf s.tasks
    have happend : leftOf (s.tasks ++ [⟨request, .waiting⟩]) = leftOf s.tasks + 3 := by
      unfold leftOf
      rw [List.map_append, List.sum_append]
      rfl
    rw [happend, hmain, Main.left, List.length_cons]
    omega
  | spawned hmain => exact hgoto (by simp [hmain, Main.left])
  | acquire i request htask hpermit => exact hput htask (by simp [Phase.left])
  | finish i request result htask hcomes => exact hput htask (by simp [Phase.left])
  | join i request hmain htask => exact hput htask (by simp [Phase.left])
  | joinError i request err hmain htask =>
    have hset := leftOf_set htask (.joined (.error err))
    show 0 + leftOf (s.tasks.set i ⟨request, .joined (.error err)⟩) < s.main.left + leftOf s.tasks
    rw [hmain, Main.left]
    have hfinished : (Phase.finished (.error err) : Phase ε).left = 1 := rfl
    have hjoined : (Phase.joined (.error err) : Phase ε).left = 0 := rfl
    omega
  | done hmain hall => exact hgoto (by simp [hmain, Main.left])
  | abortWaiting i request hmain htask => exact hput htask (by simp [Phase.left])
  | abortRunning i request hmain htask => exact hput htask (by simp [Phase.left])

theorem length_le_of_trace {maxPermits : Nat}
    (h : Trace (Step Comes) (State.start maxPermits limit requests) events s) :
    events.length ≤ 4 * requests.length + 2 := by
  have hle := h.length_le fun _ _ _ hstep => hstep.left_lt
  refine Nat.le_trans hle ?_
  unfold State.start
  split
  · exact Nat.le_refl _
  · exact Nat.zero_le _

theorem Inv.request_eq (h : Inv requests limit Comes events s) {task : Task ρ ε}
    (htask : s.tasks[i]? = some task) : requests[i]? = some task.request := by
  have hmap : (s.tasks.map Task.request)[i]? = some task.request := by
    rw [List.getElem?_map, htask]
    rfl
  obtain ⟨hi, _⟩ := List.getElem?_eq_some_iff.mp hmap
  rw [← h.requests_eq, List.getElem?_append_left hi, hmap]

/-- **The main task gets on**: as long as it has not come to an end, there is a step. -/
theorem Inv.progress (h : Inv requests limit Comes events s) (hlimit : 0 < limit)
    (hends : ∀ i request, requests[i]? = some request → ∃ result, Comes i request result)
    (hmain : (∃ rest, s.main = .spawning rest) ∨ s.main = .joining) :
    ∃ event s', Step Comes s event s' := by
  rcases hmain with ⟨rest, hmain⟩ | hmain
  · cases rest with
    | nil => exact ⟨_, _, .spawned hmain⟩
    | cons request rest => exact ⟨_, _, .spawn request rest hmain⟩
  · have hknown := h.known
    rw [hmain] at hknown
    by_cases hall : ∀ task ∈ s.tasks, task.phase = .joined (.ok ())
    · exact ⟨_, _, .done hmain hall⟩
    · push Not at hall
      obtain ⟨⟨request, phase⟩, hmem, hne⟩ := hall
      obtain ⟨hnot, hok⟩ := hknown _ hmem
      obtain ⟨i, htask⟩ := List.mem_iff_getElem?.mp hmem
      cases phase with
      | joined result =>
        rcases result with err | _
        · exact absurd rfl (hok err)
        · exact absurd rfl hne
      | aborted => exact absurd rfl hnot
      | running =>
        obtain ⟨result, hcomes⟩ := hends i request (h.request_eq htask)
        exact ⟨_, _, .finish i request result htask hcomes⟩
      | finished result =>
        rcases result with err | _
        · exact ⟨_, _, .joinError i request err hmain htask⟩
        · exact ⟨_, _, .join i request hmain htask⟩
      | waiting =>
        -- a permit is left, or a task that runs has it
        rcases Nat.eq_zero_or_pos s.permits with hzero | hpos
        · have hrunning : 0 < s.inProgress := by
            have hpermits := h.permits_eq
            omega
          obtain ⟨⟨request', phase⟩, hmem', hphase⟩ := List.countP_pos_iff.mp hrunning
          obtain ⟨j, hj⟩ := List.mem_iff_getElem?.mp hmem'
          obtain ⟨result, hcomes⟩ := hends j request' (h.request_eq hj)
          cases phase <;> first | exact ⟨_, _, .finish j request' result hj hcomes⟩ | cases hphase
        · exact ⟨_, _, .acquire i request htask hpos⟩

theorem Inv.returned_or_step (h : Inv requests limit Comes events s) (hlimit : 0 < limit)
    (hends : ∀ i request, requests[i]? = some request → ∃ result, Comes i request result) :
    (∃ event s', Step Comes s event s') ∨ ∃ result, s.main = .returned result := by
  have hknown := h.known
  rcases hmain : s.main with rest | _ | result | _
  · exact .inl (h.progress hlimit hends (.inl ⟨rest, hmain⟩))
  · exact .inl (h.progress hlimit hends (.inr hmain))
  · exact .inr ⟨result, rfl⟩
  · rw [hmain] at hknown
    exact hknown.elim

theorem Inv.began (h : Inv requests limit Comes events s) (i : Nat) :
    events.filterMap (Event.began? i) = [] ∨
      ∃ request, requests[i]? = some request ∧ events.filterMap (Event.began? i) = [request] := by
  have hshown := h.shown i
  rcases htask : s.tasks[i]? with _ | ⟨request, phase⟩ <;> rw [htask] at hshown
  · exact .inl hshown.1
  · have hrequest := h.request_eq htask
    cases phase with
    | waiting => exact .inl hshown.1
    | running => exact .inr ⟨request, hrequest, hshown.1⟩
    | finished result => exact .inr ⟨request, hrequest, hshown.1⟩
    | joined result => exact .inr ⟨request, hrequest, hshown.1⟩
    | aborted => exact hshown.1.imp id fun hbegan => ⟨request, hrequest, hbegan⟩

theorem Inv.ended (h : Inv requests limit Comes events s) (i : Nat) :
    events.filterMap (Event.ended? i) = [] ∨ ∃ request result, requests[i]? = some request ∧
      events.filterMap (Event.ended? i) = [(request, result)] ∧ Comes i request result := by
  have hshown := h.shown i
  rcases htask : s.tasks[i]? with _ | ⟨request, phase⟩ <;> rw [htask] at hshown
  · exact .inl hshown.2
  · have hrequest := h.request_eq htask
    cases phase with
    | waiting => exact .inl hshown.2
    | running => exact .inl hshown.2
    | finished result => exact .inr ⟨request, result, hrequest, hshown.2⟩
    | joined result => exact .inr ⟨request, result, hrequest, hshown.2⟩
    | aborted => exact .inl hshown.2

section returned
variable (h : Inv requests limit Comes events s)
include h

theorem Inv.joined_of_ok (hmain : s.main = .returned (.ok ())) (hrequest : requests[i]? = some request) :
    s.tasks[i]? = some ⟨request, .joined (.ok ())⟩ := by
  have hknown := h.known
  have hrequests := h.requests_eq
  rw [hmain] at hknown hrequests
  rw [← hrequests, Main.rest, List.append_nil, List.getElem?_map] at hrequest
  obtain ⟨⟨_, phase⟩, htask, rfl⟩ := Option.map_eq_some_iff.mp hrequest
  obtain rfl : phase = .joined (.ok ()) := hknown _ (List.mem_of_getElem? htask)
  exact htask

theorem Inv.once (hmain : s.main = .returned (.ok ())) (hrequest : requests[i]? = some request) :
    events.filterMap (Event.began? i) = [request] ∧
      events.filterMap (Event.ended? i) = [(request, .ok ())] := by
  have hshown := h.shown i
  rw [h.joined_of_ok hmain hrequest] at hshown
  exact ⟨hshown.1, hshown.2.1⟩

theorem Inv.failed {err : ε} (hmain : s.main = .returned (.error err)) :
    ∃ i request, requests[i]? = some request ∧
      events.filterMap (Event.ended? i) = [(request, .error err)] := by
  have hknown := h.known
  rw [hmain] at hknown
  obtain ⟨⟨request, phase⟩, hmem, hjoined⟩ := hknown
  obtain rfl : phase = .joined (.error err) := hjoined
  obtain ⟨i, htask⟩ := List.mem_iff_getElem?.mp hmem
  have hshown := h.shown i
  rw [htask] at hshown
  exact ⟨i, request, h.request_eq htask, hshown.2.1⟩

theorem Inv.ok_iff {result : Except ε Unit} (hmain : s.main = .returned result) :
    result = .ok () ↔ ∀ i request, requests[i]? = some request →
      events.filterMap (Event.ended? i) = [(request, .ok ())] := by
  rcases result with err | _
  · obtain ⟨i, request, hrequest, hended⟩ := h.failed hmain
    refine iff_of_false (fun h => by cases h) fun hall => ?_
    rw [hall i request hrequest] at hended
    cases hended
  · exact iff_of_true rfl fun i request hrequest => (h.once hmain hrequest).2

end returned

end DragonflySdk.Foundation.TaskSet
