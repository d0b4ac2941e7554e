import DragonflySdk.Foundation.SplitUpdate
import DragonflySdk.Foundation.Trace

/-!
# Refreshes behind a try-lock

A refresh tries to take a lock, and returns at once if it is taken. Otherwise it asks outside for what
to refresh by, and updates data and index by the answer (`SplitUpdate`), the comparing and the
replacing each in one step. It gives the lock back at the end, also of a refresh that fails.

Others see the data between any two steps. Still the refreshes are as if made one after the other
(`serial`), each as a whole at its write: what was compared has not changed by then (`Inv.fits`), as
nobody else is inside (`Inv.unique`). And each is by an answer that was asked for after the last write
before its own (`asked_between`), so that no older answer replaces a newer one. The lock is given back
with the fifth step of whoever is inside, at the latest (`freesWithin_of_trace`).
-/

namespace DragonflySdk.Foundation

/-- What refreshes do with an answer `β`: read it as the argument of an update, or fail. -/
structure HotRefresh (β ε α κ ρ : Type*) where
  update : SplitUpdate α κ ρ
  list : β → Except ε α

namespace HotRefresh

/-- How far a refresher has come; all but `idle` hold the lock. -/
inductive Stage (β α ρ : Type*)
  | idle
  | asked
  | answered (answer : β) (arg : α)
  /-- the data differed -/
  | differed (answer : β) (arg : α)
  | built (answer : β) (arg : α) (index : ρ)
  | wrote

/-- What the refresher `i` does. -/
inductive Event (ι β ε : Type*)
  /-- finds the lock taken, and returns -/
  | skipped (i : ι)
  | entered (i : ι)
  /-- returns the error -/
  | failed (i : ι) (answer : β) (err : ε)
  | answered (i : ι) (answer : β)
  | differed (i : ι)
  | built (i : ι)
  | wrote (i : ι) (answer : β)
  /-- gives the lock back, and returns -/
  | left (i : ι)

/-- Data and index, whether the lock is taken, and how far each refresher has come. -/
structure State (ι β α κ ρ : Type*) where
  data : κ
  index : ρ
  locked : Bool
  stage : ι → Stage β α ρ

variable {ι β ε α κ ρ : Type*} [DecidableEq ι]

/-- Nobody is refreshing. -/
def init (data : κ) (index : ρ) : State ι β α κ ρ := ⟨data, index, false, fun _ => .idle⟩

/-- The refresher `i` goes on. -/
def State.goto (s : State ι β α κ ρ) (i : ι) (stage : Stage β α ρ) (locked : Bool) :
    State ι β α κ ρ :=
  { s with stage := Function.update s.stage i stage, locked := locked }

/-- The refresher `i` replaces data and index. -/
def State.write (s : State ι β α κ ρ) (i : ι) (data : κ) (index : ρ) : State ι β α κ ρ :=
  ⟨data, index, s.locked, Function.update s.stage i .wrote⟩

variable (p : HotRefresh β ε α κ ρ)

/-- One step of one refresher. -/
inductive Step : State ι β α κ ρ → Event ι β ε → State ι β α κ ρ → Prop
  | skip {s} (i : ι) (h : s.stage i = .idle) (hlocked : s.locked = true) : Step s (.skipped i) s
  | enter {s} (i : ι) (h : s.stage i = .idle) (hfree : s.locked = false) :
      Step s (.entered i) (s.goto i .asked true)
  | fail {s} (i : ι) (answer : β) (err : ε) (h : s.stage i = .asked)
      (hlist : p.list answer = .error err) : Step s (.failed i answer err) (s.goto i .idle false)
  | answer {s} (i : ι) (answer : β) (arg : α) (h : s.stage i = .asked)
      (hlist : p.list answer = .ok arg) :
      Step s (.answered i answer) (s.goto i (.answered answer arg) s.locked)
  | keep {s} (i : ι) (answer : β) (arg : α) (h : s.stage i = .answered answer arg)
      (hsame : p.update.unchanged s.data (p.update.dataOf arg) = true) :
      Step s (.wrote i answer) (s.write i (p.update.dataOf arg) s.index)
  | differ {s} (i : ι) (answer : β) (arg : α) (h : s.stage i = .answered answer arg)
      (hsame : p.update.unchanged s.data (p.update.dataOf arg) = false) :
      Step s (.differed i) (s.goto i (.differed answer arg) s.locked)
  | build {s} (i : ι) (answer : β) (arg : α) (index : ρ) (h : s.stage i = .differed answer arg)
      (hbuilds : p.update.Builds (p.update.dataOf arg) index) :
      Step s (.built i) (s.goto i (.built answer arg index) s.locked)
  | write {s} (i : ι) (answer : β) (arg : α) (index : ρ) (h : s.stage i = .built answer arg index) :
      Step s (.wrote i answer) (s.write i (p.update.dataOf arg) index)
  | leave {s} (i : ι) (h : s.stage i = .wrote) : Step s (.left i) (s.goto i .idle false)

/-! ### One after the other -/

/-- A refresh as a whole: who makes it, the answer unless the lock is taken, and what it returns. -/
structure Call (ι β ε : Type*) where
  caller : ι
  answer : Option β
  result : Except ε Unit

/-- What a refresh does when nothing else happens meanwhile. -/
inductive Alone : κ × ρ → Call ι β ε → κ × ρ → Prop
  | skipped {s} (i : ι) : Alone s ⟨i, none, .ok ()⟩ s
  | failed {s} (i : ι) {answer : β} {err : ε} (hlist : p.list answer = .error err) :
      Alone s ⟨i, some answer, .error err⟩ s
  | kept {s} (i : ι) {answer : β} {arg : α} (hlist : p.list answer = .ok arg)
      (hsame : p.update.unchanged s.1 (p.update.dataOf arg) = true) :
      Alone s ⟨i, some answer, .ok ()⟩ (p.update.dataOf arg, s.2)
  | rebuilt {s} (i : ι) {answer : β} {arg : α} {index : ρ} (hlist : p.list answer = .ok arg)
      (hsame : p.update.unchanged s.1 (p.update.dataOf arg) = false)
      (hbuilds : p.update.Builds (p.update.dataOf arg) index) :
      Alone s ⟨i, some answer, .ok ()⟩ (p.update.dataOf arg, index)

def Event.caller : Event ι β ε → ι
  | .skipped i | .entered i | .failed i _ _ | .answered i _ | .differed i | .built i | .wrote i _
  | .left i => i

/-- The step at which a refresh is made as a whole. -/
def Event.call? : Event ι β ε → Option (Call ι β ε)
  | .skipped i => some ⟨i, none, .ok ()⟩
  | .failed i answer err => some ⟨i, some answer, .error err⟩
  | .wrote i answer => some ⟨i, some answer, .ok ()⟩
  | _ => none

/-- The step at which a refresh returns. -/
def Event.return? : Event ι β ε → Option (ι × Except ε Unit)
  | .skipped i => some (i, .ok ())
  | .failed i _ err => some (i, .error err)
  | .left i => some (i, .ok ())
  | _ => none

/-! ### Who is inside -/

variable {p} {s s' : State ι β α κ ρ} {event : Event ι β ε} {events : List (Event ι β ε)}

theorem goto_stage_self (s : State ι β α κ ρ) (i : ι) (stage : Stage β α ρ) (locked : Bool) :
    (s.goto i stage locked).stage i = stage :=
  Function.update_self _ _ _

theorem goto_stage_of_ne (s : State ι β α κ ρ) {i j : ι} (h : j ≠ i) (stage : Stage β α ρ)
    (locked : Bool) : (s.goto i stage locked).stage j = s.stage j :=
  Function.update_of_ne h _ _

theorem write_stage_self (s : State ι β α κ ρ) (i : ι) (data : κ) (index : ρ) :
    (s.write i data index).stage i = .wrote :=
  Function.update_self _ _ _

theorem Step.stage_of_ne (hstep : p.Step s event s') {i : ι} (hi : i ≠ event.caller) :
    s'.stage i = s.stage i := by
  cases hstep with
  | skip => rfl
  | keep | write => exact Function.update_of_ne hi _ _
  | enter | fail | answer | differ | build | leave => exact goto_stage_of_ne s hi _ _

theorem goto_stage_idle {i : ι} (h : ∀ j, j ≠ i → s.stage j = .idle) {stage : Stage β α ρ}
    {locked : Bool} (j : ι) (hj : j ≠ i) : (s.goto i stage locked).stage j = .idle := by
  rw [goto_stage_of_ne s hj]
  exact h j hj

variable (p) in
/-- What is known at a stage: the argument is what was listed, and it differs from the data until it
replaces it. -/
def Fits (data : κ) : Stage β α ρ → Prop
  | .idle | .asked | .wrote => True
  | .answered answer arg => p.list answer = .ok arg
  | .differed answer arg =>
    p.list answer = .ok arg ∧ p.update.unchanged data (p.update.dataOf arg) = false
  | .built answer arg index =>
    p.list answer = .ok arg ∧ p.update.unchanged data (p.update.dataOf arg) = false ∧
      p.update.Builds (p.update.dataOf arg) index

variable (p) in
/-- Whoever is inside is there alone, and holds the lock. -/
structure Inv (s : State ι β α κ ρ) : Prop where
  unique : ∀ i j, s.stage i ≠ .idle → s.stage j ≠ .idle → i = j
  locked_iff : s.locked = true ↔ ∃ i, s.stage i ≠ .idle
  fits : ∀ i, p.Fits s.data (s.stage i)

omit [DecidableEq ι] in
theorem inv_init (data : κ) (index : ρ) : p.Inv (init data index : State ι β α κ ρ) :=
  ⟨fun _ _ hi _ => absurd rfl hi, iff_of_false nofun fun ⟨_, hi⟩ => hi rfl, fun _ => trivial⟩

omit [DecidableEq ι] in
theorem Inv.idle_of_ne (h : p.Inv s) {i : ι} (hi : s.stage i ≠ .idle ∨ s.locked = false) (j : ι)
    (hj : j ≠ i) : s.stage j = .idle := by
  by_contra hinside
  rcases hi with hi | hfree
  · exact hj (h.unique j i hinside hi)
  · rw [h.locked_iff.mpr ⟨j, hinside⟩] at hfree
    cases hfree

theorem Inv.of_one {i : ι} (hothers : ∀ j, j ≠ i → s.stage j = .idle)
    (hlocked : s.locked = true ↔ s.stage i ≠ .idle) (hfits : p.Fits s.data (s.stage i)) : p.Inv s := by
  have heq : ∀ j, s.stage j ≠ .idle → j = i := fun j hj => by_contra fun hne => hj (hothers j hne)
  refine ⟨fun j k hj hk => (heq j hj).trans (heq k hk).symm, hlocked.trans ⟨fun hi => ⟨i, hi⟩, ?_⟩,
    fun j => ?_⟩
  · rintro ⟨j, hj⟩
    exact heq j hj ▸ hj
  · by_cases hj : j = i
    · exact hj ▸ hfits
    · rw [hothers j hj]
      trivial

theorem Inv.stay (h : p.Inv s) {i : ι} (hi : s.stage i ≠ .idle) {stage : Stage β α ρ}
    (hstage : stage ≠ .idle) (hfits : p.Fits s.data stage) : p.Inv (s.goto i stage s.locked) := by
  have hself := goto_stage_self s i stage s.locked
  refine .of_one (goto_stage_idle (h.idle_of_ne (.inl hi))) ?_ ?_
  · rw [hself]
    exact iff_of_true (h.locked_iff.mpr ⟨i, hi⟩) hstage
  · rw [hself]
    exact hfits

theorem Inv.leave (h : p.Inv s) {i : ι} (hi : s.stage i ≠ .idle) : p.Inv (s.goto i .idle false) := by
  have hself := goto_stage_self s i .idle false
  refine .of_one (goto_stage_idle (h.idle_of_ne (.inl hi))) ?_ ?_
  · rw [hself]
    exact iff_of_false nofun fun hne => hne rfl
  · rw [hself]
    trivial

theorem Inv.write (h : p.Inv s) {i : ι} (hi : s.stage i ≠ .idle) (data : κ) (index : ρ) :
    p.Inv (s.write i data index) := by
  have hself := write_stage_self s i data index
  have hothers : ∀ j, j ≠ i → (s.write i data index).stage j = .idle := fun j hj =>
    (Function.update_of_ne hj _ _).trans (h.idle_of_ne (.inl hi) j hj)
  refine .of_one hothers ?_ ?_
  · rw [hself]
    exact iff_of_true (h.locked_iff.mpr ⟨i, hi⟩) nofun
  · rw [hself]
    trivial

theorem Step.inv (hstep : p.Step s event s') (h : p.Inv s) : p.Inv s' := by
  have hfits : ∀ {i stage}, s.stage i = stage → p.Fits s.data stage := fun heq => heq ▸ h.fits _
  have hinside : ∀ {i stage}, s.stage i = stage → stage ≠ .idle → s.stage i ≠ .idle :=
    fun heq hne => heq ▸ hne
  cases hstep with
  | skip i hi hlocked => exact h
  | enter i hi hfree =>
    refine .of_one (goto_stage_idle (h.idle_of_ne (.inr hfree))) ?_ ?_
    · rw [goto_stage_self]
      exact iff_of_true rfl nofun
    · rw [goto_stage_self]
      trivial
  | fail i answer err hi hlist => exact h.leave (hinside hi nofun)
  | answer i answer arg hi hlist => exact h.stay (hinside hi nofun) nofun hlist
  | keep i answer arg hi hsame => exact h.write (hinside hi nofun) _ _
  | differ i answer arg hi hsame => exact h.stay (hinside hi nofun) nofun ⟨hfits hi, hsame⟩
  | build i answer arg index hi hbuilds =>
    obtain ⟨hlist, hsame⟩ := hfits hi
    exact h.stay (hinside hi nofun) nofun ⟨hlist, hsame, hbuilds⟩
  | write i answer arg index hi => exact h.write (hinside hi nofun) _ _
  | leave i hi => exact h.leave (hinside hi nofun)

theorem inv_of_trace (h : Trace p.Step s events s') (hinv : p.Inv s) : p.Inv s' :=
  @Trace.keeps _ _ _ _ _ _ (fun _ s => p.Inv s) h hinv fun _ _ _ _ hinv hstep => hstep.inv hinv

/-! ### The refreshes as a whole -/

/-- The refreshes that have been made, in their order. -/
def calls (events : List (Event ι β ε)) : List (Call ι β ε) := events.filterMap Event.call?

/-- A refresh is made at one step, as by itself, and the other steps change nothing. -/
theorem Step.alone (hstep : p.Step s event s') (h : p.Inv s) :
    Trace p.Alone (s.data, s.index) event.call?.toList (s'.data, s'.index) := by
  have hfits : ∀ {i stage}, s.stage i = stage → p.Fits s.data stage := fun heq => heq ▸ h.fits _
  cases hstep with
  | skip i hi hlocked => exact ⟨_, .skipped i, rfl⟩
  | enter i hi hfree => rfl
  | fail i answer err hi hlist => exact ⟨_, .failed i hlist, rfl⟩
  | answer i answer arg hi hlist => rfl
  | keep i answer arg hi hsame => exact ⟨_, .kept i (hfits hi) hsame, rfl⟩
  | differ i answer arg hi hsame => rfl
  | build i answer arg index hi hbuilds => rfl
  | write i answer arg index hi =>
    obtain ⟨hlist, hsame, hbuilds⟩ := hfits hi
    exact ⟨_, .rebuilt i hlist hsame hbuilds, rfl⟩
  | leave i hi => rfl

/-- **The refreshes are as if made one after the other.** -/
theorem serial (h : Trace p.Step s events s') (hinv : p.Inv s) :
    Trace p.Alone (s.data, s.index) (calls events) (s'.data, s'.index) := by
  refine (@Trace.keeps _ _ _ _ _ _ (fun events s' => p.Inv s' ∧
    Trace p.Alone (s.data, s.index) (calls events) (s'.data, s'.index)) h ⟨hinv, rfl⟩ ?_).2
  rintro events s event s' ⟨hinv, hserial⟩ hstep
  refine ⟨hstep.inv hinv, ?_⟩
  unfold calls
  rw [filterMap_concat]
  exact Trace.append_iff.mpr ⟨_, hserial, hstep.alone hinv⟩

/-- The answer that a step writes. -/
def Event.written? : Event ι β ε → Option β
  | .wrote _ answer => some answer
  | _ => none

/-- The answers that have been written. -/
def written (events : List (Event ι β ε)) : List β := events.filterMap Event.written?

variable (p) in
/-- The data is that of the answer, or still the one of before. -/
def Holds (s : State ι β α κ ρ) : Option β → State ι β α κ ρ → Prop
  | none, s' => s'.data = s.data ∧ s'.index = s.index
  | some answer, s' => ∃ arg, p.list answer = .ok arg ∧ s'.data = p.update.dataOf arg

/-- **The data is that of the last answer written**, and the index belongs to it. -/
theorem holds_last (hkeep : ∀ old new index, p.update.unchanged old new = true →
      p.update.Builds old index → p.update.Builds new index)
    (hbuilds : p.update.Builds s.data s.index) (h : Trace p.Step s events s') (hinv : p.Inv s) :
    p.update.Builds s'.data s'.index ∧ p.Holds s (written events).getLast? s' := by
  refine (@Trace.keeps _ _ _ _ _ _ (fun events s' => p.Inv s' ∧
    p.update.Builds s'.data s'.index ∧ p.Holds s (written events).getLast? s') h
    ⟨hinv, hbuilds, rfl, rfl⟩ ?_).2
  rintro events s₁ event s₂ ⟨hinv, hbuilds, hholds⟩ hstep
  refine ⟨hstep.inv hinv, ?_⟩
  have hquiet : event.written? = none → s₂.data = s₁.data → s₂.index = s₁.index →
      p.update.Builds s₂.data s₂.index ∧ p.Holds s (written (events ++ [event])).getLast? s₂ := by
    intro hnone hdata hindex
    have hsame : written (events ++ [event]) = written events := by
      unfold written
      rw [filterMap_concat, hnone]
      exact List.append_nil _
    rw [hsame, hdata, hindex]
    refine ⟨hbuilds, ?_⟩
    cases hlast : (written events).getLast? with
    | none => rw [hlast] at hholds; exact ⟨hdata.trans hholds.1, hindex.trans hholds.2⟩
    | some answer =>
      rw [hlast] at hholds
      obtain ⟨arg, hlist, heq⟩ := hholds
      exact ⟨arg, hlist, hdata.trans heq⟩
  have hwrote : ∀ {i answer arg}, event = .wrote i answer → p.list answer = .ok arg →
      s₂.data = p.update.dataOf arg → p.Holds s (written (events ++ [event])).getLast? s₂ := by
    rintro i answer arg rfl hlist hdata
    unfold written
    rw [filterMap_concat, List.getLast?_append]
    exact ⟨arg, hlist, hdata⟩
  have hfits : ∀ {i stage}, s₁.stage i = stage → p.Fits s₁.data stage := fun heq => heq ▸ hinv.fits _
  cases hstep with
  | keep i answer arg hi hsame =>
    exact ⟨hkeep _ _ _ hsame hbuilds, hwrote rfl (hfits hi) rfl⟩
  | write i answer arg index hi =>
    obtain ⟨hlist, _, hindex⟩ := hfits hi
    exact ⟨hindex, hwrote rfl hlist rfl⟩
  | skip | enter | fail | answer | differ | build | leave => exact hquiet rfl rfl rfl

/-! ### What is returned -/

/-- What a refresher is to return: it has been made, and not returned yet. -/
def Stage.pending : Stage β α ρ → List (Except ε Unit)
  | .wrote => [.ok ()]
  | _ => []

/-- The results of one refresher. -/
def resultsOf (i : ι) (results : List (ι × Except ε Unit)) : List (Except ε Unit) :=
  results.filterMap fun result => if result.1 = i then some result.2 else none

/-- The results of the refreshes that have been made. -/
def made (events : List (Event ι β ε)) : List (ι × Except ε Unit) :=
  (calls events).map fun call => (call.caller, call.result)

/-- The results that have been returned. -/
def returned (events : List (Event ι β ε)) : List (ι × Except ε Unit) :=
  events.filterMap Event.return?

theorem resultsOf_append (i : ι) (results results' : List (ι × Except ε Unit)) :
    resultsOf i (results ++ results') = resultsOf i results ++ resultsOf i results' :=
  List.filterMap_append

omit [DecidableEq ι] in
theorem made_append (events events' : List (Event ι β ε)) :
    made (events ++ events') = made events ++ made events' := by
  unfold made calls
  rw [List.filterMap_append, List.map_append]

omit [DecidableEq ι] in
theorem returned_append (events events' : List (Event ι β ε)) :
    returned (events ++ events') = returned events ++ returned events' :=
  List.filterMap_append

theorem resultsOf_self (i : ι) (result : Except ε Unit) : resultsOf i [(i, result)] = [result] := by
  have hsome : (if i = i then some result else none) = some result := if_pos rfl
  exact List.filterMap_cons_some hsome

theorem resultsOf_of_ne {i j : ι} (h : j ≠ i) (result : Except ε Unit) :
    resultsOf i [(j, result)] = [] := by
  have hnone : (if j = i then some result else none) = none := if_neg h
  exact List.filterMap_cons_none hnone

theorem resultsOf_event_of_ne {i : ι} (h : event.caller ≠ i) :
    resultsOf i (made [event]) = [] ∧ resultsOf i (returned [event]) = [] := by
  cases event with
  | skipped j => exact ⟨resultsOf_of_ne h _, resultsOf_of_ne h _⟩
  | failed j answer err => exact ⟨resultsOf_of_ne h _, resultsOf_of_ne h _⟩
  | wrote j answer => exact ⟨resultsOf_of_ne h _, rfl⟩
  | left j => exact ⟨rfl, resultsOf_of_ne h _⟩
  | entered | answered | differed | built => exact ⟨rfl, rfl⟩

theorem Step.made_eq (hstep : p.Step s event s') (i : ι) :
    (s.stage i).pending ++ resultsOf i (made [event]) =
      resultsOf i (returned [event]) ++ (s'.stage i).pending := by
  by_cases hi : event.caller = i
  · cases hstep with
    | skip j hj hlocked =>
      obtain rfl : j = i := hi
      rw [hj]
      exact (List.append_nil _).symm
    | enter j hj hfree =>
      obtain rfl : j = i := hi
      rw [hj, goto_stage_self]
      rfl
    | fail j answer err hj hlist =>
      obtain rfl : j = i := hi
      rw [hj, goto_stage_self]
      exact (List.append_nil _).symm
    | answer j answer arg hj hlist =>
      obtain rfl : j = i := hi
      rw [hj, goto_stage_self]
      rfl
    | keep j answer arg hj hsame =>
      obtain rfl : j = i := hi
      rw [hj, write_stage_self]
      exact resultsOf_self j _
    | differ j answer arg hj hsame =>
      obtain rfl : j = i := hi
      rw [hj, goto_stage_self]
      rfl
    | build j answer arg index hj hbuilds =>
      obtain rfl : j = i := hi
      rw [hj, goto_stage_self]
      rfl
    | write j answer arg index hj =>
      obtain rfl : j = i := hi
      rw [hj, write_stage_self]
      exact resultsOf_self j _
    | leave j hj =>
      obtain rfl : j = i := hi
      rw [hj, goto_stage_self]
      exact (congrArg (· ++ []) (resultsOf_self j (.ok ()))).symm
  · rw [(resultsOf_event_of_ne hi).1, (resultsOf_event_of_ne hi).2, hstep.stage_of_ne (Ne.symm hi),
      List.append_nil, List.nil_append]

/-- **Every refresher returns what its refreshes came to**, each after it has been made and before the
next one. -/
theorem resultsOf_made_eq (h : Trace p.Step s events s') (hidle : ∀ i, s.stage i = .idle) (i : ι) :
    resultsOf i (made events) = resultsOf i (returned events) ++ (s'.stage i).pending := by
  refine @Trace.keeps _ _ _ _ _ _ (fun events s => resultsOf i (made events) =
    resultsOf i (returned events) ++ (s.stage i).pending) h ?_ fun events s event s' hmade hstep => ?_
  · rw [hidle i]
    rfl
  · rw [made_append, returned_append, resultsOf_append, resultsOf_append, hmade, List.append_assoc,
      hstep.made_eq i, List.append_assoc]

/-! ### What was asked for after the last write -/

/-- What a refresher that is inside has done so far. -/
def Asked (i : ι) (events : List (Event ι β ε)) : Stage β α ρ → Prop
  | .idle | .wrote => True
  | .asked => ∃ x y, events = x ++ .entered i :: y
  | .answered answer _ | .differed answer _ | .built answer _ _ =>
    ∃ x y z, events = x ++ .entered i :: (y ++ .answered i answer :: z)

omit [DecidableEq ι] in
theorem Asked.append {i : ι} {stage : Stage β α ρ} (h : Asked i events stage)
    (more : List (Event ι β ε)) : Asked i (events ++ more) stage := by
  cases stage with
  | idle | wrote => trivial
  | asked =>
    obtain ⟨x, y, rfl⟩ := h
    exact ⟨x, y ++ more, by rw [List.append_assoc, List.cons_append]⟩
  | answered | differed | built =>
    obtain ⟨x, y, z, rfl⟩ := h
    exact ⟨x, y, z ++ more, by simp only [List.append_assoc, List.cons_append]⟩

theorem Step.asked {i : ι} (hstep : p.Step s event s') (h : Asked i events (s.stage i)) :
    Asked i (events ++ [event]) (s'.stage i) := by
  by_cases hi : i = event.caller
  · cases hstep with
    | skip j hj hlocked => exact h.append _
    | enter j hj hfree =>
      obtain rfl : i = j := hi
      rw [goto_stage_self]
      exact ⟨events, [], rfl⟩
    | answer j answer arg hj hlist =>
      obtain rfl : i = j := hi
      rw [goto_stage_self]
      rw [hj] at h
      obtain ⟨x, y, rfl⟩ := h
      exact ⟨x, y, [], by rw [List.append_assoc, List.cons_append]⟩
    | differ j answer arg hj hsame =>
      obtain rfl : i = j := hi
      rw [goto_stage_self]
      rw [hj] at h
      exact h.append _
    | build j answer arg index hj hbuilds =>
      obtain rfl : i = j := hi
      rw [goto_stage_self]
      rw [hj] at h
      exact h.append _
    | keep j | write j =>
      obtain rfl : i = j := hi
      rw [write_stage_self]
      trivial
    | fail j | leave j =>
      obtain rfl : i = j := hi
      rw [goto_stage_self]
      trivial
  · rw [hstep.stage_of_ne hi]
    exact h.append _

theorem wrote_or_left {i : ι} (h : Trace p.Step s events s') (hwrote : s.stage i = .wrote) :
    s'.stage i = .wrote ∨ .left i ∈ events := by
  refine @Trace.keeps _ _ _ _ _ _ (fun events s => s.stage i = .wrote ∨ .left i ∈ events) h
    (.inl hwrote) fun events s event s' hkept hstep => ?_
  rcases hkept with hwrote | hleft
  · by_cases hi : i = event.caller
    · cases hstep with
      | leave j hj =>
        obtain rfl : i = j := hi
        exact .inr (List.mem_append_right _ List.mem_cons_self)
      | skip j hj | enter j hj | fail j _ _ hj | answer j _ _ hj | keep j _ _ hj | differ j _ _ hj
      | build j _ _ _ hj | write j _ _ _ hj =>
        obtain rfl : i = j := hi
        rw [hwrote] at hj
        cases hj
    · exact .inl (hstep.stage_of_ne hi ▸ hwrote)
  · exact .inr (List.mem_append_left _ hleft)

theorem Step.of_wrote {i : ι} {answer : β} (hstep : p.Step s (.wrote i answer) s') :
    (∃ arg, s.stage i = .answered answer arg ∨ ∃ index, s.stage i = .built answer arg index) ∧
      s'.stage i = .wrote := by
  cases hstep with
  | keep i answer arg hi hsame => exact ⟨⟨arg, .inl hi⟩, write_stage_self s i _ _⟩
  | write i answer arg index hi => exact ⟨⟨arg, .inr ⟨index, hi⟩⟩, write_stage_self s i _ _⟩

/-- **An answer that is written was asked for after the last write**: between two writes the first one
has left, and then the second one has entered, has asked, and has been answered. -/
theorem asked_between {i j : ι} {answer answer' : β} {between : List (Event ι β ε)} (hinv : p.Inv s)
    (h : Trace p.Step s (.wrote i answer :: (between ++ [.wrote j answer'])) s') :
    ∃ x y z, between = x ++ .entered j :: (y ++ .answered j answer' :: z) ∧ .left i ∈ x := by
  obtain ⟨s₁, hfirst, hrest⟩ := h
  obtain ⟨s₂, hbetween, hlast⟩ := Trace.concat_iff.mp hrest
  have hinv₁ := hfirst.inv hinv
  have hwrote : s₁.stage i = .wrote := hfirst.of_wrote.2
  have hstart : Asked j ([] : List (Event ι β ε)) (s₁.stage j) := by
    by_cases hji : j = i
    · rw [hji, hwrote]
      trivial
    · rw [hinv₁.idle_of_ne (.inl (by rw [hwrote]; nofun)) j hji]
      trivial
  have hasked : Asked j between (s₂.stage j) :=
    @Trace.keeps _ _ _ _ _ _ (fun events s => Asked j events (s.stage j)) hbetween hstart
      fun _ _ _ _ hasked hstep => hstep.asked hasked
  obtain ⟨x, y, z, rfl⟩ : ∃ x y z, between = x ++ .entered j :: (y ++ .answered j answer' :: z) := by
    obtain ⟨arg, hheld | ⟨index, hheld⟩⟩ := hlast.of_wrote.1
    · rw [hheld] at hasked
      exact hasked
    · rw [hheld] at hasked
      exact hasked
  refine ⟨x, y, z, rfl, ?_⟩
  obtain ⟨s₃, hx, s₄, henter, _⟩ := Trace.append_iff.mp hbetween
  cases henter with
  | enter j hj hfree =>
    refine (wrote_or_left hx hwrote).resolve_left fun hstill => ?_
    rw [(inv_of_trace hx hinv₁).locked_iff.mpr ⟨i, by rw [hstill]; nofun⟩] at hfree
    cases hfree

/-! ### The lock is given back -/

/-- The lock is given back with it. -/
def Event.frees : Event ι β ε → Bool
  | .failed _ _ _ | .left _ => true
  | .skipped _ | .entered _ | .answered _ _ | .differed _ | .built _ | .wrote _ _ => false

/-- The steps of the refresher `i`. -/
def own (i : ι) (events : List (Event ι β ε)) : List (Event ι β ε) :=
  events.filter fun event => event.caller = i

/-- How many steps are left until the lock is given back, at most. -/
def Stage.stepsLeft : Stage β α ρ → Nat
  | .idle => 0
  | .asked => 5
  | .answered _ _ => 4
  | .differed _ _ => 3
  | .built _ _ _ => 2
  | .wrote => 1

omit [DecidableEq ι] in
theorem stepsLeft_pos {i : ι} (hinside : s.stage i ≠ .idle) : 0 < (s.stage i).stepsLeft := by
  cases hstage : s.stage i with
  | idle => exact absurd hstage hinside
  | asked | answered | differed | built | wrote => exact Nat.succ_pos _

omit [DecidableEq ι] in
theorem stepsLeft_le {i : ι} : (s.stage i).stepsLeft ≤ 5 := by
  cases s.stage i <;> simp [Stage.stepsLeft]

theorem Step.free (hstep : p.Step s event s') (hfrees : event.frees = true) : s'.locked = false := by
  cases hstep with
  | fail | leave => rfl
  | skip | enter | answer | keep | differ | build | write => cases hfrees

theorem Step.stepsLeft_lt (hstep : p.Step s event s') (hinside : s.stage event.caller ≠ .idle) :
    event.frees = true ∨ s'.stage event.caller ≠ .idle ∧
      (s'.stage event.caller).stepsLeft < (s.stage event.caller).stepsLeft := by
  cases hstep with
  | skip i hi | enter i hi => exact absurd hi hinside
  | fail | leave => exact .inl rfl
  | answer i answer arg hi | differ i answer arg hi =>
    right
    dsimp only [Event.caller]
    rw [goto_stage_self, hi]
    exact ⟨nofun, Nat.lt_succ_self _⟩
  | build i answer arg index hi =>
    right
    dsimp only [Event.caller]
    rw [goto_stage_self, hi]
    exact ⟨nofun, Nat.lt_succ_self _⟩
  | keep i answer arg hi =>
    right
    dsimp only [Event.caller]
    rw [write_stage_self, hi]
    exact ⟨nofun, Nat.lt_of_sub_eq_succ rfl⟩
  | write i answer arg index hi =>
    right
    dsimp only [Event.caller]
    rw [write_stage_self, hi]
    exact ⟨nofun, Nat.lt_succ_self _⟩

theorem exists_step {i : ι} (hinside : s.stage i ≠ .idle)
    (hbuilds : ∀ data, ∃ index, p.update.Builds data index) (answer : β) :
    ∃ event s', p.Step s event s' ∧ event.caller = i := by
  cases hstage : s.stage i with
  | idle => exact absurd hstage hinside
  | asked =>
    cases hlist : p.list answer with
    | error err => exact ⟨_, _, .fail i answer err hstage hlist, rfl⟩
    | ok arg => exact ⟨_, _, .answer i answer arg hstage hlist, rfl⟩
  | answered answer arg =>
    cases hsame : p.update.unchanged s.data (p.update.dataOf arg) with
    | true => exact ⟨_, _, .keep i answer arg hstage hsame, rfl⟩
    | false => exact ⟨_, _, .differ i answer arg hstage hsame, rfl⟩
  | differed answer arg =>
    obtain ⟨index, hindex⟩ := hbuilds (p.update.dataOf arg)
    exact ⟨_, _, .build i answer arg index hstage hindex, rfl⟩
  | built answer arg index => exact ⟨_, _, .write i answer arg index hstage, rfl⟩
  | wrote => exact ⟨_, _, .leave i hstage, rfl⟩

variable (p) in
/-- Among the first `n` of these steps of the refresher `i` is one that gives the lock back. -/
def FreesWithin (n : Nat) (s : State ι β α κ ρ) (i : ι) (events : List (Event ι β ε)) : Prop :=
  ∃ front event back s', events = front ++ event :: back ∧ event.caller = i ∧
    (own i front).length < n ∧ event.frees = true ∧
    Trace p.Step s (front ++ [event]) s' ∧ s'.locked = false

theorem FreesWithin.of_first {n : Nat} {i : ι} (hstep : p.Step s event s') (hi : event.caller = i)
    (hn : 0 < n) (hfrees : event.frees = true) : p.FreesWithin n s i (event :: events) :=
  ⟨[], event, events, s', rfl, hi, hn, hfrees, ⟨s', hstep, rfl⟩, hstep.free hfrees⟩

theorem FreesWithin.cons {m n : Nat} {i : ι} (hstep : p.Step s event s')
    (h : p.FreesWithin m s' i events) (hle : (own i [event]).length + m ≤ n) :
    p.FreesWithin n s i (event :: events) := by
  obtain ⟨front, last, back, s'', rfl, hcaller, hlength, hfrees, htrace, hfree⟩ := h
  refine ⟨event :: front, last, back, s'', rfl, hcaller, ?_, hfrees, ⟨s', hstep, htrace⟩, hfree⟩
  have happend : own i (event :: front) = own i [event] ++ own i front :=
    List.filter_append [event] front
  rw [happend, List.length_append]
  omega

/-- **Whoever is inside gives the lock back**: in every run, with one of as many steps of its own as
are left at most. -/
theorem freesWithin_of_trace {i : ι} (h : Trace p.Step s events s') (hinside : s.stage i ≠ .idle)
    {n : Nat} (hleft : (s.stage i).stepsLeft ≤ n) (hown : n ≤ (own i events).length) :
    p.FreesWithin n s i events := by
  induction events generalizing s n with
  | nil =>
    have hpos := stepsLeft_pos hinside
    have hnone : (own i ([] : List (Event ι β ε))).length = 0 := rfl
    omega
  | cons event events ih =>
    obtain ⟨s₁, hstep, hrest⟩ := h
    by_cases hcaller : event.caller = i
    · -- the refresher makes a step
      have hself : own i (event :: events) = event :: own i events :=
        List.filter_cons_of_pos (decide_eq_true hcaller)
      rw [hself, List.length_cons] at hown
      rcases hstep.stepsLeft_lt (hcaller ▸ hinside) with hfrees | ⟨hinside₁, hlt⟩
      · have hpos := stepsLeft_pos hinside
        exact .of_first hstep hcaller (by omega) hfrees
      · rw [hcaller] at hinside₁ hlt
        have hwithin := ih hrest hinside₁ (n := n - 1) (by omega) (by omega)
        refine .cons hstep hwithin ?_
        have hone : (own i [event]).length ≤ 1 := List.length_filter_le _ _
        omega
    · -- another one does
      have hother : own i (event :: events) = own i events :=
        List.filter_cons_of_neg (by rw [decide_eq_true_iff]; exact hcaller)
      have hnone : own i [event] = [] :=
        List.filter_cons_of_neg (by rw [decide_eq_true_iff]; exact hcaller)
      have hsame := hstep.stage_of_ne (Ne.symm hcaller)
      rw [← hsame] at hinside hleft
      rw [hother] at hown
      exact .cons hstep (ih hrest hinside hleft hown) (by simp [hnone])

end HotRefresh

end DragonflySdk.Foundation
