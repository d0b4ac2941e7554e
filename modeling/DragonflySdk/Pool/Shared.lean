import DragonflySdk.Pool

/-!
# Concurrent calls of the Rust pool

`Pool::entry` again, for any number of calls at once, one atomic step at a time: a call cleans up
(it reads the time of the last cleanup, counts the clients, retains, and writes the time), looks up
its key, has a client made and puts it into the map with `or_insert`. While its client is made,
others may insert, clean up or fail. All that return a client of a key between two removals of it
return the same one all the same, since `or_insert` gives back what is there
(`pool_shares_clients`). A call that no other one interrupts is `entry` (`entry_runs`).
-/

namespace DragonflySdk.Pool

open Foundation

variable {ι κ α γ ε : Type}

/-- How far a call has come. -/
inductive Phase (γ ε : Type)
  | called
  /-- in `cleanup_idle_entries`, with what the clock said -/
  | cleaning (now : Nat)
  /-- a cleanup is due -/
  | counting (now : Nat)
  | retaining (now : Nat) (exceedsCapacity : Bool)
  /-- about to write the time of the cleanup -/
  | cleaned (now : Nat)
  /-- past the cleanup -/
  | looking
  /-- the factory makes a client -/
  | making
  /-- about to insert the client -/
  | inserting (client : γ)
  | returned (client : γ)
  | failed (err : ε)

/-- The pool, and how far each of the calls has come. -/
structure Shared (ι κ γ ε : Type) where
  pool : State κ γ
  phase : ι → Phase γ ε

/-- What a step shows: the keys that a cleanup removes, and what a call comes to. -/
inductive Event (κ γ ε : Type)
  | removes (keys : List κ)
  | returns (client : γ)
  | fails (err : ε)
  | other

namespace Shared

/-- A new pool, and calls of it. -/
def new (createdAt : Nat) : Shared ι κ γ ε := ⟨.new createdAt, fun _ => .called⟩

variable [DecidableEq ι]

def goto (s : Shared ι κ γ ε) (i : ι) (phase : Phase γ ε) : Shared ι κ γ ε :=
  { s with phase := Function.update s.phase i phase }

/-- The entry becomes the one of the key, used now, and the call returns its client. -/
def giveTo [DecidableEq κ] (s : Shared ι κ γ ε) (i : ι) (key : κ) (e : Entry γ) (now : Nat) :
    Shared ι κ γ ε where
  pool := { s.pool with clients := s.pool.clients.insert key (e.setActivedAt now) }
  phase := Function.update s.phase i (.returned e.client)

end Shared

section
variable [DecidableEq ι] [DecidableEq κ] (pool : Pool α γ ε) (key : ι → κ) (addr : ι → α)

/-- One step of a call `i`, with what its clock says, for each entry if need be, and in what order
the map yields its keys. -/
inductive Step : Shared ι κ γ ε → ι → Event κ γ ε → Shared ι κ γ ε → Prop
  | call {s i} (now : Nat) (h : s.phase i = .called) : Step s i .other (s.goto i (.cleaning now))
  | avoid {s i} {now : Nat} (h : s.phase i = .cleaning now)
      (hearly : pool.avoidsCleanup now s.pool.cleanupAt = true) :
      Step s i .other (s.goto i .looking)
  | due {s i} {now : Nat} (h : s.phase i = .cleaning now)
      (hlate : pool.avoidsCleanup now s.pool.cleanupAt = false) :
      Step s i .other (s.goto i (.counting now))
  | count {s i} {now : Nat} (h : s.phase i = .counting now) :
      Step s i .other (s.goto i (.retaining now (pool.capacity < s.pool.clients.keys.card)))
  | retain {s i} {now : Nat} {exceedsCapacity : Bool} (order : KeyOrder κ) (clock : κ → Nat)
      (h : s.phase i = .retaining now exceedsCapacity) :
      Step s i
        (.removes (retain (fun key e => pool.shouldRetain exceedsCapacity (clock key) e)
          (order.order s.pool.clients.keys) s.pool.clients).2)
        { s.goto i (.cleaned now) with pool :=
          { s.pool with clients :=
            (retain (fun key e => pool.shouldRetain exceedsCapacity (clock key) e)
              (order.order s.pool.clients.keys) s.pool.clients).1 } }
  | finish {s i} {now : Nat} (h : s.phase i = .cleaned now) :
      Step s i .other { s.goto i .looking with pool := { s.pool with cleanupAt := now } }
  | found {s i} {e : Entry γ} (now : Nat) (h : s.phase i = .looking)
      (hlookup : s.pool.clients.lookup (key i) = some e) :
      Step s i (.returns e.client) (s.giveTo i (key i) e now)
  | notFound {s i} (h : s.phase i = .looking) (hnone : s.pool.clients.lookup (key i) = none) :
      Step s i .other (s.goto i .making)
  | makeFails {s i} (err : ε) (h : s.phase i = .making)
      (herr : pool.factory (addr i) (.error err)) :
      Step s i (.fails err) (s.goto i (.failed err))
  | make {s i} (client : γ) (h : s.phase i = .making)
      (hclient : pool.factory (addr i) (.ok client)) :
      Step s i .other (s.goto i (.inserting client))
  | insert {s i} {client : γ} (createdAt now : Nat) (h : s.phase i = .inserting client) :
      Step s i (.returns (orInsert s.pool.clients (key i) ⟨client, createdAt⟩).client)
        (s.giveTo i (key i) (orInsert s.pool.clients (key i) ⟨client, createdAt⟩) now)

/-- Any number of steps, with the calls that make them and what they show. -/
def Runs : Shared ι κ γ ε → List (ι × Event κ γ ε) → Shared ι κ γ ε → Prop :=
  Trace fun s shown s' => Step pool key addr s shown.1 shown.2 s'

end

section
variable [DecidableEq ι] [DecidableEq κ] {pool : Pool α γ ε} {key : ι → κ} {addr : ι → α}
  {s s' s'' : Shared ι κ γ ε} {i : ι} {event : Event κ γ ε}
  {events events' : List (ι × Event κ γ ε)}

/-! ### The map -/

/-- The clients of the map. -/
def Shared.values (s : Shared ι κ γ ε) (key : κ) : Option γ :=
  (s.pool.clients.lookup key).map Entry.client

omit [DecidableEq ι] in
theorem values_eq_none_iff {s : Shared ι κ γ ε} {k : κ} :
    s.values k = none ↔ s.pool.clients.lookup k = none :=
  Option.map_eq_none_iff

theorem values_giveTo (s : Shared ι κ γ ε) (i : ι) (k : κ) (e : Entry γ) (now : Nat) :
    (s.giveTo i k e now).values = Function.update s.values k (some e.client) := by
  funext other
  show ((s.pool.clients.insert k (e.setActivedAt now)).lookup other).map Entry.client = _
  by_cases h : other = k
  · rw [h, Finmap.lookup_insert, Function.update_self]
    rfl
  · rw [Finmap.lookup_insert_of_ne _ h, Function.update_of_ne h]
    rfl

omit [DecidableEq ι] in
theorem values_retain (s : Shared ι κ γ ε) (keep : κ → Entry γ → Bool) (order : KeyOrder κ)
    (phase : ι → Phase γ ε) (cleanupAt : Nat) :
    (Shared.mk ⟨(retain keep (order.order s.pool.clients.keys) s.pool.clients).1, cleanupAt⟩
      phase).values = fun k =>
        if k ∈ (retain keep (order.order s.pool.clients.keys) s.pool.clients).2 then none
        else s.values k := by
  funext k
  show ((retain keep _ s.pool.clients).1.lookup k).map Entry.client = _
  rw [lookup_retain_order, Shared.values]
  simp only [mem_retain_order]
  rcases s.pool.clients.lookup k with _ | e
  · exact (ite_self none).symm
  · rw [Option.filter_some]
    rcases h : keep k e <;> simp [h]

/-- A change of the map gets what a call of the key returns, and drops what a cleanup removes. -/
structure Event.Does (k : κ) (event : Event κ γ ε) (change : OrInsert.Event κ γ) : Prop where
  got : ∀ client, event = .returns client → change.got k = some client
  removes : ∀ keys, change = .dropped keys → event = .removes keys

omit [DecidableEq ι] in
theorem does_nothing {k : κ} (h : ∀ client, event ≠ .returns client) : event.Does k .nothing where
  got client heq := absurd heq (h client)
  removes keys heq := by cases heq

omit [DecidableEq ι] in
theorem does_removes {k : κ} (keys : List κ) :
    (Event.removes keys : Event κ γ ε).Does k (.dropped keys) where
  got client heq := by cases heq
  removes keys heq := by
    cases heq
    rfl

theorem giveTo_found {k : κ} {e : Entry γ} (hlookup : s.pool.clients.lookup k = some e) (i : ι)
    (now : Nat) :
    ∃ change, OrInsert.Step s.values change (s.giveTo i k e now).values ∧
      (Event.returns e.client : Event κ γ ε).Does k change := by
  have hvalue : s.values k = some e.client := by
    rw [Shared.values, hlookup]
    rfl
  refine ⟨.found k e.client, ?_, ⟨fun client heq => ?_, fun keys heq => ?_⟩⟩
  · rw [values_giveTo, ← hvalue, Function.update_eq_self]
    exact .found _ _ hvalue
  · cases heq
    exact if_pos rfl
  · cases heq

theorem giveTo_put {k : κ} (hnone : s.pool.clients.lookup k = none) (i : ι) (e : Entry γ)
    (now : Nat) :
    ∃ change, OrInsert.Step s.values change (s.giveTo i k e now).values ∧
      (Event.returns e.client : Event κ γ ε).Does k change := by
  refine ⟨.put k e.client, ?_, ⟨fun client heq => ?_, fun keys heq => ?_⟩⟩
  · rw [values_giveTo]
    exact .put _ _ (values_eq_none_iff.mpr hnone)
  · cases heq
    exact if_pos rfl
  · cases heq

theorem Step.values (hstep : Step pool key addr s i event s') :
    ∃ change, OrInsert.Step s.values change s'.values ∧ event.Does (key i) change := by
  have hother : ∀ {s'' : Shared ι κ γ ε} {event : Event κ γ ε},
      s''.pool.clients = s.pool.clients → (∀ client, event ≠ .returns client) →
      ∃ change, OrInsert.Step s.values change s''.values ∧ event.Does (key i) change := by
    intro s'' event hclients hevent
    have hsame : s''.values = s.values := by
      unfold Shared.values
      rw [hclients]
    rw [hsame]
    exact ⟨.nothing, .nothing, does_nothing hevent⟩
  cases hstep with
  | call now h => exact hother rfl (by simp)
  | avoid h hearly => exact hother rfl (by simp)
  | due h hlate => exact hother rfl (by simp)
  | count h => exact hother rfl (by simp)
  | retain order clock h =>
    refine ⟨_, ?_, does_removes _⟩
    rw [values_retain]
    exact .drop _
  | finish h => exact hother rfl (by simp)
  | found now h hlookup => exact giveTo_found hlookup i now
  | notFound h hnone => exact hother rfl (by simp)
  | makeFails err h herr => exact hother rfl (by simp)
  | make client h hclient => exact hother rfl (by simp)
  | insert createdAt now h =>
    rename_i client
    rcases hlookup : s.pool.clients.lookup (key i) with _ | e
    · exact giveTo_put hlookup i _ now
    · have hsame : orInsert s.pool.clients (key i) ⟨client, createdAt⟩ = e := by
        rw [orInsert, hlookup]
        rfl
      rw [hsame]
      exact giveTo_found hlookup i now

theorem Runs.values (hruns : Runs pool key addr s events s') :
    ∃ changes, OrInsert.Runs s.values changes s'.values ∧
      ∀ keys, .dropped keys ∈ changes → ∃ i, (i, .removes keys) ∈ events := by
  induction events generalizing s with
  | nil =>
    obtain rfl : s' = s := hruns
    exact ⟨[], rfl, fun keys hmem => absurd hmem List.not_mem_nil⟩
  | cons first events ih =>
    obtain ⟨i, event⟩ := first
    obtain ⟨s₁, hstep, hrest⟩ := hruns
    obtain ⟨change, hchange, hdoes⟩ := hstep.values
    obtain ⟨changes, hchanges, hdropped⟩ := ih hrest
    refine ⟨change :: changes, ⟨_, hchange, hchanges⟩, fun keys hmem => ?_⟩
    rcases List.mem_cons.mp hmem with heq | hmem
    · have hremoves : event = .removes keys := hdoes.removes keys heq.symm
      exact ⟨i, List.mem_cons.mpr (.inl (by rw [hremoves]))⟩
    · obtain ⟨j, hj⟩ := hdropped keys hmem
      exact ⟨j, List.mem_cons_of_mem _ hj⟩

/-! ### The end of a call -/

/-- The call has returned, or failed. -/
def Phase.Ended (phase : Phase γ ε) : Prop :=
  (∃ client, phase = .returned client) ∨ ∃ err, phase = .failed err

/-- The step ends the call. -/
def Event.Ends (event : Event κ γ ε) : Prop :=
  (∃ client, event = .returns client) ∨ ∃ err, event = .fails err

theorem Step.not_ended (hstep : Step pool key addr s i event s') : ¬ (s.phase i).Ended := by
  unfold Phase.Ended
  cases hstep <;> simp [*]

theorem Step.ended (hstep : Step pool key addr s i event s') (hends : event.Ends) :
    (s'.phase i).Ended := by
  have hself : ∀ {phase : Phase γ ε}, phase.Ended → (Function.update s.phase i phase i).Ended := by
    intro phase h
    rwa [Function.update_self]
  rcases hends with ⟨client, rfl⟩ | ⟨err, rfl⟩
  · cases hstep with
    | found now h hlookup => exact hself (.inl ⟨_, rfl⟩)
    | insert createdAt now h => exact hself (.inl ⟨_, rfl⟩)
  · cases hstep with
    | makeFails err h herr => exact hself (.inr ⟨_, rfl⟩)

theorem Step.phase_of_ne (hstep : Step pool key addr s i event s') {j : ι} (hj : j ≠ i) :
    s'.phase j = s.phase j := by
  cases hstep <;> exact Function.update_of_ne hj _ _

theorem Runs.notMem_of_ended (hruns : Runs pool key addr s events s')
    (hended : (s.phase i).Ended) : (i, event) ∉ events := by
  induction events generalizing s with
  | nil => exact List.not_mem_nil
  | cons first events ih =>
    obtain ⟨j, event'⟩ := first
    obtain ⟨s₁, hstep, hrest⟩ := hruns
    have hne : i ≠ j := by
      rintro rfl
      exact hstep.not_ended hended
    rw [List.mem_cons, not_or]
    refine ⟨fun heq => hne (Prod.mk.inj heq).1, ih hrest ?_⟩
    rwa [hstep.phase_of_ne hne]

theorem Runs.ends_once {before after : List (ι × Event κ γ ε)} {event' : Event κ γ ε}
    (hruns : Runs pool key addr s (before ++ (i, event) :: after) s') (hends : event.Ends)
    (hends' : event'.Ends) (hmem : (i, event') ∈ before ++ (i, event) :: after) :
    event' = event := by
  obtain ⟨s₁, hbefore, s₂, hstep, hafter⟩ := Trace.append_iff.mp hruns
  rcases List.mem_append.mp hmem with hmem | hmem
  · obtain ⟨first, rest, rfl⟩ := List.append_of_mem hmem
    obtain ⟨s₀, _, s₀', hstep', hrest⟩ := Trace.append_iff.mp hbefore
    have hlast : Runs pool key addr s₀' (rest ++ [(i, event)]) s₂ :=
      Trace.append_iff.mpr ⟨s₁, hrest, s₂, hstep, rfl⟩
    exact absurd (List.mem_append_right rest (List.mem_singleton.mpr rfl))
      (hlast.notMem_of_ended (hstep'.ended hends'))
  · rcases List.mem_cons.mp hmem with heq | hmem
    · exact (Prod.mk.inj heq).2
    · exact absurd hmem (Runs.notMem_of_ended hafter (hstep.ended hends))

theorem Step.returns_of_new (hstep : Step pool key addr s i event s') {k : κ}
    (hbefore : s.values k = none) (hafter : s'.values k ≠ none) :
    ∃ client, event = .returns client := by
  cases hstep with
  | found now h hlookup => exact ⟨_, rfl⟩
  | insert createdAt now h => exact ⟨_, rfl⟩
  | retain order clock h =>
    refine absurd ?_ hafter
    simp only [values_retain, hbefore, ite_self]
  | call now h => exact absurd hbefore hafter
  | avoid h hearly => exact absurd hbefore hafter
  | due h hlate => exact absurd hbefore hafter
  | count h => exact absurd hbefore hafter
  | finish h => exact absurd hbefore hafter
  | notFound h hnone => exact absurd hbefore hafter
  | makeFails err h herr => exact absurd hbefore hafter
  | make client h hclient => exact absurd hbefore hafter

/-! ### A call that no other one interrupts -/

/-- Where a call ends. -/
def Answer.phase : Answer γ ε → Phase γ ε
  | reused client | created client => .returned client
  | failed err => .failed err

omit [DecidableEq κ] in
theorem goto_goto (s : Shared ι κ γ ε) (i : ι) (phase phase' : Phase γ ε) :
    (s.goto i phase).goto i phase' = s.goto i phase' := by
  unfold Shared.goto
  rw [Function.update_idem]

omit [DecidableEq κ] in
@[simp] theorem phase_goto (s : Shared ι κ γ ε) (i : ι) (phase : Phase γ ε) :
    (s.goto i phase).phase i = phase :=
  Function.update_self _ _ _

theorem cleanup_runs (pool : Pool α γ ε) (key : ι → κ) (addr : ι → α) (order : KeyOrder κ)
    (now : Nat) (h : s.phase i = .called) :
    ∃ events, Runs pool key addr s events
      { s.goto i .looking with pool := (pool.cleanupIdleEntries order now s.pool).1 } := by
  have hcall : Step pool key addr s i .other (s.goto i (.cleaning now)) := .call now h
  unfold cleanupIdleEntries
  by_cases hearly : pool.avoidsCleanup now s.pool.cleanupAt = true
  · rw [if_pos hearly]
    refine ⟨[(i, .other), (i, .other)], _, hcall, _, .avoid (phase_goto _ _ _) hearly, ?_⟩
    rw [goto_goto]
    rfl
  · rw [if_neg hearly]
    refine ⟨[(i, .other), (i, .other), (i, .other), (i, .removes _), (i, .other)], _, hcall, _,
      .due (phase_goto _ _ _) (Bool.eq_false_of_not_eq_true hearly), _,
      .count (phase_goto _ _ _), _, .retain order (fun _ => now) (phase_goto _ _ _), _,
      .finish (phase_goto _ _ _), ?_⟩
    simp only [Shared.goto, Function.update_idem]
    rfl

theorem getOrCreate_runs (pool : Pool α γ ε) (key : ι → κ) (addr : ι → α) {call : Call κ α γ ε}
    (hkey : call.key = key i) (hmade : pool.factory (addr i) call.made)
    (h : s.phase i = .looking) :
    ∃ events, Runs pool key addr s events
      ⟨(getOrCreate call s.pool).1,
        Function.update s.phase i (getOrCreate call s.pool).2.phase⟩ := by
  unfold getOrCreate
  rw [hkey]
  rcases hlookup : s.pool.clients.lookup (key i) with _ | e
  · have hnotFound : Step pool key addr s i .other (s.goto i .making) := .notFound h hlookup
    rcases hresult : call.made with err | client
    · rw [hresult] at hmade
      refine ⟨[(i, .other), (i, .fails err)], _, hnotFound, _,
        .makeFails err (phase_goto _ _ _) hmade, ?_⟩
      rw [goto_goto]
      rfl
    · rw [hresult] at hmade
      refine ⟨[(i, .other), (i, .other), (i, .returns _)], _, hnotFound, _,
        .make client (phase_goto _ _ _) hmade, _, .insert call.now call.now (phase_goto _ _ _), ?_⟩
      simp only [Shared.giveTo, Shared.goto, Function.update_idem]
      rfl
  · exact ⟨[(i, .returns e.client)], _, .found call.now h hlookup, rfl⟩

/-- **A call that no other one interrupts is `entry`.** -/
theorem entry_runs (pool : Pool α γ ε) (key : ι → κ) (addr : ι → α) {call : Call κ α γ ε}
    (hkey : call.key = key i) (hmade : pool.factory (addr i) call.made)
    (h : s.phase i = .called) :
    ∃ events, Runs pool key addr s events
      ⟨(pool.entry call s.pool).1,
        Function.update s.phase i (pool.entry call s.pool).2.phase⟩ := by
  obtain ⟨cleanup, hcleanup⟩ := cleanup_runs pool key addr call.order call.now h
  obtain ⟨rest, hrest⟩ := getOrCreate_runs pool key addr hkey hmade
    (s := { s.goto i .looking with
      pool := (pool.cleanupIdleEntries call.order call.now s.pool).1 }) (phase_goto s i .looking)
  refine ⟨cleanup ++ rest, Trace.append_iff.mpr ⟨_, hcleanup, ?_⟩⟩
  have hphase : ∀ phase : Phase γ ε,
      Function.update (s.goto i .looking).phase i phase = Function.update s.phase i phase :=
    fun phase => Function.update_idem _ _ _
  rw [hphase] at hrest
  exact hrest

/-! ### Sharing -/

/-- Concurrent calls share one client for each key. -/
structure SharesClients (pool : Pool α γ ε) (key : ι → κ) (addr : ι → α)
    (start : Shared ι κ γ ε) (events : List (ι × Event κ γ ε)) (s : Shared ι κ γ ε) : Prop where
  /-- the map holds one client for a key -/
  single : ∀ (k : κ) (e e' : Entry γ), ⟨k, e⟩ ∈ s.pool.clients.entries →
    ⟨k, e'⟩ ∈ s.pool.clients.entries → e = e'
  /-- a call returns the client that the map holds for its key then -/
  held : ∀ i client s', Step pool key addr s i (.returns client) s' →
    s'.phase i = .returned client ∧
      ∃ e, s'.pool.clients.lookup (key i) = some e ∧ e.client = client
  /-- two calls of a key return the same client, unless the key is removed in between -/
  same : ∀ before i client middle j client' after,
    events = before ++ (i, .returns client) :: middle ++ (j, .returns client') :: after →
    key i = key j → (∀ l keys, (l, .removes keys) ∈ middle → key i ∉ keys) → client = client'
  /-- a call that fails puts nothing into the map -/
  failed : ∀ i err, (i, .fails err) ∈ events → ∀ before event after s₁ s₂,
    events = before ++ (i, event) :: after → Runs pool key addr start before s₁ →
    Step pool key addr s₁ i event s₂ → Runs pool key addr s₂ after s →
    ∀ k, s₁.pool.clients.lookup k = none → s₂.pool.clients.lookup k = none

theorem Step.held {client : γ} (hstep : Step pool key addr s i (.returns client) s') :
    s'.phase i = .returned client ∧
      ∃ e, s'.pool.clients.lookup (key i) = some e ∧ e.client = client := by
  cases hstep with
  | found now h hlookup => exact ⟨Function.update_self _ _ _, _, Finmap.lookup_insert _, rfl⟩
  | insert createdAt now h => exact ⟨Function.update_self _ _ _, _, Finmap.lookup_insert _, rfl⟩

/-- **Concurrent calls share one client for each key**, in every run. -/
theorem pool_shares_clients (pool : Pool α γ ε) (key : ι → κ) (addr : ι → α) (createdAt : Nat)
    (events : List (ι × Event κ γ ε)) (s : Shared ι κ γ ε)
    (hruns : Runs pool key addr (.new createdAt) events s) :
    SharesClients pool key addr (.new createdAt) events s where
  single k e e' he he' := by
    have hlookup := Finmap.mem_lookup_iff.mpr he
    have hlookup' := Finmap.mem_lookup_iff.mpr he'
    exact Option.some.inj (hlookup.symm.trans hlookup')
  held i client s' hstep := hstep.held
  same before i client middle j client' after hevents hkey hkeeps := by
    rw [hevents] at hruns
    obtain ⟨s₃, hfirst, s₄, hlast, _⟩ := Trace.append_iff.mp hruns
    obtain ⟨s₁, _, s₂, hstep, hmiddle⟩ := Trace.append_iff.mp hfirst
    obtain ⟨change, hchange, hdoes⟩ := hstep.values
    obtain ⟨changes, hchanges, hdropped⟩ := Runs.values hmiddle
    obtain ⟨change', hchange', hdoes'⟩ := hlast.values
    have hkept : OrInsert.Keeps (key i) changes := by
      intro keys hmem
      obtain ⟨l, hl⟩ := hdropped keys hmem
      exact hkeeps l keys hl
    have hgot : change'.got (key i) = some client' := by
      rw [hkey]
      exact hdoes'.got client' rfl
    exact (OrInsert.Runs.got_eq hchange hchanges hchange' hkept (hdoes.got client rfl) hgot).symm
  failed i err hmem before event after s₁ s₂ hevents hbefore hstep hafter k hnone := by
    by_contra hnew
    have hvalue : s₂.values k ≠ none := fun h => hnew (values_eq_none_iff.mp h)
    obtain ⟨client, rfl⟩ := hstep.returns_of_new (values_eq_none_iff.mpr hnone) hvalue
    have hwhole : Runs pool key addr (.new createdAt) (before ++ (i, .returns client) :: after) s :=
      Trace.append_iff.mpr ⟨s₁, hbefore, s₂, hstep, hafter⟩
    rw [hevents] at hmem
    cases hwhole.ends_once (.inl ⟨client, rfl⟩) (.inr ⟨err, rfl⟩) hmem

end

/-- Two calls of one key that both find nothing there, and both have a client made, return the one
that is inserted first. -/
theorem pool_shares_clients_two : ∃ s, SharesClients (ι := Bool) (ε := Unit)
    (⟨fun _ _ => True, 1, 600⟩ : Pool Unit Nat Unit) (fun _ => ()) (fun _ => ()) (.new 0)
    [(false, .other), (true, .other), (false, .other), (true, .other), (false, .other),
      (true, .other), (false, .other), (true, .other), (true, .returns 2), (false, .returns 2)] s :=
  ⟨_, pool_shares_clients _ _ _ 0 _ _
    ⟨_, .call 0 rfl, _, .call 0 rfl, _, .avoid rfl rfl, _, .avoid rfl rfl, _, .notFound rfl rfl, _,
      .notFound rfl rfl, _, .make 1 rfl trivial, _, .make 2 rfl trivial, _, .insert 1 1 rfl, _,
      .insert 2 2 rfl, rfl⟩⟩

end DragonflySdk.Pool
