import DragonflySdk.Foundation.HotRefresh

/-!
# Data refreshed in the background

A component that holds data is built by a first refresh of it, and from then on a loop refreshes it,
until it is told to stop. The loop is started after the first refresh has returned, and makes one
refresh at a time, so that none of them finds the lock taken (`Life.Kept.not_skipped`): each of them
asks, and what is held is the last answer that could be read, whatever refreshes failed since
(`Life.Kept.written_ne_nil`).

A loop that is told to stop by a flag finds it set whenever it waits again (`Life.stopping_of_stop`). One
that has to be listening does not hear it during a refresh, nor if it turns to the next one first: it
returns only when told since its last refresh (`Life.exists_stop`).
-/

namespace DragonflySdk.Foundation.HotRefresh

/-- Who refreshes. -/
inductive Refresher
  | builder
  | loop
deriving DecidableEq

/-- How far a component has come. -/
inductive Phase
  | starting
  | running
  | failed
  /-- the loop has returned -/
  | returned
deriving DecidableEq

/-- The data, how far the component has come, and whether the loop has been told to stop. -/
structure Life (β α κ ρ : Type*) where
  hot : State Refresher β α κ ρ
  phase : Phase
  stopping : Bool

inductive LifeEvent (β ε : Type*)
  | refresh (event : Event Refresher β ε)
  | stop
  | returned

/-- What a step of the first refresh leads to. -/
def Phase.next {β ε : Type*} : Event Refresher β ε → Phase
  | .left _ | .skipped _ => .running
  | .failed .. => .failed
  | _ => .starting

variable {β ε α κ ρ : Type*}

/-- Before the first refresh. -/
def Life.new (data : κ) (index : ρ) : Life β α κ ρ := ⟨init data index, .starting, false⟩

def Stage.isIdle : Stage β α ρ → Bool
  | .idle => true
  | _ => false

/-- Whether the loop waits for its next refresh or to be told to stop. -/
def Life.waits (l : Life β α κ ρ) : Bool :=
  decide (l.phase = .running) && (l.hot.stage .loop).isIdle

def Event.enters {ι : Type*} : Event ι β ε → Bool
  | .entered _ => true
  | _ => false

variable (keeps : Bool) (p : HotRefresh β ε α κ ρ)

/-- One step of the first refresh or of the loop, which may be told to stop at any time, and more than
once, and looks whether to only between its refreshes. With `keeps` it has been told by something that
stays, as a channel that is closed. Without, by a signal that is lost on whoever is not listening: the
loop makes a new listener of `tokio` each time it waits, which hears only the signals from then on. -/
inductive Life.Step : Life β α κ ρ → LifeEvent β ε → Life β α κ ρ → Prop
  | build {l hot} (event : Event Refresher β ε) (hphase : l.phase = .starting)
      (hcaller : event.caller = .builder) (hstep : p.Step l.hot event hot) :
      Step l (.refresh event) ⟨hot, Phase.next event, l.stopping⟩
  | tick {l hot} (event : Event Refresher β ε) (hphase : l.phase = .running)
      (hcaller : event.caller = .loop) (hstep : p.Step l.hot event hot) :
      Step l (.refresh event)
        { l with hot := hot, stopping := l.stopping && (keeps || !event.enters) }
  | stop {l} : Step l .stop { l with stopping := l.stopping || (keeps || l.waits) }
  | returns {l} (hphase : l.phase = .running) (hstopping : l.stopping = true)
      (hidle : l.hot.stage .loop = .idle) : Step l .returned { l with phase := .returned }

/-- The steps of the refreshes. -/
def refreshes (events : List (LifeEvent β ε)) : List (Event Refresher β ε) :=
  events.filterMap fun
    | .refresh event => some event
    | _ => none

variable {keeps p} {l l' : Life β α κ ρ} {events : List (LifeEvent β ε)} {data : κ} {index : ρ}

theorem refreshes_append (events events' : List (LifeEvent β ε)) :
    refreshes (events ++ events') = refreshes events ++ refreshes events' :=
  List.filterMap_append

variable (p data index) in
/-- What holds in the life of a component that starts with the data and the index. -/
structure Life.Kept (events : List (LifeEvent β ε)) (l : Life β α κ ρ) : Prop where
  inv : p.Inv l.hot
  trace : Trace p.Step (init data index) (refreshes events) l.hot
  loop_idle : l.phase = .starting → l.hot.stage .loop = .idle
  builder_idle : l.phase ≠ .starting → l.hot.stage .builder = .idle
  /-- No refresh finds the lock taken. -/
  not_skipped : ∀ i, .skipped i ∉ refreshes events
  wrote_iff : l.phase = .starting →
    (written (refreshes events) ≠ [] ↔ l.hot.stage .builder = .wrote)
  written_eq_nil : l.phase = .failed → written (refreshes events) = []
  written_ne_nil : l.phase = .running ∨ l.phase = .returned → written (refreshes events) ≠ []

theorem Life.Kept.new : Life.Kept p data index [] (Life.new data index) where
  inv := inv_init data index
  trace := rfl
  loop_idle _ := rfl
  builder_idle h := absurd rfl h
  not_skipped _ h := nomatch h
  wrote_iff _ := iff_of_false (fun h => h rfl) nofun
  written_eq_nil h := nomatch h
  written_ne_nil h := nomatch h

theorem not_skipped_of_idle {s s' : State Refresher β α κ ρ} {i : Refresher} (hinv : p.Inv s)
    (hidle : ∀ j, j ≠ i → s.stage j = .idle) : ¬ p.Step s (.skipped i) s' := by
  intro hstep
  cases hstep with
  | skip i hi hlocked =>
    obtain ⟨j, hj⟩ := hinv.locked_iff.mp hlocked
    by_cases hji : j = i
    · exact hj (hji ▸ hi)
    · exact hj (hidle j hji)

theorem Life.Kept.refresh {hot : State Refresher β α κ ρ} {event : Event Refresher β ε}
    (h : Life.Kept p data index events l) (hstep : p.Step l.hot event hot)
    (hidle : ∀ j, j ≠ event.caller → l.hot.stage j = .idle) :
    p.Inv hot ∧ Trace p.Step (init data index) (refreshes (events ++ [.refresh event])) hot ∧
      (∀ i, .skipped i ∉ refreshes (events ++ [.refresh event])) ∧
      written (refreshes (events ++ [.refresh event])) =
        written (refreshes events) ++ event.written?.toList := by
  have hrefreshes : refreshes (events ++ [.refresh event]) = refreshes events ++ [event] :=
    refreshes_append events _
  rw [hrefreshes]
  refine ⟨hstep.inv h.inv, Trace.concat_iff.mpr ⟨l.hot, h.trace, hstep⟩, fun i hmem => ?_, ?_⟩
  · rcases List.mem_append.mp hmem with hmem | hmem
    · exact h.not_skipped i hmem
    · obtain rfl := List.mem_singleton.mp hmem
      exact not_skipped_of_idle h.inv hidle hstep
  · exact filterMap_concat _ _ event

theorem Step.next_phase {s s' : State Refresher β α κ ρ} {event : Event Refresher β ε}
    (hstep : p.Step s event s') (hskip : ∀ i, event ≠ .skipped i) :
    (Phase.next event = .starting ∧ s.stage event.caller ≠ .wrote ∧
        (s'.stage event.caller = .wrote ↔ event.written?.toList ≠ [])) ∨
      (Phase.next event = .running ∧ s.stage event.caller = .wrote ∧
        s'.stage event.caller = .idle ∧ event.written? = none) ∨
      (Phase.next event = .failed ∧ s.stage event.caller ≠ .wrote ∧
        s'.stage event.caller = .idle ∧ event.written? = none) := by
  have hother : ∀ {i stage}, s.stage i = stage → stage ≠ .wrote → s.stage i ≠ .wrote :=
    fun heq hne => heq ▸ hne
  have hgoto : ∀ {i : Refresher} {stage : Stage β α ρ} {locked}, stage ≠ .wrote →
      ((s.goto i stage locked).stage i = .wrote ↔ ([] : List β) ≠ []) := fun {i stage locked} hne =>
    iff_of_false (by rw [goto_stage_self]; exact hne) fun h => h rfl
  cases hstep with
  | skip i => exact absurd rfl (hskip i)
  | enter i hi => exact .inl ⟨rfl, hother hi nofun, hgoto nofun⟩
  | fail i answer err hi =>
    exact .inr (.inr ⟨rfl, hother hi nofun, goto_stage_self s i .idle false, rfl⟩)
  | answer i answer arg hi => exact .inl ⟨rfl, hother hi nofun, hgoto nofun⟩
  | keep i answer arg hi =>
    exact .inl ⟨rfl, hother hi nofun, iff_of_true (write_stage_self s i _ _) nofun⟩
  | differ i answer arg hi => exact .inl ⟨rfl, hother hi nofun, hgoto nofun⟩
  | build i answer arg index hi => exact .inl ⟨rfl, hother hi nofun, hgoto nofun⟩
  | write i answer arg index hi =>
    exact .inl ⟨rfl, hother hi nofun, iff_of_true (write_stage_self s i _ _) nofun⟩
  | leave i hi => exact .inr (.inl ⟨rfl, hi, goto_stage_self s i .idle false, rfl⟩)

theorem Life.Kept.build {hot : State Refresher β α κ ρ} {event : Event Refresher β ε}
    (h : Life.Kept p data index events l) (hphase : l.phase = .starting)
    (hcaller : event.caller = .builder) (hstep : p.Step l.hot event hot) :
    Life.Kept p data index (events ++ [.refresh event]) ⟨hot, Phase.next event, l.stopping⟩ := by
  have hloop : l.hot.stage .loop = .idle := h.loop_idle hphase
  have hothers : ∀ j, j ≠ event.caller → l.hot.stage j = .idle := by
    rw [hcaller]
    rintro (_ | _) hne
    · exact absurd rfl hne
    · exact hloop
  obtain ⟨hinv, htrace, hskipped, hwritten⟩ := h.refresh hstep hothers
  have hwrote := h.wrote_iff hphase
  have hloop' : hot.stage .loop = .idle := by
    rw [hstep.stage_of_ne (by rw [hcaller]; nofun), hloop]
  have hskip : ∀ i, event ≠ .skipped i := fun i heq =>
    not_skipped_of_idle h.inv (heq ▸ hothers) (heq ▸ hstep)
  have hnext := hstep.next_phase hskip
  rw [hcaller] at hnext
  obtain ⟨hnext, hbefore, hafter⟩ | ⟨hnext, hbefore, hafter, hnone⟩ |
    ⟨hnext, hbefore, hafter, hnone⟩ := hnext
  · have hnil : written (refreshes events) = [] := not_not.mp fun hne => hbefore (hwrote.mp hne)
    refine ⟨hinv, htrace, fun _ => hloop', fun hne => absurd hnext hne, hskipped, fun _ => ?_, ?_, ?_⟩
    · rw [hwritten, hnil, List.nil_append]
      exact hafter.symm
    · exact fun hfailed => nomatch hnext.symm.trans hfailed
    · exact fun hor => hor.elim (fun hrunning => nomatch hnext.symm.trans hrunning)
        fun hover => nomatch hnext.symm.trans hover
  · refine ⟨hinv, htrace, fun _ => hloop', fun _ => hafter, hskipped, ?_, ?_, fun _ => ?_⟩
    · exact fun hstarting => nomatch hnext.symm.trans hstarting
    · exact fun hfailed => nomatch hnext.symm.trans hfailed
    · rw [hwritten]
      exact List.append_ne_nil_of_left_ne_nil (hwrote.mpr hbefore) _
  · have hnil : written (refreshes events) = [] := not_not.mp fun hne => hbefore (hwrote.mp hne)
    refine ⟨hinv, htrace, fun _ => hloop', fun _ => hafter, hskipped, ?_, fun _ => ?_, ?_⟩
    · exact fun hstarting => nomatch hnext.symm.trans hstarting
    · rw [hwritten, hnil, hnone]
      rfl
    · exact fun hor => hor.elim (fun hrunning => nomatch hnext.symm.trans hrunning)
        fun hover => nomatch hnext.symm.trans hover

theorem Life.Kept.idle_of_ne_loop (h : Life.Kept p data index events l) (hphase : l.phase = .running) :
    ∀ j, j ≠ .loop → l.hot.stage j = .idle := by
  rintro (_ | _) hne
  · exact h.builder_idle (by rw [hphase]; nofun)
  · exact absurd rfl hne

theorem Life.Kept.tick {hot : State Refresher β α κ ρ} {event : Event Refresher β ε}
    (h : Life.Kept p data index events l) (hphase : l.phase = .running)
    (hcaller : event.caller = .loop) (hstep : p.Step l.hot event hot) :
    Life.Kept p data index (events ++ [.refresh event])
      { l with hot := hot, stopping := l.stopping && (keeps || !event.enters) } := by
  have hothers := h.idle_of_ne_loop hphase
  obtain ⟨hinv, htrace, hskipped, hwritten⟩ := h.refresh hstep (hcaller ▸ hothers)
  have hbuilder' : hot.stage .builder = .idle := by
    rw [hstep.stage_of_ne (by rw [hcaller]; nofun), hothers .builder nofun]
  refine ⟨hinv, htrace, ?_, fun _ => hbuilder', hskipped, ?_, ?_, fun _ => ?_⟩
  · exact fun hstarting => nomatch hphase.symm.trans hstarting
  · exact fun hstarting => nomatch hphase.symm.trans hstarting
  · exact fun hfailed => nomatch hphase.symm.trans hfailed
  · rw [hwritten]
    exact List.append_ne_nil_of_left_ne_nil (h.written_ne_nil (.inl hphase)) _

theorem Life.Step.kept {event : LifeEvent β ε} (hstep : Life.Step keeps p l event l')
    (h : Life.Kept p data index events l) : Life.Kept p data index (events ++ [event]) l' := by
  have hquiet : ∀ event : LifeEvent β ε, refreshes [event] = [] →
      refreshes (events ++ [event]) = refreshes events := fun event hnil => by
    rw [refreshes_append, hnil, List.append_nil]
  cases hstep with
  | build event hphase hcaller hstep => exact h.build hphase hcaller hstep
  | tick event hphase hcaller hstep => exact h.tick hphase hcaller hstep
  | stop =>
    have hsame := hquiet .stop rfl
    exact ⟨h.inv, hsame ▸ h.trace, h.loop_idle, h.builder_idle, hsame ▸ h.not_skipped,
      hsame ▸ h.wrote_iff, hsame ▸ h.written_eq_nil, hsame ▸ h.written_ne_nil⟩
  | returns hphase hstopping hidle =>
    have hsame := hquiet .returned rfl
    exact ⟨h.inv, hsame ▸ h.trace, nofun, fun _ => h.builder_idle (by rw [hphase]; nofun),
      hsame ▸ h.not_skipped, nofun, nofun, fun _ => hsame ▸ h.written_ne_nil (.inl hphase)⟩

/-- **All that happens in the life of the component.** -/
theorem Life.kept (h : Trace (Life.Step keeps p) (Life.new data index) events l) :
    Life.Kept p data index events l :=
  @Trace.keeps _ _ _ _ _ _ (Life.Kept p data index) h .new fun _ _ _ _ hkept hstep => hstep.kept hkept

/-- **When the loop has returned, nothing changes any more**, nor when the first refresh has failed. -/
theorem Life.hot_eq (h : Trace (Life.Step keeps p) l events l')
    (hphase : l.phase = .returned ∨ l.phase = .failed) : l'.hot = l.hot := by
  refine (@Trace.keeps _ _ _ _ _ _ (fun _ (l' : Life β α κ ρ) =>
    (l'.phase = .returned ∨ l'.phase = .failed) ∧ l'.hot = l.hot) h ⟨hphase, rfl⟩ ?_).2
  rintro events l₁ event l₂ ⟨hphase₁, hhot⟩ hstep
  cases hstep with
  | build event hphase hcaller hstep => rcases hphase₁ with h₁ | h₁ <;> cases hphase.symm.trans h₁
  | tick event hphase hcaller hstep => rcases hphase₁ with h₁ | h₁ <;> cases hphase.symm.trans h₁
  | stop => exact ⟨hphase₁, hhot⟩
  | returns hphase hstopping hidle => rcases hphase₁ with h₁ | h₁ <;> cases hphase.symm.trans h₁

/-! ### Being told to stop -/

theorem Life.stopping_of_stop (h : Trace (Life.Step true p) (Life.new data index) events l)
    (hstop : .stop ∈ events) : l.stopping = true := by
  revert hstop
  refine @Trace.keeps _ _ _ _ _ _ (fun events (l : Life β α κ ρ) =>
    .stop ∈ events → l.stopping = true) h (fun hmem => nomatch hmem) ?_
  intro events l event l' hkept hstep hmem
  have hbefore : event ≠ .stop → l.stopping = true := fun hne =>
    hkept ((List.mem_append.mp hmem).resolve_right fun hlast => hne (List.mem_singleton.mp hlast).symm)
  cases hstep with
  | build event => exact hbefore nofun
  | tick event => rw [hbefore nofun]; rfl
  | stop => exact Bool.or_true _
  | returns => exact hbefore nofun

variable (p) in
/-- A loop that has heard to stop has waited since. -/
structure Life.Heard (events : List (LifeEvent β ε)) (l : Life β α κ ρ) : Prop where
  waited : l.stopping = true → l.hot.stage .loop = .idle ∧ l.phase ≠ .starting
  returned_stopping : l.phase = .returned → l.stopping = true
  exists_stop : l.stopping = true → ∃ x y, events = x ++ .stop :: y ∧ refreshes y = []

theorem Stage.isIdle_iff {stage : Stage β α ρ} : stage.isIdle = true ↔ stage = .idle := by
  cases stage <;> simp [Stage.isIdle]

theorem Step.enters_of_idle {s s' : State Refresher β α κ ρ} {event : Event Refresher β ε}
    (hstep : p.Step s event s') (hidle : s.stage event.caller = .idle)
    (hskip : ∀ i, event ≠ .skipped i) : event.enters = true := by
  cases hstep with
  | skip i => exact absurd rfl (hskip i)
  | enter i hi hfree => rfl
  | fail i _ _ hi | answer i _ _ hi | keep i _ _ hi | differ i _ _ hi | build i _ _ _ hi
  | write i _ _ _ hi | leave i hi => cases hi.symm.trans hidle

theorem Phase.next_ne_returned (event : Event Refresher β ε) : Phase.next event ≠ .returned := by
  cases event <;> nofun

theorem Life.Step.heard {event : LifeEvent β ε} (hstep : Life.Step false p l event l')
    (hkept : Life.Kept p data index events l) (h : Life.Heard events l) :
    Life.Heard (events ++ [event]) l' := by
  have hlater : ∀ {event : LifeEvent β ε}, refreshes [event] = [] → l.stopping = true →
      ∃ x y, events ++ [event] = x ++ .stop :: y ∧ refreshes y = [] := by
    intro event hnil hstopping
    obtain ⟨x, y, rfl, hy⟩ := h.exists_stop hstopping
    refine ⟨x, y ++ [event], by rw [List.append_assoc, List.cons_append], ?_⟩
    rw [refreshes_append, hy, hnil]
    rfl
  cases hstep with
  | build event hphase =>
    have hnot : l.stopping ≠ true := fun hstopping => (h.waited hstopping).2 hphase
    exact ⟨fun hstopping => absurd hstopping hnot, fun hover => absurd hover (Phase.next_ne_returned event),
      fun hstopping => absurd hstopping hnot⟩
  | @tick hot event hphase hcaller hstep =>
    -- the next refresh is entered, and what was heard is forgotten
    have hnot : (l.stopping && (false || !event.enters)) ≠ true := by
      intro hand
      obtain ⟨hstopping, henters⟩ := (Bool.and_eq_true _ _).mp hand
      have hidle : l.hot.stage event.caller = .idle := hcaller ▸ (h.waited hstopping).1
      have hskip : ∀ i, event ≠ .skipped i := by
        rintro i rfl
        obtain rfl : i = .loop := hcaller
        exact not_skipped_of_idle hkept.inv (hkept.idle_of_ne_loop hphase) hstep
      rw [hstep.enters_of_idle hidle hskip] at henters
      cases henters
    exact ⟨fun hstopping => absurd hstopping hnot, fun hover => (nomatch hphase.symm.trans hover),
      fun hstopping => absurd hstopping hnot⟩
  | stop =>
    have hor : (l.stopping || (false || l.waits)) = true → l.stopping = true ∨ l.waits = true :=
      (Bool.or_eq_true _ _).mp
    have hwaits : l.waits = true → l.phase = .running ∧ l.hot.stage .loop = .idle := fun hwaits =>
      ⟨of_decide_eq_true ((Bool.and_eq_true _ _).mp hwaits).1,
        Stage.isIdle_iff.mp ((Bool.and_eq_true _ _).mp hwaits).2⟩
    refine ⟨fun hstopping => ?_, fun hover => ?_, fun hstopping => ?_⟩
    · rcases hor hstopping with hstopping | hwaiting
      · exact h.waited hstopping
      · exact ⟨(hwaits hwaiting).2, by rw [(hwaits hwaiting).1]; nofun⟩
    · exact (Bool.or_eq_true _ _).mpr (.inl (h.returned_stopping hover))
    · rcases hor hstopping with hstopping | hwaiting
      · exact hlater rfl hstopping
      · exact ⟨events, [], rfl, rfl⟩
  | returns hphase hstopping hidle =>
    exact ⟨fun _ => ⟨hidle, nofun⟩, fun _ => hstopping, hlater rfl⟩

theorem Life.exists_stop (h : Trace (Life.Step false p) (Life.new data index) events l)
    (hover : l.phase = .returned) : ∃ x y, events = x ++ .stop :: y ∧ refreshes y = [] := by
  have hnew : Life.Heard ([] : List (LifeEvent β ε)) (Life.new data index : Life β α κ ρ) :=
    ⟨nofun, nofun, nofun⟩
  have hheard := (@Trace.keeps _ _ _ _ _ _ (fun events l => Life.Kept p data index events l ∧
    Life.Heard events l) h ⟨.new, hnew⟩ fun _ _ _ _ hboth hstep =>
      ⟨hstep.kept hboth.1, hstep.heard hboth.1 hboth.2⟩).2
  exact hheard.exists_stop (hheard.returned_stopping hover)

theorem Life.Step.eq_of_stop (hstep : Life.Step false p l .stop l')
    (hinside : l.hot.stage .loop ≠ .idle) : l' = l := by
  cases hstep with
  | stop =>
    have hwaits : l.waits = false := by
      unfold Life.waits
      rw [Bool.and_eq_false_iff]
      exact .inr (Bool.eq_false_iff.mpr fun hidle => hinside (Stage.isIdle_iff.mp hidle))
    rw [hwaits, Bool.or_false, Bool.or_false]

end DragonflySdk.Foundation.HotRefresh
