import DragonflySdk.Foundation.Places
import DragonflySdk.Foundation.Retry
import DragonflySdk.Foundation.Trace

/-!
# Circuit breakers

Every target has a breaker, which may open when a failure of the target is recorded, stays open for
a while, and closes when an answer is recorded (`Breaker`). A request selects candidates, looks at
the breaker of one after another, and tries those it found closed in turn, in some order, until an
attempt ends it or no more are allowed. What an attempt shows of its target is recorded while the
attempt is under way. Any number of requests do so at once, step by step.

An open breaker keeps out the requests that had not found it closed before: as long as it is open
and no answer is recorded, all attempts at its target are made by the others, and by these no more
than they had left (`sheds_of_trace`). Each request by itself makes the attempts of a loop over its
targets (`inv_of_trace`), and what the breakers are is what was recorded (`breakers_eq_foldl`).
-/

namespace DragonflySdk.Foundation

/-- Breakers of targets. -/
structure Breaker (E : Type) where
  State : Type
  cooldown : Nat
  failed : State → (now : Nat) → E → State
  answered : State → E → State
  /-- when the breaker of a target was opened last, unless it has closed again -/
  openedAt : State → E → Option Nat
  cooldown_pos : 0 < cooldown
  openedAt_failed_self : ∀ b now e,
    openedAt (failed b now e) e = some now ∨ openedAt (failed b now e) e = openedAt b e
  openedAt_failed_ne : ∀ b now e e', e' ≠ e → openedAt (failed b now e) e' = openedAt b e'
  openedAt_answered_self : ∀ b e, openedAt (answered b e) e = none
  openedAt_answered_ne : ∀ b e e', e' ≠ e → openedAt (answered b e) e' = openedAt b e'

/-- What is recorded of a target. -/
inductive Recorded
  | answered | failed
deriving DecidableEq, Repr

namespace Breaker

variable {E : Type} (breaker : Breaker E)

def isOpen (b : breaker.State) (now : Nat) (e : E) : Bool :=
  match breaker.openedAt b e with
  | some openedAt => now - openedAt < breaker.cooldown
  | none => false

def record (b : breaker.State) (now : Nat) (e : E) : Recorded → breaker.State
  | .answered => breaker.answered b e
  | .failed => breaker.failed b now e

/-- How requests `ρ` select candidates, and what their attempts, which come to an `α`, mean. -/
structure Client (E S ρ α : Type) where
  /-- how many attempts a request may make -/
  limit : Nat
  limit_pos : 0 < limit
  Selects : S → ρ → List E → Prop
  recorded : ρ → E → α → List Recorded
  /-- no attempt is made after it -/
  ends : ρ → E → α → Bool

/-- How far a request has come. -/
inductive Progress (E α : Type)
  | looking (unchecked found : List E)
  | trying (targets : List E) (made : Nat)
  | attempting (targets : List E) (made : Nat) (e : E) (outcome : α) (unrecorded : List Recorded)
  | settled (targets : List E)

/-- A request on its way, with the candidates it has selected. -/
structure Flight (E ρ α : Type) where
  request : ρ
  candidates : List E
  progress : Progress E α

/-- What candidates are selected from, the breakers, the clock, and the requests in the order they
came. -/
structure Traffic (S ρ α : Type) where
  shared : S
  breakers : breaker.State
  now : Nat
  flights : List (Flight E ρ α)

/-- What a step shows: that a request makes an attempt, or that something is recorded. -/
inductive Event (E ρ α : Type)
  | sent (i : Nat) (request : ρ) (target : E) (outcome : α)
  | noted (now : Nat) (target : E) (recorded : Recorded)
  | other

variable {breaker} {S ρ α : Type} (client : Client E S ρ α)

/-- One step, of a request, of the clock, or of what candidates are selected from. -/
inductive Step : Traffic breaker S ρ α → Event E ρ α → Traffic breaker S ρ α → Prop
  | tick {s} (now : Nat) (hnow : s.now ≤ now) : Step s .other { s with now := now }
  | change {s} (shared : S) : Step s .other { s with shared := shared }
  | select {s} (request : ρ) (candidates : List E)
      (hselects : client.Selects s.shared request candidates) :
      Step s .other
        { s with flights := s.flights ++ [⟨request, candidates, .looking candidates []⟩] }
  | check {s} (i : Nat) (request : ρ) (candidates : List E) (e : E) (unchecked found : List E)
      (hflight : s.flights[i]? = some ⟨request, candidates, .looking (e :: unchecked) found⟩) :
      Step s .other { s with
        flights := s.flights.set i ⟨request, candidates, .looking unchecked
          (if !breaker.isOpen s.breakers s.now e then found ++ [e] else found)⟩ }
  | giveUp {s} (i : Nat) (request : ρ) (candidates : List E)
      (hflight : s.flights[i]? = some ⟨request, candidates, .looking [] []⟩) :
      Step s .other { s with flights := s.flights.set i ⟨request, candidates, .settled []⟩ }
  | begin {s} (i : Nat) (request : ρ) (candidates found targets : List E)
      (hflight : s.flights[i]? = some ⟨request, candidates, .looking [] found⟩)
      (hfound : found ≠ []) (hperm : targets.Perm found) :
      Step s .other { s with flights := s.flights.set i ⟨request, candidates, .trying targets 0⟩ }
  | send {s} (i : Nat) (request : ρ) (candidates targets : List E) (made : Nat) (e : E)
      (outcome : α) (hflight : s.flights[i]? = some ⟨request, candidates, .trying targets made⟩)
      (htarget : targets[made % targets.length]? = some e) :
      Step s (.sent i request e outcome) { s with
        flights := s.flights.set i ⟨request, candidates,
          .attempting targets made e outcome (client.recorded request e outcome)⟩ }
  | record {s} (i : Nat) (request : ρ) (candidates targets : List E) (made : Nat) (e : E)
      (outcome : α) (recorded : Recorded) (unrecorded : List Recorded)
      (hflight : s.flights[i]? = some
        ⟨request, candidates, .attempting targets made e outcome (recorded :: unrecorded)⟩) :
      Step s (.noted s.now e recorded) { s with
        breakers := breaker.record s.breakers s.now e recorded
        flights := s.flights.set i
          ⟨request, candidates, .attempting targets made e outcome unrecorded⟩ }
  | settle {s} (i : Nat) (request : ρ) (candidates targets : List E) (made : Nat) (e : E)
      (outcome : α)
      (hflight : s.flights[i]? = some
        ⟨request, candidates, .attempting targets made e outcome []⟩) :
      Step s .other { s with
        flights := s.flights.set i ⟨request, candidates,
          if client.ends request e outcome = true ∨ client.limit ≤ made + 1 then .settled targets
          else .trying targets (made + 1)⟩ }

/-- The targets that the request has found closed, and may try yet. -/
def Progress.aims : Progress E α → List E
  | looking _ found => found
  | trying targets _ | attempting targets _ _ _ _ => targets
  | settled _ => []

/-- The attempts that the request may make yet. -/
def Progress.left (limit : Nat) : Progress E α → Nat
  | looking _ _ => limit
  | trying _ made => limit - made
  | attempting _ made _ _ _ => limit - (made + 1)
  | settled _ => 0

/-- The attempts that the request may make yet, if it may make any at the target. -/
def Flight.leftAt [DecidableEq E] (limit : Nat) (e : E) (flight : Flight E ρ α) : Nat :=
  if e ∈ flight.progress.aims then flight.progress.left limit else 0

/-- It is an attempt at the target. -/
def Event.isAt [DecidableEq E] (e : E) : Event E ρ α → Bool
  | .sent _ _ target _ => target = e
  | .noted _ _ _ | .other => false

/-- The attempt it is of the request. -/
def Event.attemptOf? (i : Nat) : Event E ρ α → Option (E × α)
  | .sent j _ target outcome => if j = i then some (target, outcome) else none
  | .noted _ _ _ | .other => none

def Event.record? : Event E ρ α → Option (Nat × E × Recorded)
  | .noted now target recorded => some (now, target, recorded)
  | .sent _ _ _ _ | .other => none

/-- The attempts of a request, in order. -/
def attemptsOf (i : Nat) (events : List (Event E ρ α)) : List (E × α) :=
  events.filterMap (Event.attemptOf? i)

/-- What was recorded, and when. -/
def records (events : List (Event E ρ α)) : List (Nat × E × Recorded) :=
  events.filterMap Event.record?

variable {client} {s s' : Traffic breaker S ρ α} {event : Event E ρ α} {events : List (Event E ρ α)}
  {e : E} {b : breaker.State} {now i : Nat} {flights flights' : List (Flight E ρ α)}
  {old new : Flight E ρ α}

@[simp] theorem attemptsOf_concat :
    attemptsOf i (events ++ [event]) = attemptsOf i events ++ (event.attemptOf? i).toList := by
  rw [attemptsOf, List.filterMap_append]
  cases h : event.attemptOf? i <;> simp [h, attemptsOf]

@[simp] theorem records_concat :
    records (events ++ [event]) = records events ++ event.record?.toList := by
  rw [records, List.filterMap_append]
  cases event <;> rfl

/-! ### Who is kept out -/

theorem isOpen_iff : breaker.isOpen b now e = true ↔
    ∃ openedAt, breaker.openedAt b e = some openedAt ∧ now - openedAt < breaker.cooldown := by
  unfold isOpen
  cases breaker.openedAt b e <;> simp

theorem isOpen_of_le {t opened : Nat} (hopened : breaker.openedAt b e = some opened)
    (hle : t ≤ opened) (hnow : now < t + breaker.cooldown) : breaker.isOpen b now e = true := by
  have hpos := breaker.cooldown_pos
  exact isOpen_iff.mpr ⟨opened, hopened, by omega⟩

theorem openedAt_record_of_ne {target : E} (recorded : Recorded) (h : e ≠ target) :
    breaker.openedAt (breaker.record b now target recorded) e = breaker.openedAt b e := by
  cases recorded with
  | answered => exact breaker.openedAt_answered_ne b target e h
  | failed => exact breaker.openedAt_failed_ne b now target e h

theorem now_le_of_step (h : Step client s event s') : s.now ≤ s'.now := by
  cases h with
  | tick now hnow => exact hnow
  | change | select | check | giveUp | begin | send | record | settle => exact Nat.le_refl _

/-! ### What a request has done so far -/

/-- Attempts at the targets in turn, after each of which but the last another was made. -/
structure Attempted (client : Client E S ρ α) (request : ρ) (targets : List E)
    (attempts : List (E × α)) : Prop where
  inTurn : ∀ k attempt, attempts[k]? = some attempt →
    targets[k % targets.length]? = some attempt.1
  length_le : attempts.length ≤ client.limit
  goesOn : ∀ attempt ∈ attempts.dropLast, client.ends request attempt.1 attempt.2 = false

/-- The targets are some of the candidates, in any order. -/
def Among (candidates targets : List E) : Prop :=
  ∃ found, found.Sublist candidates ∧ targets.Perm found

/-- What is known of a request that has come this far, by its attempts. -/
def Progress.Known (client : Client E S ρ α) (request : ρ) (candidates : List E)
    (attempts : List (E × α)) : Progress E α → Prop
  | looking unchecked found => (found ++ unchecked).Sublist candidates ∧ attempts = []
  | trying targets made => Among candidates targets ∧ Attempted client request targets attempts ∧
      attempts.length = made ∧ made < client.limit ∧
      ∀ attempt ∈ attempts, client.ends request attempt.1 attempt.2 = false
  | attempting targets made e outcome _ => Among candidates targets ∧
      Attempted client request targets attempts ∧ attempts.length = made + 1 ∧
      attempts.getLast? = some (e, outcome)
  | settled targets => Among candidates targets ∧ Attempted client request targets attempts ∧
      (targets = [] ∨ attempts.length = client.limit ∨
        ∃ attempt, attempts.getLast? = some attempt ∧
          client.ends request attempt.1 attempt.2 = true)

/-- What is known of a request by its attempts. -/
structure Flight.Known (client : Client E S ρ α) (attempts : List (E × α))
    (flight : Flight E ρ α) : Prop where
  selected : ∃ shared, client.Selects shared flight.request flight.candidates
  progress : flight.progress.Known client flight.request flight.candidates attempts

/-- What holds of the requests after what was shown. -/
structure Inv (client : Client E S ρ α) (events : List (Event E ρ α))
    (flights : List (Flight E ρ α)) : Prop where
  known : ∀ i (flight : Flight E ρ α), flights[i]? = some flight →
    flight.Known client (attemptsOf i events)
  fresh : ∀ i, flights.length ≤ i → attemptsOf i events = []

theorem Inv.of_attemptsOf_eq (h : Inv client events flights)
    (heq : ∀ i, attemptsOf i (events ++ [event]) = attemptsOf i events) :
    Inv client (events ++ [event]) flights where
  known i flight hflight := by
    rw [heq]
    exact h.known i flight hflight
  fresh i hi := by
    rw [heq]
    exact h.fresh i hi

theorem Inv.move (h : Inv client events flights) (hflight : flights[i]? = some old)
    (hothers : ∀ j ≠ i, event.attemptOf? j = none) (hrequest : new.request = old.request)
    (hcandidates : new.candidates = old.candidates)
    (hnew : new.progress.Known client old.request old.candidates
      (attemptsOf i events ++ (event.attemptOf? i).toList)) :
    Inv client (events ++ [event]) (flights.set i new) where
  known := by
    intro j flight hj
    by_cases hij : i = j
    · subst hij
      obtain ⟨hi, _⟩ := List.getElem?_eq_some_iff.mp hflight
      rw [List.getElem?_set_self hi] at hj
      obtain rfl := Option.some.inj hj
      obtain ⟨shared, hselects⟩ := (h.known i old hflight).selected
      rw [attemptsOf_concat]
      refine ⟨⟨shared, ?_⟩, ?_⟩
      · rw [hrequest, hcandidates]
        exact hselects
      · rw [hrequest, hcandidates]
        exact hnew
    · rw [List.getElem?_set_ne hij] at hj
      rw [attemptsOf_concat, hothers j (Ne.symm hij), Option.toList_none, List.append_nil]
      exact h.known j flight hj
  fresh := by
    intro j hj
    rw [List.length_set] at hj
    have hij : j ≠ i := by
      rintro rfl
      obtain ⟨hi, _⟩ := List.getElem?_eq_some_iff.mp hflight
      omega
    rw [attemptsOf_concat, hothers j hij, Option.toList_none, List.append_nil]
    exact h.fresh j hj

theorem Attempted.nil (request : ρ) (targets : List E) :
    Attempted client request targets [] :=
  ⟨nofun, Nat.zero_le _, nofun⟩

theorem Attempted.concat {request : ρ} {targets : List E} {attempts : List (E × α)} {outcome : α}
    (h : Attempted client request targets attempts)
    (hends : ∀ attempt ∈ attempts, client.ends request attempt.1 attempt.2 = false)
    (hlt : attempts.length < client.limit)
    (htarget : targets[attempts.length % targets.length]? = some e) :
    Attempted client request targets (attempts ++ [(e, outcome)]) where
  inTurn := by
    intro k attempt hk
    rcases getElem?_concat_eq_some.mp hk with hbefore | hlast
    · exact h.inTurn k attempt hbefore
    · obtain ⟨rfl, rfl⟩ := hlast
      exact htarget
  length_le := by
    rw [List.length_append, List.length_singleton]
    exact hlt
  goesOn := by
    rw [List.dropLast_concat]
    exact hends

theorem inv_step (h : Inv client events s.flights) (hstep : Step client s event s') :
    Inv client (events ++ [event]) s'.flights := by
  cases hstep with
  | tick | change => exact h.of_attemptsOf_eq fun i => by simp [Event.attemptOf?]
  | select request candidates hselects =>
    have hsame : ∀ i, attemptsOf i (events ++ [.other]) = attemptsOf i events := fun i => by
      simp [Event.attemptOf?]
    constructor
    · intro i flight hi
      rw [hsame]
      rcases getElem?_concat_eq_some.mp hi with hbefore | hlast
      · exact h.known i flight hbefore
      · obtain ⟨rfl, rfl⟩ := hlast
        exact ⟨⟨s.shared, hselects⟩, List.Sublist.refl _, h.fresh _ (Nat.le_refl _)⟩
    · intro i hi
      rw [hsame]
      rw [List.length_append] at hi
      exact h.fresh i (by omega)
  | check i request candidates e unchecked found hflight =>
    obtain ⟨hsub, hnone⟩ := (h.known i _ hflight).progress
    refine h.move hflight (fun j _ => rfl) rfl rfl ⟨?_, by simpa [Event.attemptOf?] using hnone⟩
    split
    · rw [List.append_assoc]
      exact hsub
    · exact (List.Sublist.append_left (List.sublist_cons_self e unchecked) found).trans hsub
  | giveUp i request candidates hflight =>
    obtain ⟨_, hnone⟩ := (h.known i _ hflight).progress
    refine h.move hflight (fun j _ => rfl) rfl rfl ?_
    rw [hnone]
    exact ⟨⟨[], List.nil_sublist _, List.Perm.refl _⟩, Attempted.nil _ _, .inl rfl⟩
  | begin i request candidates found targets hflight hfound hperm =>
    obtain ⟨hsub, hnone⟩ := (h.known i _ hflight).progress
    refine h.move hflight (fun j _ => rfl) rfl rfl ?_
    rw [hnone]
    rw [List.append_nil] at hsub
    exact ⟨⟨found, hsub, hperm⟩, Attempted.nil _ _, rfl, client.limit_pos, nofun⟩
  | send i request candidates targets made e outcome hflight htarget =>
    obtain ⟨hamong, hattempted, rfl, hlt, hends⟩ := (h.known i _ hflight).progress
    refine h.move hflight (fun j hj => if_neg (Ne.symm hj)) rfl rfl ?_
    rw [Event.attemptOf?, if_pos rfl]
    exact ⟨hamong, hattempted.concat hends hlt htarget, by simp, List.getLast?_concat⟩
  | record i request candidates targets made e outcome recorded unrecorded hflight =>
    have hknown := (h.known i _ hflight).progress
    refine h.move hflight (fun j _ => rfl) rfl rfl ?_
    rw [Event.attemptOf?, Option.toList_none, List.append_nil]
    exact hknown
  | settle i request candidates targets made e outcome hflight =>
    obtain ⟨hamong, hattempted, hlength, hlast⟩ := (h.known i _ hflight).progress
    refine h.move hflight (fun j _ => rfl) rfl rfl ?_
    rw [Event.attemptOf?, Option.toList_none, List.append_nil]
    dsimp only
    split
    · rename_i hstops
      refine ⟨hamong, hattempted, .inr ?_⟩
      rcases hstops with hends | hlimit
      · exact .inr ⟨_, hlast, hends⟩
      · have := hattempted.length_le
        exact .inl (by omega)
    · rename_i hgoes
      rw [not_or, Bool.not_eq_true, Nat.not_le] at hgoes
      refine ⟨hamong, hattempted, hlength, hgoes.2, ?_⟩
      intro attempt hmem
      rw [← List.dropLast_append_getLast? _ hlast] at hmem
      rcases List.mem_append.mp hmem with hbefore | hsingle
      · exact hattempted.goesOn attempt hbefore
      · obtain rfl := List.mem_singleton.mp hsingle
        exact hgoes.1

/-- **Each request makes the attempts of a loop over its targets.** -/
theorem inv_of_trace (h : Trace (Step client) s events s') (hnone : s.flights = []) :
    Inv client events s'.flights := by
  refine @Trace.keeps _ _ _ _ _ _ (fun events s => Inv client events s.flights) h ?_
    fun _ _ _ _ hinv hstep => inv_step hinv hstep
  rw [hnone]
  exact ⟨nofun, fun _ _ => rfl⟩

/-- The attempt number `k`, if it was made, and else what it might have been. -/
def attemptAt (attempts : List (E × α)) (later : Nat → E × α) (k : Nat) : E × α :=
  (attempts[k]?).getD (later k)

section settled
variable {request : ρ} {candidates targets : List E} {attempts : List (E × α)}
  (h : Progress.Known client request candidates attempts (.settled targets))
include h

theorem attempts_eq_length (htargets : targets ≠ []) {decisive : Nat → Bool}
    (hdecisive : ∀ k attempt, attempts[k]? = some attempt →
      decisive k = client.ends request attempt.1 attempt.2) :
    Foundation.attempts decisive client.limit = attempts.length := by
  obtain ⟨_, hattempted, hstops⟩ := h
  have hlimit := client.limit_pos
  have hlast : attempts.length = client.limit ∨
      ∃ attempt, attempts.getLast? = some attempt ∧
        client.ends request attempt.1 attempt.2 = true := hstops.resolve_left htargets
  have hpos : 0 < attempts.length := by
    rcases hlast with hall | ⟨attempt, hattempt, _⟩
    · omega
    · rw [List.length_pos_iff]
      rintro rfl
      cases hattempt
  refine attempts_eq_of_last hpos hattempted.length_le (fun k hk => ?_) ?_
  · have hget : attempts[k]? = some attempts[k] := List.getElem?_eq_getElem (by omega)
    rw [hdecisive k _ hget]
    apply hattempted.goesOn
    have hdrop : k < attempts.dropLast.length := by
      rw [List.length_dropLast]
      omega
    rw [← List.getElem_dropLast hdrop]
    exact List.getElem_mem hdrop
  · refine hlast.imp id fun hends => ?_
    obtain ⟨attempt, hattempt, hends⟩ := hends
    rw [List.getLast?_eq_getElem?] at hattempt
    rw [hdecisive _ attempt hattempt]
    exact hends

omit h in
theorem targets_eq_map (hattempted : Attempted client request targets attempts) (default : E) :
    attempts.map Prod.fst =
      (List.range attempts.length).map fun k => targets.getD (k % targets.length) default := by
  apply List.ext_getElem?
  intro k
  rw [List.getElem?_map, List.getElem?_map]
  by_cases hk : k < attempts.length
  · have hget : attempts[k]? = some attempts[k] := List.getElem?_eq_getElem hk
    rw [hget, List.getElem?_range hk]
    show some attempts[k].1 = some (targets.getD (k % targets.length) default)
    rw [List.getD_eq_getElem?_getD, hattempted.inTurn k _ hget]
    rfl
  · rw [List.getElem?_eq_none (by omega), List.getElem?_eq_none (by rw [List.length_range]; omega)]
    rfl

end settled

/-- **The breakers are what was recorded.** -/
theorem breakers_eq_foldl (h : Trace (Step client) s events s') :
    s'.breakers = (records events).foldl
      (fun b note => breaker.record b note.1 note.2.1 note.2.2) s.breakers := by
  refine @Trace.keeps _ _ _ _ _ _ (fun events s₁ => s₁.breakers = (records events).foldl
    (fun b note => breaker.record b note.1 note.2.1 note.2.2) s.breakers) h rfl ?_
  intro events s₁ event s₂ hbreakers hstep
  rw [records_concat, List.foldl_append, ← hbreakers]
  cases hstep <;> rfl

/-- What the request has yet to record is of an attempt that was shown. -/
def Flight.Shown (client : Client E S ρ α) (events : List (Event E ρ α)) (i : Nat)
    (flight : Flight E ρ α) : Prop :=
  match flight.progress with
  | .attempting _ _ e outcome unrecorded => .sent i flight.request e outcome ∈ events ∧
      unrecorded <:+ client.recorded flight.request e outcome
  | .looking _ _ | .trying _ _ | .settled _ => True

theorem Flight.Shown.mono {flight : Flight E ρ α} (h : flight.Shown client events i)
    (event : Event E ρ α) : flight.Shown client (events ++ [event]) i := by
  obtain ⟨request, candidates, progress⟩ := flight
  cases progress with
  | looking | trying | settled => trivial
  | attempting => exact ⟨List.mem_append_left _ h.1, h.2⟩

/-- **What was recorded is what attempts have shown.** -/
theorem sent_of_noted (h : Trace (Step client) s events s') (hnone : s.flights = [])
    {recorded : Recorded} (hnoted : .noted now e recorded ∈ events) :
    ∃ i request outcome, .sent i request e outcome ∈ events ∧
      recorded ∈ client.recorded request e outcome := by
  have hkept := @Trace.keeps _ _ _ _ _ _ (fun events s => (∀ i (flight : Flight E ρ α),
      s.flights[i]? = some flight → flight.Shown client events i) ∧
    ∀ now e recorded, .noted now e recorded ∈ events → ∃ i request outcome,
      .sent i request e outcome ∈ events ∧ recorded ∈ client.recorded request e outcome)
    h ⟨by simp [hnone], nofun⟩ ?_
  · exact hkept.2 now e recorded hnoted
  · rintro events s event s' ⟨hshown, hall⟩ hstep
    have hmono : ∀ i (flight : Flight E ρ α), s.flights[i]? = some flight →
        flight.Shown client (events ++ [event]) i :=
      fun i flight hflight => (hshown i flight hflight).mono event
    have hold : ∀ now e recorded, .noted now e recorded ∈ events → ∃ i request outcome,
        .sent i request e outcome ∈ events ++ [event] ∧
          recorded ∈ client.recorded request e outcome := by
      intro now e recorded hmem
      obtain ⟨i, request, outcome, hsent, hrecorded⟩ := hall now e recorded hmem
      exact ⟨i, request, outcome, List.mem_append_left _ hsent, hrecorded⟩
    have hquiet : (∀ now e recorded, .noted now e recorded ≠ event) →
        ∀ now e recorded, .noted now e recorded ∈ events ++ [event] → ∃ i request outcome,
          .sent i request e outcome ∈ events ++ [event] ∧
            recorded ∈ client.recorded request e outcome := by
      intro hne now e recorded hmem
      rcases List.mem_append.mp hmem with hbefore | hlast
      · exact hold now e recorded hbefore
      · exact absurd (List.mem_singleton.mp hlast) (hne now e recorded)
    cases hstep with
    | tick | change => exact ⟨hmono, hquiet nofun⟩
    | select request candidates =>
      refine ⟨fun i flight hi => ?_, hquiet nofun⟩
      rcases getElem?_concat_eq_some.mp hi with hbefore | ⟨rfl, rfl⟩
      · exact hmono i flight hbefore
      · trivial
    | check | giveUp | begin =>
      exact ⟨forall_set (P := fun i (flight : Flight E ρ α) => flight.Shown client _ i) hmono
        trivial, hquiet nofun⟩
    | send i request candidates targets made e outcome =>
      exact ⟨forall_set (P := fun i (flight : Flight E ρ α) => flight.Shown client _ i) hmono
        ⟨List.mem_append_right _ (List.mem_singleton_self _), List.suffix_refl _⟩, hquiet nofun⟩
    | record i request candidates targets made e outcome recorded unrecorded hflight =>
      obtain ⟨hsent, hsuffix⟩ := hmono i _ hflight
      refine ⟨forall_set (P := fun i (flight : Flight E ρ α) => flight.Shown client _ i) hmono
        ⟨hsent, (List.suffix_cons recorded _).trans hsuffix⟩, ?_⟩
      intro now e' recorded' hmem
      rcases List.mem_append.mp hmem with hbefore | hlast
      · exact hold now e' recorded' hbefore
      · cases List.mem_singleton.mp hlast
        exact ⟨i, request, outcome, hsent, hsuffix.mem (List.mem_cons_self ..)⟩
    | settle =>
      refine ⟨forall_set (P := fun i (flight : Flight E ρ α) => flight.Shown client _ i) hmono ?_,
        hquiet nofun⟩
      unfold Flight.Shown
      dsimp only
      split
      · rename_i heq
        split at heq <;> cases heq
      · trivial
      · trivial
      · trivial

theorem trace_checks (s : Traffic breaker S ρ α) {request : ρ} {candidates unchecked found : List E}
    (hflight : s.flights[i]? = some ⟨request, candidates, .looking unchecked found⟩) :
    Trace (Step client) s (List.replicate unchecked.length .other) { s with
      flights := s.flights.set i ⟨request, candidates, .looking []
        (found ++ unchecked.filter fun e => !breaker.isOpen s.breakers s.now e)⟩ } := by
  induction unchecked generalizing s found with
  | nil =>
    obtain ⟨hi, hget⟩ := List.getElem?_eq_some_iff.mp hflight
    have hsame : s.flights.set i ⟨request, candidates, .looking [] found⟩ = s.flights := by
      rw [← hget, List.set_getElem_self]
    rw [List.filter_nil, List.append_nil, hsame]
    rfl
  | cons e unchecked ih =>
    obtain ⟨hi, _⟩ := List.getElem?_eq_some_iff.mp hflight
    have hrest := ih { s with
      flights := s.flights.set i ⟨request, candidates, .looking unchecked
        (if !breaker.isOpen s.breakers s.now e then found ++ [e] else found)⟩ }
      (List.getElem?_set_self hi)
    refine ⟨_, .check i request candidates e unchecked found hflight, ?_⟩
    rw [List.set_set] at hrest
    by_cases hopen : (!breaker.isOpen s.breakers s.now e) = true
    · rw [if_pos hopen, List.append_assoc] at hrest
      rw [if_pos hopen, List.filter_cons_of_pos
        (p := fun e => !breaker.isOpen s.breakers s.now e) hopen]
      exact hrest
    · rw [if_neg hopen] at hrest
      rw [if_neg hopen, List.filter_cons_of_neg
        (p := fun e => !breaker.isOpen s.breakers s.now e) hopen]
      exact hrest

theorem trace_lookup (s : Traffic breaker S ρ α) {request : ρ} {candidates : List E}
    (hselects : client.Selects s.shared request candidates) :
    Trace (Step client) s (.other :: List.replicate candidates.length .other) { s with
      flights := s.flights ++ [⟨request, candidates, .looking []
        (candidates.filter fun e => !breaker.isOpen s.breakers s.now e)⟩] } := by
  have hchecks : Trace (Step client) _ _ _ := trace_checks
    { s with flights := s.flights ++ [⟨request, candidates, .looking candidates []⟩] }
    List.getElem?_concat_length
  refine ⟨_, .select request candidates hselects, ?_⟩
  rw [List.nil_append, List.set_append_right _ _ (Nat.le_refl _), Nat.sub_self] at hchecks
  exact hchecks

/-! ### While a breaker is open -/

theorem openedAt_le_now (h : Trace (Step client) s events s')
    (hstart : ∀ e opened, breaker.openedAt s.breakers e = some opened → opened ≤ s.now)
    {opened : Nat} (hopened : breaker.openedAt s'.breakers e = some opened) : opened ≤ s'.now := by
  refine @Trace.keeps _ _ _ _ _ _ (fun _ s => ∀ e opened,
    breaker.openedAt s.breakers e = some opened → opened ≤ s.now) h hstart ?_ e opened hopened
  intro events s event s' hle hstep e opened hopened
  cases hstep with
  | tick now hnow => exact Nat.le_trans (hle e opened hopened) hnow
  | change | select | check | giveUp | begin | send | settle => exact hle e opened hopened
  | record i request candidates targets made target outcome recorded unrecorded hflight =>
    by_cases he : e = target
    · subst he
      cases recorded with
      | answered =>
        rw [record, breaker.openedAt_answered_self] at hopened
        cases hopened
      | failed =>
        rcases breaker.openedAt_failed_self s.breakers s.now e with hnew | hkept
        · rw [record, hnew] at hopened
          obtain rfl := Option.some.inj hopened
          exact Nat.le_refl _
        · exact hle e opened (hkept.symm.trans hopened)
    · exact hle e opened ((openedAt_record_of_ne recorded he).symm.trans hopened)

/-- The request may try the target yet. -/
def MayAim (flights : List (Flight E ρ α)) (e : E) (i : Nat) : Prop :=
  ∃ flight, flights[i]? = some flight ∧ e ∈ flight.progress.aims

section KeepsOut
variable [DecidableEq E]

/-- What holds since there were the requests `before` and the breaker of the target had been opened
at `t`. -/
structure KeepsOut (client : Client E S ρ α) (e : E) (t : Nat) (before : List (Flight E ρ α))
    (events : List (Event E ρ α)) (s : Traffic breaker S ρ α) : Prop where
  le_now : t ≤ s.now
  opened : ∃ opened, breaker.openedAt s.breakers e = some opened ∧ t ≤ opened
  /-- No other request has come to aim at the target. -/
  aims : ∀ i (flight : Flight E ρ α), s.flights[i]? = some flight →
    e ∈ flight.progress.aims → MayAim before e i
  sent : ∀ i request outcome, .sent i request e outcome ∈ events → MayAim before e i
  /-- No more attempts were made at the target than were left. -/
  count_le : events.countP (Event.isAt e) + (s.flights.map (Flight.leftAt client.limit e)).sum ≤
    (before.map (Flight.leftAt client.limit e)).sum

variable {t : Nat} {before : List (Flight E ρ α)}

theorem KeepsOut.start (hopened : breaker.openedAt s.breakers e = some t) (hle : t ≤ s.now) :
    KeepsOut client e t s.flights [] s where
  le_now := hle
  opened := ⟨t, hopened, Nat.le_refl t⟩
  aims i flight hflight haims := ⟨flight, hflight, haims⟩
  sent := nofun
  count_le := by simp

theorem leftAt_le (haims : e ∈ new.progress.aims → e ∈ old.progress.aims) {limit : Nat}
    (hleft : new.progress.left limit ≤ old.progress.left limit) :
    new.leftAt limit e ≤ old.leftAt limit e := by
  unfold Flight.leftAt
  by_cases h : e ∈ new.progress.aims
  · rw [if_pos h, if_pos (haims h)]
    exact hleft
  · rw [if_neg h]
    exact Nat.zero_le _

theorem KeepsOut.quiet (h : KeepsOut client e t before events s) (hevent : event.isAt e = false)
    (hle : t ≤ s'.now)
    (hopened : ∃ opened, breaker.openedAt s'.breakers e = some opened ∧ t ≤ opened)
    (haims : ∀ i (flight : Flight E ρ α), s'.flights[i]? = some flight →
      e ∈ flight.progress.aims → MayAim before e i)
    (hsum : (s'.flights.map (Flight.leftAt client.limit e)).sum ≤
      (s.flights.map (Flight.leftAt client.limit e)).sum) :
    KeepsOut client e t before (events ++ [event]) s' where
  le_now := hle
  opened := hopened
  aims := haims
  sent i request outcome hmem := by
    rcases List.mem_append.mp hmem with hbefore | hlast
    · exact h.sent i request outcome hbefore
    · rw [← List.mem_singleton.mp hlast] at hevent
      simp [Event.isAt] at hevent
  count_le := by
    rw [List.countP_append, List.countP_singleton, if_neg (by simp [hevent])]
    have := h.count_le
    omega

theorem KeepsOut.move (h : KeepsOut client e t before events s)
    (hflight : s.flights[i]? = some old) (hevent : event.isAt e = false)
    (hopened : ∃ opened, breaker.openedAt b e = some opened ∧ t ≤ opened)
    (haims : e ∈ new.progress.aims → e ∈ old.progress.aims)
    (hleft : new.progress.left client.limit ≤ old.progress.left client.limit) :
    KeepsOut client e t before (events ++ [event])
      { s with breakers := b, flights := s.flights.set i new } := by
  refine h.quiet hevent h.le_now hopened (forall_set (P := fun i (flight : Flight E ρ α) =>
    e ∈ flight.progress.aims → MayAim before e i) h.aims
    fun hmem => h.aims i old hflight (haims hmem)) ?_
  have hsum := sum_map_set (Flight.leftAt client.limit e) hflight new
  have hle := leftAt_le haims hleft
  show ((s.flights.set i new).map _).sum ≤ _
  omega

theorem KeepsOut.attempt (h : KeepsOut client e t before events s) {request : ρ}
    {candidates targets : List E} {made : Nat} {outcome : α} {unrecorded : List Recorded}
    (hflight : s.flights[i]? = some ⟨request, candidates, .trying targets made⟩)
    (hmem : e ∈ targets) (hlt : made < client.limit) :
    KeepsOut client e t before (events ++ [.sent i request e outcome]) { s with
      flights := s.flights.set i
        ⟨request, candidates, .attempting targets made e outcome unrecorded⟩ } where
  le_now := h.le_now
  opened := h.opened
  aims := forall_set (P := fun i (flight : Flight E ρ α) =>
    e ∈ flight.progress.aims → MayAim before e i) h.aims fun _ => h.aims i _ hflight hmem
  sent := by
    intro j request' outcome' hsent
    rcases List.mem_append.mp hsent with hbefore | hlast
    · exact h.sent j request' outcome' hbefore
    · cases List.mem_singleton.mp hlast
      exact h.aims i _ hflight hmem
  count_le := by
    have hsum := sum_map_set (Flight.leftAt client.limit e) hflight
      ⟨request, candidates, .attempting targets made e outcome unrecorded⟩
    have hold : Flight.leftAt client.limit e
        (⟨request, candidates, .trying targets made⟩ : Flight E ρ α) = client.limit - made :=
      if_pos hmem
    have hnew : Flight.leftAt client.limit e (⟨request, candidates,
        .attempting targets made e outcome unrecorded⟩ : Flight E ρ α) =
          client.limit - (made + 1) := if_pos hmem
    have hcount := h.count_le
    rw [List.countP_append, List.countP_singleton, if_pos (by simp [Event.isAt])]
    show _ + ((s.flights.set i _).map _).sum ≤ _
    omega

theorem KeepsOut.step (h : KeepsOut client e t before events s) {shown : List (Event E ρ α)}
    (hinv : Inv client shown s.flights) (hstep : Step client s event s')
    (hanswer : ∀ now, event ≠ .noted now e .answered) (hnow : s.now < t + breaker.cooldown) :
    KeepsOut client e t before (events ++ [event]) s' := by
  obtain ⟨opened, hopened, hle⟩ := h.opened
  cases hstep with
  | tick now hnow =>
    exact h.quiet rfl (Nat.le_trans h.le_now hnow) h.opened h.aims (Nat.le_refl _)
  | change shared => exact h.quiet rfl h.le_now h.opened h.aims (Nat.le_refl _)
  | select request candidates =>
    refine h.quiet rfl h.le_now h.opened ?_ ?_
    · intro i flight hi haims
      rcases getElem?_concat_eq_some.mp hi with hbefore | hlast
      · exact h.aims i flight hbefore haims
      · obtain ⟨rfl, rfl⟩ := hlast
        cases haims
    · rw [List.map_append, List.sum_append]
      exact Nat.le_refl _
  | check i request candidates target unchecked found hflight =>
    refine h.move hflight rfl ⟨opened, hopened, hle⟩ ?_ (Nat.le_refl _)
    intro hmem
    dsimp only [Progress.aims] at hmem ⊢
    split at hmem
    · rename_i hclosed
      rcases List.mem_append.mp hmem with hfound | htarget
      · exact hfound
      · obtain rfl := List.mem_singleton.mp htarget
        rw [isOpen_of_le hopened hle hnow] at hclosed
        cases hclosed
    · exact hmem
  | giveUp i request candidates hflight =>
    exact h.move hflight rfl ⟨opened, hopened, hle⟩ id (Nat.zero_le _)
  | begin i request candidates found targets hflight hfound hperm =>
    exact h.move hflight rfl ⟨opened, hopened, hle⟩ hperm.mem_iff.mp (Nat.sub_le _ _)
  | send i request candidates targets made target outcome hflight htarget =>
    obtain ⟨_, _, _, hlt, _⟩ := (hinv.known i _ hflight).progress
    by_cases he : target = e
    · subst he
      exact h.attempt hflight (List.mem_of_getElem? htarget) hlt
    · exact h.move hflight (by simp [Event.isAt, he]) ⟨opened, hopened, hle⟩ id (by
        show client.limit - (made + 1) ≤ client.limit - made
        omega)
  | record i request candidates targets made target outcome recorded unrecorded hflight =>
    refine h.move hflight rfl ?_ id (Nat.le_refl _)
    by_cases he : e = target
    · subst he
      cases recorded with
      | answered => exact absurd rfl (hanswer s.now)
      | failed =>
        rcases breaker.openedAt_failed_self s.breakers s.now e with hnew | hkept
        · exact ⟨s.now, hnew, h.le_now⟩
        · exact ⟨opened, hkept.trans hopened, hle⟩
    · exact ⟨opened, (openedAt_record_of_ne recorded he).trans hopened, hle⟩
  | settle i request candidates targets made target outcome hflight =>
    refine h.move hflight rfl ⟨opened, hopened, hle⟩ ?_ ?_
    · dsimp only
      split
      · nofun
      · exact id
    · dsimp only
      split
      · exact Nat.zero_le _
      · exact Nat.le_refl _

/-- **An open breaker keeps out the requests that had not found it closed before.** -/
theorem keepsOut_of_trace (h : Trace (Step client) s events s') {shown : List (Event E ρ α)}
    (hinv : Inv client shown s.flights) (hopened : breaker.openedAt s.breakers e = some t)
    (hle : t ≤ s.now) (hanswer : ∀ now, .noted now e .answered ∉ events)
    (hnow : s'.now < t + breaker.cooldown) : KeepsOut client e t s.flights events s' := by
  have hkept := @Trace.keeps _ _ _ _ _ _
    (fun events s' => Inv client (shown ++ events) s'.flights ∧
      ((∀ now, .noted now e .answered ∉ events) → s'.now < t + breaker.cooldown →
        KeepsOut client e t s.flights events s'))
    h ⟨by simpa using hinv, fun _ _ => KeepsOut.start hopened hle⟩ ?_
  · exact hkept.2 hanswer hnow
  · intro events s₁ event s₂ hkept hstep
    obtain ⟨hinv, hout⟩ := hkept
    refine ⟨?_, fun hanswer hnow => ?_⟩
    · rw [← List.append_assoc]
      exact inv_step hinv hstep
    · have hlt := Nat.lt_of_le_of_lt (now_le_of_step hstep) hnow
      refine (hout (fun now hmem => hanswer now (List.mem_append_left _ hmem)) hlt).step hinv hstep
        (fun now heq => hanswer now ?_) hlt
      rw [heq]
      exact List.mem_append_right _ (List.mem_singleton_self _)

/-- What holds of an endpoint whose breaker was open when there were the requests `before`. -/
structure Sheds (client : Client E S ρ α) (e : E) (before : List (Flight E ρ α))
    (events : List (Event E ρ α)) (s : Traffic breaker S ρ α) : Prop where
  isOpen : breaker.isOpen s.breakers s.now e = true
  /-- Only requests that had found it closed before have tried it. -/
  sent : ∀ i request outcome, .sent i request e outcome ∈ events → MayAim before e i
  /-- They have tried it no more often than they had attempts left. -/
  count_le : events.countP (Event.isAt e) ≤ (before.map (Flight.leftAt client.limit e)).sum

/-- **As long as a breaker is open, it keeps out the requests that had not found it closed.** -/
theorem sheds_of_trace {s₀ : Traffic breaker S ρ α} {earlier : List (Event E ρ α)}
    (hnone : s₀.flights = [])
    (hstart : ∀ e opened, breaker.openedAt s₀.breakers e = some opened → opened ≤ s₀.now)
    (hearlier : Trace (Step client) s₀ earlier s) (h : Trace (Step client) s events s')
    (hopened : breaker.openedAt s.breakers e = some t)
    (hanswer : ∀ now, .noted now e .answered ∉ events)
    (hnow : s'.now < t + breaker.cooldown) : Sheds client e s.flights events s' := by
  have hout := keepsOut_of_trace h (inv_of_trace hearlier hnone) hopened
    (openedAt_le_now hearlier hstart hopened) hanswer hnow
  obtain ⟨opened, hopened', hle⟩ := hout.opened
  refine ⟨isOpen_of_le hopened' hle hnow, hout.sent, ?_⟩
  have := hout.count_le
  omega

end KeepsOut

end Breaker

end DragonflySdk.Foundation
