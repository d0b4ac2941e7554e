import DragonflySdk.Foundation.Release
import DragonflySdk.Retry.Context

/-!
# The contexts of the attempts

`runWithEndpoints` of `retry.go` again, with the context each attempt is made under: it has a timeout
of its own, and a cancel function, which is called when the attempt fails and returned with the
response when it succeeds. However the attempts end, no context is left over
(`runWithEndpoints_releases`).
-/

namespace DragonflySdk.Go

open Foundation

/-- The context of an attempt: which of them it is, and its timeout. -/
structure AttemptContext where
  id : Nat
  timeout : Int
deriving DecidableEq, Repr

/-- The contexts of the attempts, with how often the cancel function of each has been called. -/
abbrev Contexts := Handles

/-- `context.WithTimeout` -/
def Contexts.withTimeout (contexts : Contexts) (timeout : Int) : Contexts × AttemptContext :=
  (contexts.acquire, ⟨contexts.next, timeout⟩)

/-- Calls the cancel function of the context. -/
def Contexts.cancel (contexts : Contexts) (ctx : AttemptContext) : Contexts :=
  contexts.release ctx.id

/-- What the attempts of a request work on: the state of what `send` uses, their contexts, and the
variables the closure captures. -/
structure Attempts (σ T : Type) where
  state : σ
  contexts : Contexts
  attempts : Nat
  resp : Option T
  cancel : Option AttemptContext

namespace ContextRetryPolicy

variable {module : ContextBackoff} (policy : ContextRetryPolicy module) {σ T : Type}

/-- The closure: aims at the next endpoint, under a context of its own. -/
def attemptNext (shuffled : List Str) (timeout : Int)
    (send : σ → AttemptContext → Str → σ × Except WrappedError T) (a : Attempts σ T) :
    Attempts σ T × Except WrappedError Unit :=
  let endpoint := shuffled.getD (a.attempts % shuffled.length) []
  let (contexts, attemptCtx) := Contexts.withTimeout a.contexts timeout
  match send a.state attemptCtx endpoint with
  | (state, .error err) =>
    ({ a with state, contexts := Contexts.cancel contexts attemptCtx, attempts := a.attempts + 1 },
      .error err)
  | (state, .ok attemptResp) =>
    (⟨state, contexts, a.attempts + 1, some attemptResp, some attemptCtx⟩, .ok ())

/-- Runs `send` like `run`, every attempt aimed at the next endpoint of a shuffled order. The cancel
function of the successful attempt is returned with the response. -/
def runWithEndpoints (ended : σ → Option ContextEnd) (endpoints shuffled : List Str) (timeout : Int)
    (send : σ → AttemptContext → Str → σ × Except WrappedError T) (s : σ) :
    (σ × Contexts) × Except WrappedError (Option T × Option AttemptContext) :=
  if endpoints.length = 0 then
    ((s, .empty), .error (errorf ⟨"%w: no endpoints to send request".toList, []⟩
      [.node (.sentinel .invalidArgument) []]))
  else
    match policy.run (fun a : Attempts σ T => ended a.state) (attemptNext shuffled timeout send)
      ⟨s, .empty, 0, none, none⟩ with
    | (a, .error err) => ((a.state, a.contexts), .error err)
    | (a, .ok ()) => ((a.state, a.contexts), .ok (a.resp, a.cancel))

end ContextRetryPolicy

/-! ### The last attempt -/

section
variable {σ : Type}

/-- The run ends with the state of the last attempt, and in an error just when that does. -/
def EndsWith (result last : σ × Except WrappedError Unit) : Prop :=
  result.1 = last.1 ∧ (result.2 = .ok () ↔ last.2 = .ok ())

theorem endsWith_error (s : σ) (err err' : WrappedError) :
    EndsWith (s, .error err) (s, .error err') :=
  ⟨rfl, iff_of_false nofun nofun⟩

theorem EndsWith.refl (result : σ × Except WrappedError Unit) : EndsWith result result :=
  ⟨rfl, Iff.rfl⟩

theorem EndsWith.trans {result last last' : σ × Except WrappedError Unit}
    (h : EndsWith result last) (h' : EndsWith last last') : EndsWith result last' :=
  ⟨h.1.trans h'.1, h.2.trans h'.2⟩

theorem EndsWith.error {last : σ × Except WrappedError Unit} {s : σ} {err : WrappedError}
    (h : EndsWith (s, .error err) last) : ∃ err', last = (s, .error err') := by
  obtain ⟨s', err' | value⟩ := last
  · obtain rfl : s = s' := h.1
    exact ⟨err', rfl⟩
  · cases h.2.mpr rfl

theorem EndsWith.ok {last : σ × Except WrappedError Unit} {s : σ}
    (h : EndsWith (s, .ok ()) last) : last = (s, .ok ()) :=
  Prod.ext h.1.symm (h.2.mp rfl)

theorem ContextRetryPolicy.operation_endsWith (attempt : σ → σ × Except WrappedError Unit) (s : σ) :
    EndsWith (operation attempt s) (attempt s) := by
  unfold operation
  rcases attempt s with ⟨s', err | value⟩
  · exact endsWith_error s' _ err
  · exact .refl _

variable {module : ContextBackoff} (hmodule : module.Lawful)
include hmodule

theorem ContextBackoff.Lawful.retry_cases (operation : σ → σ × Except WrappedError Unit)
    (b : Option module.ExponentialBackOff) (ended : σ → Option ContextEnd) (retries : Nat) (s : σ) :
    EndsWith (module.retry b (retries + 1) ended operation s) (operation s) ∨
    ∃ retries' err, retries = retries' + 1 ∧ (operation s).2 = .error err ∧
      module.retry b (retries + 1) ended operation s =
        module.retry b (retries' + 1) ended operation (operation s).1 := by
  rw [hmodule.retry_eq _ _ _ _ _ (Nat.succ_pos retries)]
  rcases operation s with ⟨s', err | value⟩
  · show EndsWith (if retries + 1 = 1 then _ else _) _ ∨ _
    by_cases hlast : retries + 1 = 1
    · rw [if_pos hlast]
      exact Or.inl (endsWith_error s' _ err)
    · obtain ⟨retries', rfl⟩ : ∃ retries', retries = retries' + 1 := ⟨retries - 1, by omega⟩
      show _ ∨ ∃ _ _, _ ∧ _ ∧ (if retries' + 1 + 1 = 1 then _ else _) = _
      rw [if_neg hlast]
      by_cases hpermanent : (permanent? err).isSome = true
      · rw [if_pos hpermanent]
        exact Or.inl (endsWith_error s' _ err)
      · rw [if_neg hpermanent]
        cases ended s' with
        | some ending => exact Or.inl (endsWith_error s' _ err)
        | none => exact Or.inr ⟨retries', err, rfl, rfl, rfl⟩
  · exact Or.inl (.refl _)

theorem ContextBackoff.Lawful.exists_last {operation : σ → σ × Except WrappedError Unit}
    {Inv : σ → Prop} (hfail : ∀ s err, Inv s → (operation s).2 = .error err → Inv (operation s).1)
    (b : Option module.ExponentialBackOff) (ended : σ → Option ContextEnd) (retries : Nat) {s : σ}
    (hs : Inv s) : ∃ last, Inv last ∧
      EndsWith (module.retry b (retries + 1) ended operation s) (operation last) := by
  induction retries generalizing s with
  | zero =>
    obtain hstops | ⟨_, _, hretries, _⟩ := hmodule.retry_cases operation b ended 0 s
    · exact ⟨s, hs, hstops⟩
    · cases hretries
  | succ retries ih =>
    obtain hstops | ⟨_, err, hretries, herr, hrest⟩ :=
      hmodule.retry_cases operation b ended (retries + 1) s
    · exact ⟨s, hs, hstops⟩
    · obtain rfl := Nat.succ.inj hretries
      rw [hrest]
      exact ih (hfail s err hs herr)

theorem ContextRetryPolicy.exists_last (policy : ContextRetryPolicy module)
    {attempt : σ → σ × Except WrappedError Unit} {Inv : σ → Prop}
    (hfail : ∀ s err, Inv s → (attempt s).2 = .error err → Inv (attempt s).1)
    (ended : σ → Option ContextEnd) {s : σ} (hs : Inv s) :
    ∃ last, Inv last ∧ EndsWith (policy.run ended attempt s) (attempt last) := by
  have hfail' : ∀ s err, Inv s → (operation attempt s).2 = .error err →
      Inv (operation attempt s).1 := by
    intro s err hs herr
    have hends : EndsWith ((operation attempt s).1, .error err) (attempt s) := by
      rw [← herr]
      exact operation_endsWith attempt s
    obtain ⟨err', hattempt⟩ := hends.error
    have hkept := hfail s err' hs (congrArg Prod.snd hattempt)
    rwa [hattempt] at hkept
  obtain ⟨last, hlast, hends⟩ :=
    hmodule.exists_last hfail' policy.backoff ended policy.maxRetries hs
  refine ⟨last, hlast, .trans ?_ (hends.trans (operation_endsWith attempt last))⟩
  unfold run
  rcases module.retry policy.backoff (policy.maxRetries + 1) ended (operation attempt) s with
    ⟨s', err | value⟩
  · exact endsWith_error s' _ err
  · exact .refl _

end

/-! ### Every context is released -/

section
variable {σ T : Type} (send : σ → AttemptContext → Str → σ × Except WrappedError T)

/-- The response is one that was sent for under the context. -/
def SentUnder (ctx : AttemptContext) (resp : T) : Prop :=
  ∃ s endpoint, (send s ctx endpoint).2 = .ok resp

/-- No context of the attempts is left over: with an error the cancel function of each has been
called, and with a response that of each but its own, which is returned and has not been called. -/
inductive ReleasesContexts :
    (σ × Contexts) × Except WrappedError (Option T × Option AttemptContext) → Prop
  | failed {s : σ} {contexts : Contexts} {err : WrappedError} (hall : contexts.AllReleased) :
      ReleasesContexts ((s, contexts), .error err)
  | returned {s : σ} {contexts : Contexts} {resp : T} {ctx : AttemptContext}
      (hresp : SentUnder send ctx resp) (hall : contexts.AllReleasedBut ctx.id) :
      ReleasesContexts ((s, contexts), .ok (some resp, some ctx))

namespace ContextRetryPolicy

variable {send} {shuffled : List Str} {timeout : Int} {a : Attempts σ T}

theorem attemptNext_error {err : WrappedError} (h : a.contexts.AllReleased)
    (herr : (attemptNext shuffled timeout send a).2 = .error err) :
    (attemptNext shuffled timeout send a).1.contexts.AllReleased := by
  unfold attemptNext at herr ⊢
  simp only [Contexts.withTimeout] at herr ⊢
  rcases hsend : send a.state _ _ with ⟨state, err | attemptResp⟩
  · exact h.failed
  · rw [hsend] at herr
    cases herr

theorem attemptNext_ok (h : a.contexts.AllReleased)
    (hok : (attemptNext shuffled timeout send a).2 = .ok ()) :
    ∃ resp ctx, (attemptNext shuffled timeout send a).1.resp = some resp ∧
      (attemptNext shuffled timeout send a).1.cancel = some ctx ∧ SentUnder send ctx resp ∧
      (attemptNext shuffled timeout send a).1.contexts.AllReleasedBut ctx.id := by
  unfold attemptNext at hok ⊢
  simp only [Contexts.withTimeout] at hok ⊢
  rcases hsend : send a.state _ _ with ⟨state, err | attemptResp⟩
  · rw [hsend] at hok
    cases hok
  · exact ⟨attemptResp, _, rfl, rfl, ⟨_, _, congrArg Prod.snd hsend⟩, h.kept⟩

/-- **However the attempts end, their contexts have been released.** -/
theorem runWithEndpoints_releases {module : ContextBackoff} (hmodule : module.Lawful)
    (policy : ContextRetryPolicy module) (ended : σ → Option ContextEnd)
    (endpoints shuffled : List Str) (timeout : Int) (s : σ) :
    ReleasesContexts send (policy.runWithEndpoints ended endpoints shuffled timeout send s) := by
  unfold runWithEndpoints
  by_cases hendpoints : endpoints.length = 0
  · rw [if_pos hendpoints]
    exact .failed Handles.allReleased_empty
  · rw [if_neg hendpoints]
    have hfail : ∀ (a : Attempts σ T) err, a.contexts.AllReleased →
        (attemptNext shuffled timeout send a).2 = .error err →
        (attemptNext shuffled timeout send a).1.contexts.AllReleased :=
      fun _ _ => attemptNext_error
    obtain ⟨last, hlast, hends⟩ := policy.exists_last hmodule hfail (fun a => ended a.state)
      (s := ⟨s, .empty, 0, none, none⟩) Handles.allReleased_empty
    revert hends
    rcases policy.run (fun a : Attempts σ T => ended a.state)
      (attemptNext shuffled timeout send) ⟨s, .empty, 0, none, none⟩ with ⟨a, err | value⟩
    · intro hends
      obtain ⟨err', hattempt⟩ := hends.error
      have hall := attemptNext_error hlast (congrArg Prod.snd hattempt)
      rw [hattempt] at hall
      exact .failed hall
    · intro hends
      obtain ⟨resp, ctx, hresp, hcancel, hsent, hall⟩ :=
        attemptNext_ok hlast (congrArg Prod.snd hends.ok)
      rw [hends.ok] at hresp hcancel hall
      show ReleasesContexts send ((a.state, a.contexts), .ok (a.resp, a.cancel))
      rw [hresp, hcancel]
      exact .returned hsent hall

end ContextRetryPolicy

end

end DragonflySdk.Go
