import DragonflySdk.Foundation.Copy
import DragonflySdk.Proxy.Stream

/-!
# Reading a response into a writer in Go

`GetInto` of `proxy.go`: the attempts are those of `Get`, and the body of the response is copied to a
writer, then closed, before the context of its attempt is cancelled. A body that fails is not asked
for again, since the writer cannot be rewound.

So the writer is given what one body delivers, all of it or up to a failure, and nothing of the
attempts before (`copyInto_drains`). It is given the same when the caller copies the stream of `Get`
to it (`getInto_agrees`).
-/

namespace DragonflySdk.Go

open Foundation

/-! ### Copying a body -/

/-- The writers of a caller. -/
structure WriterModule where
  Writer : Type
  /-- How much it is copied at a time: the length of the buffer of `io.Copy`, or of the writer's own
  one if it is an `io.ReaderFrom`. -/
  room : Writer → Nat
  room_pos : ∀ w, 0 < room w
  /-- `Write(p)`, with how many bytes it says it has written. -/
  write : Writer → List UInt8 → Writer × Int × Option WrappedError

/-- `io.ErrShortWrite` -/
def errShortWrite : WrappedError := .node (.other "short write".toList []) []

/-- What `io.Copy` reports of a count that cannot be. -/
def errInvalidWrite : WrappedError := .node (.other "invalid write result".toList []) []

/-- A chunk is written, unless it is empty; it is not taken if not all of it has been written. -/
def WriterModule.take (writers : WriterModule) (w : writers.Writer) (chunk : List UInt8) :
    writers.Writer × Option WrappedError :=
  if chunk = [] then (w, none)
  else
    let (w, nw, ew) := writers.write w chunk
    match ew with
    | some ew => (w, some ew)
    | none =>
      if nw < 0 ∨ (chunk.length : Int) < nw then (w, some errInvalidWrite)
      else if nw ≠ chunk.length then (w, some errShortWrite)
      else (w, none)

/-- The error of `io.Copy`; none at the end of the body. -/
def copyError : CopyEnd ReadError WrappedError → Option WrappedError
  | .read .eof => none
  | .read (.failed err) => some err
  | .write err => some err

/-- `io.Copy`, by at most `reads` reads of the body. -/
def ioCopy {S : Type} (writers : WriterModule) (read : S → Nat → S × List UInt8 × Option ReadError)
    (reads : Nat) (w : writers.Writer) (s : S) :
    Option ((S × writers.Writer) × Option WrappedError) :=
  (copy read writers.room writers.take reads s w).map fun (s, last) => (s, copyError last)

/-- What `GetInto` makes of an error of `io.Copy`. -/
def bodyError (err : WrappedError) : WrappedError :=
  if errorsIs err .deadlineExceeded then
    errorf ⟨"%w: %v".toList, []⟩ [.node (.sentinel .requestTimeout) []]
  else
    errorf ⟨"%w: failed to read response body: %v".toList, []⟩ [.node (.sentinel .internal) []]

/-! ### `GetInto` -/

/-- A response whose body has been written. -/
structure IntoResponse where
  success : Bool
  header : Header
  statusCode : Nat
deriving DecidableEq, Repr

/-- What is left behind: the state of what sends, the contexts of the attempts, the writer, and the
body of the response if there was one. -/
structure Left (σ : Type) (module : BodyModule) (writers : WriterModule) where
  state : σ
  contexts : Contexts
  writer : writers.Writer
  body : Option module.Body

section
variable {σ : Type} {module : BodyModule} {writers : WriterModule}

/-- Copies the body of the response to the writer, closes it and cancels its context; `none` where
copying does not end within `reads` reads, or a nil pointer would be dereferenced. -/
def copyInto (reads : Nat) (w : writers.Writer) :
    (σ × Contexts) × Except WrappedError (Option (HttpResponse module) × Option AttemptContext) →
    Option (Left σ module writers × Except WrappedError IntoResponse)
  | ((s, contexts), .error err) => some (⟨s, contexts, w, none⟩, .error err)
  | ((s, contexts), .ok (some resp, some cancel)) =>
    (ioCopy writers (fun content => module.read content (contexts.released resp.body.ctx.id)) reads
      w resp.body.content).map fun ((content, w), err) =>
      let closed := (module.close content (contexts.released resp.body.ctx.id)).1
      (⟨s, Contexts.cancel contexts cancel, w, some closed⟩,
        match err with
        | some err => .error (bodyError err)
        | none => .ok ⟨true, resp.header, resp.statusCode⟩)
  | _ => none

/-- Sends a GET request to a remote server via the Dragonfly and writes the response body directly
into the provided writer. -/
def Proxy.getInto {modules : Modules} (p : Proxy modules) {backoff : ContextBackoff}
    (b : Option backoff.ExponentialBackOff) (parse : Str → Except WrappedError ParsedUrl)
    (fuel now : Nat) (ended : σ → Option ContextEnd) (shuffle : List Str → List Str)
    (timeout : Int)
    (answer : σ → AttemptContext → Str → σ × Except WrappedError (Nat × Header × module.Body))
    (req : GetRequest) (reads : Nat) (s : σ) (w : writers.Writer) :
    Option (Left σ module writers × Except WrappedError IntoResponse) :=
  match req.validate parse with
  | .error err => some (⟨s, .empty, w, none⟩, .error err)
  | .ok () =>
    (p.lookupProxyEndpoints fuel now req).bind fun looked =>
      match looked with
      | .error err => some (⟨s, .empty, w, none⟩, .error err.tree)
      | .ok endpoints =>
        let retry : ContextRetryPolicy backoff := ⟨p.retry.maxRetries, b⟩
        copyInto reads w (retry.runWithEndpoints ended endpoints (shuffle endpoints) timeout
          (sendTo answer) s)

/-! ### What the writer is given -/

/-- What comes of `GetInto` with the writer `w`. -/
inductive Drains
    (answer : σ → AttemptContext → Str → σ × Except WrappedError (Nat × Header × module.Body))
    (w : writers.Writer) : Left σ module writers × Except WrappedError IntoResponse → Prop
  /-- No attempt was answered: nothing has been written. -/
  | failed {s : σ} {contexts : Contexts} {err : WrappedError} (hall : contexts.AllReleased) :
      Drains answer w (⟨s, contexts, w, none⟩, .error err)
  /-- All of the body of one answer has been written. -/
  | whole {s : σ} {contexts : Contexts} {ctx : AttemptContext} {resp : HttpResponse module}
      {chunks : List (List UInt8)} {content : module.Body} {w' : writers.Writer}
      (hall : contexts.AllReleased) (hsent : SentUnder (sendTo answer) ctx resp)
      (hreads : Reads (fun content => module.read content false) resp.body.content chunks
        (some .eof) content)
      (hwrites : writeAll writers.take w chunks = some w') :
      Drains answer w (⟨s, contexts, w', some (module.close content false).1⟩,
        .ok ⟨true, resp.header, resp.statusCode⟩)
  /-- The body, or the writer, has failed: what was read before has been written. -/
  | cut {s : σ} {contexts : Contexts} {ctx : AttemptContext} {resp : HttpResponse module}
      {content : module.Body} {w' : writers.Writer} {last : CopyEnd ReadError WrappedError}
      {err : WrappedError} (hall : contexts.AllReleased) (hsent : SentUnder (sendTo answer) ctx resp)
      (hcopied : Copied (fun content => module.read content false) writers.take resp.body.content w
        ((content, w'), last))
      (herr : copyError last = some err) :
      Drains answer w (⟨s, contexts, w', some (module.close content false).1⟩,
        .error (bodyError err))

/-- **The writer is given what one body delivers.** -/
theorem copyInto_drains
    {answer : σ → AttemptContext → Str → σ × Except WrappedError (Nat × Header × module.Body)}
    {got : (σ × Contexts) ×
      Except WrappedError (Option (HttpResponse module) × Option AttemptContext)}
    (h : ReleasesContexts (sendTo answer) got) {reads : Nat} {w : writers.Writer}
    {into : Left σ module writers × Except WrappedError IntoResponse}
    (hinto : copyInto reads w got = some into) : Drains answer w into := by
  cases h with
  | failed hall =>
    obtain rfl := Option.some.inj hinto
    exact .failed hall
  | @returned s contexts resp ctx hresp hall =>
    obtain rfl : resp.body.ctx = ctx := ctx_of_sentUnder hresp
    dsimp only [copyInto, ioCopy] at hinto
    rw [hall.released_eq, Option.map_map] at hinto
    obtain ⟨⟨⟨content, w'⟩, last⟩, hcopy, rfl⟩ := Option.map_eq_some_iff.mp hinto
    have hcopied := copied_of_copy hcopy
    dsimp only [Function.comp_apply]
    rcases last with (_ | err) | err
    · cases hcopied with
      | whole hreads hwrites => exact .whole hall.allReleased hresp hreads hwrites
    · exact .cut hall.allReleased hresp hcopied rfl
    · exact .cut hall.allReleased hresp hcopied rfl

theorem exists_copyInto
    {answer : σ → AttemptContext → Str → σ × Except WrappedError (Nat × Header × module.Body)}
    {got : (σ × Contexts) ×
      Except WrappedError (Option (HttpResponse module) × Option AttemptContext)}
    (h : ReleasesContexts (sendTo answer) got)
    (hends : ∀ ctx (resp : HttpResponse module), SentUnder (sendTo answer) ctx resp →
      Ends (fun content => module.read content false) resp.body.content)
    (w : writers.Writer) : ∃ reads into, copyInto reads w got = some into := by
  cases h with
  | failed hall => exact ⟨0, _, rfl⟩
  | @returned s contexts resp ctx hresp hall =>
    obtain rfl : resp.body.ctx = ctx := ctx_of_sentUnder hresp
    obtain ⟨reads, result, hcopy⟩ : ∃ reads result, copy (fun content => module.read content false)
        writers.room writers.take reads resp.body.content w = some result :=
      exists_copy writers.room_pos (hends _ resp hresp) w
    refine ⟨reads, Option.isSome_iff_exists.mp ?_⟩
    dsimp only [copyInto, ioCopy]
    rw [hall.released_eq, hcopy]
    rfl

/-! ### Copying the stream of `Get` -/

/-- What the caller of `Get` does to have the body in a writer: copies the stream and closes it. -/
def copyStream (reads : Nat) (w : writers.Writer) :
    (σ × Contexts) × Except WrappedError (Option (StreamedResponse module)) →
    Option (Left σ module writers × Except WrappedError IntoResponse)
  | ((s, contexts), .error err) => some (⟨s, contexts, w, none⟩, .error err)
  | ((s, contexts), .ok (some resp)) =>
    (ioCopy writers (fun stream => stream.1.read stream.2) reads w (resp.body, contexts)).map
      fun ((stream, w), err) =>
        let closed := (stream.1.close stream.2).1
        (⟨s, closed.2, w, some closed.1.body.content⟩,
          match err with
          | some err => .error (bodyError err)
          | none => .ok ⟨resp.success, resp.header, resp.statusCode⟩)
  | _ => none

/-- They come to the same: the same has been written and is returned, and the same contexts have been
cancelled. -/
structure Agrees (into stream : Left σ module writers × Except WrappedError IntoResponse) :
    Prop where
  state : into.1.state = stream.1.state
  writer : into.1.writer = stream.1.writer
  result : into.2 = stream.2
  released : ∀ i, into.1.contexts.released i = stream.1.contexts.released i

theorem read_ownContext {contexts : Contexts} {ctx : AttemptContext}
    (h : contexts.released ctx.id = false) (content : module.Body) (len : Nat) :
    (ownContext ctx (content, contexts)).1.read contexts len =
      (ownContext ctx ((module.read content false len).1,
        if (module.read content false len).2.2.isSome then Contexts.cancel contexts ctx
        else contexts), (module.read content false len).2) := by
  unfold CancelReadCloser.read ownContext
  dsimp only
  rw [h]

theorem alike_stream {contexts : Contexts} {ctx : AttemptContext}
    (h : contexts.released ctx.id = false) :
    Alike (fun content => module.read content false)
      (fun stream : CancelReadCloser module × Contexts => stream.1.read stream.2)
      (fun content stream => stream = ownContext ctx (content, contexts))
      (fun content stream => stream = ownContext ctx (content, contexts) ∨
        stream = ownContext ctx (content, Contexts.cancel contexts ctx)) where
  same := by
    rintro content stream rfl len
    exact (congrArg Prod.snd (read_ownContext h content len)).symm
  stays := by
    rintro content stream rfl len hnone
    refine (congrArg Prod.fst (read_ownContext h content len)).trans ?_
    rw [hnone]
    rfl
  leaves := by
    rintro content stream rfl len
    have hread := congrArg Prod.fst (read_ownContext h content len)
    cases hlast : (module.read content false len).2.2 with
    | none =>
      rw [hlast] at hread
      exact Or.inl hread
    | some err =>
      rw [hlast] at hread
      exact Or.inr hread

/-- **It makes no difference who copies the body**: `GetInto`, or the caller from the stream. -/
theorem copyInto_agrees
    {answer : σ → AttemptContext → Str → σ × Except WrappedError (Nat × Header × module.Body)}
    {got : (σ × Contexts) ×
      Except WrappedError (Option (HttpResponse module) × Option AttemptContext)}
    (h : ReleasesContexts (sendTo answer) got) (reads : Nat) (w : writers.Writer) :
    Option.Rel Agrees (copyInto reads w got)
      (copyStream reads w (got.1, got.2.map StreamedResponse.of?)) := by
  cases h with
  | failed hall => exact .some ⟨rfl, rfl, rfl, fun _ => rfl⟩
  | @returned s contexts resp ctx hresp hall =>
    obtain ⟨statusCode, header, content, ctx'⟩ := resp
    obtain rfl : ctx' = ctx := ctx_of_sentUnder hresp
    let stream : CancelReadCloser module × Contexts := (⟨⟨content, ctx'⟩, ctx'⟩, contexts)
    have hcopy : Option.Rel _ (copy _ writers.room writers.take reads content w)
        (copy _ writers.room writers.take reads stream w) :=
      copy_alike (alike_stream hall.released_eq) rfl w reads
    dsimp only [copyInto, ioCopy, copyStream, Except.map, StreamedResponse.of?]
    rw [hall.released_eq, Option.map_map, Option.map_map]
    change Option.Rel Agrees _ (Option.map _ (copy _ writers.room writers.take reads stream w))
    generalize copy (fun content => module.read content false) writers.room writers.take reads
      content w = copied at hcopy ⊢
    generalize copy (fun stream : CancelReadCloser module × Contexts => stream.1.read stream.2)
      writers.room writers.take reads stream w = copied' at hcopy ⊢
    cases hcopy with
    | none => exact .none
    | @some result result' hsame =>
      obtain ⟨⟨content, w⟩, last⟩ := result
      obtain ⟨⟨stream', w'⟩, last'⟩ := result'
      obtain ⟨hleft, hwriter, hlast⟩ := hsame
      obtain rfl : w = w' := hwriter
      obtain rfl : last = last' := hlast
      -- the context is cancelled by `GetInto` at last, by the stream with an erring read too
      obtain rfl | rfl := hleft
      · exact .some ⟨rfl, rfl, rfl, fun _ => rfl⟩
      · exact .some ⟨rfl, rfl, rfl, fun i => (Handles.released_release_release hall.kept_lt i).symm⟩

/-! ### Every request -/

/-- The bodies of all answers end, however they are read. -/
def BodiesEnd
    (answer : σ → AttemptContext → Str → σ × Except WrappedError (Nat × Header × module.Body)) :
    Prop :=
  ∀ s ctx endpoint statusCode header content,
    (answer s ctx endpoint).2 = .ok (statusCode, header, content) →
      Ends (fun content => module.read content false) content

theorem Proxy.exists_lookup {modules : Modules} (hring : modules.ring.Lawful) (p : Proxy modules)
    (now : Nat) {req : GetRequest} (hreplicas : 0 < uint32Of req.replicas) :
    ∃ fuel looked, p.lookupProxyEndpoints fuel now req = some looked := by
  unfold Proxy.lookupProxyEndpoints
  rcases Proxy.taskId modules req with err | taskId
  · exact ⟨0, _, rfl⟩
  · obtain ⟨fuel, selected, hselect⟩ := selects_go.exists_result hring
      p.seedPeerSelector.seedPeers taskId hreplicas
    refine ⟨fuel, ?_⟩
    simp only
    rw [hselect]
    exact ⟨_, rfl⟩

section
variable {backoff : ContextBackoff} (hbackoff : backoff.Lawful)
include hbackoff

/-- **`GetInto` gives the writer one body**: all of it when it returns a response, a front of it when
the body or the writer fails, nothing when no attempt is answered; and it cancels the context of
every attempt once. It returns when the bodies end, unless no replicas are left of those asked for,
cut to 32 bits. -/
theorem getInto_drains_one {modules : Modules} (hring : modules.ring.Lawful) (p : Proxy modules)
    (b : Option backoff.ExponentialBackOff) (parse : Str → Except WrappedError ParsedUrl) (now : Nat)
    (ended : σ → Option ContextEnd) (shuffle : List Str → List Str) (timeout : Int)
    (answer : σ → AttemptContext → Str → σ × Except WrappedError (Nat × Header × module.Body))
    (req : GetRequest) (s : σ) (w : writers.Writer) :
    (∀ fuel reads, ∀ into ∈ p.getInto b parse fuel now ended shuffle timeout answer req reads s w,
      Drains answer w into) ∧
    (BodiesEnd answer → 0 < uint32Of req.replicas → ∃ fuel reads into,
      p.getInto b parse fuel now ended shuffle timeout answer req reads s w = some into) := by
  have hreleases : ∀ endpoints, ReleasesContexts (sendTo answer) _ := fun endpoints =>
    ContextRetryPolicy.runWithEndpoints_releases hbackoff ⟨p.retry.maxRetries, b⟩ ended endpoints
      (shuffle endpoints) timeout s
  unfold Proxy.getInto
  rcases req.validate parse with err | value
  · refine ⟨fun fuel reads into hinto => ?_, fun _ _ => ⟨0, 0, _, rfl⟩⟩
    obtain rfl := Option.some.inj hinto
    exact .failed Handles.allReleased_empty
  · constructor
    · intro fuel reads into hinto
      rcases hlookup : p.lookupProxyEndpoints fuel now req with _ | err | endpoints
      · rw [hlookup] at hinto
        cases hinto
      · rw [hlookup] at hinto
        obtain rfl := Option.some.inj hinto
        exact .failed Handles.allReleased_empty
      · rw [hlookup] at hinto
        exact copyInto_drains (hreleases endpoints) hinto
    · intro hends hreplicas
      obtain ⟨fuel, looked, hlookup⟩ := p.exists_lookup hring now hreplicas
      refine ⟨fuel, ?_⟩
      rw [hlookup]
      rcases looked with err | endpoints
      · exact ⟨0, _, rfl⟩
      · refine exists_copyInto (hreleases endpoints) (fun ctx resp hsent => ?_) w
        obtain ⟨s', endpoint, hsent⟩ := hsent
        unfold sendTo at hsent
        rcases hanswer : answer s' ctx endpoint with ⟨s'', err | ⟨statusCode, header, content⟩⟩
        · rw [hanswer] at hsent
          cases hsent
        · rw [hanswer] at hsent
          obtain rfl := Except.ok.inj hsent
          exact hends s' ctx endpoint statusCode header content (congrArg Prod.snd hanswer)

/-- **`GetInto` agrees with `Get`** and copying its stream. -/
theorem getInto_agrees {modules : Modules} (p : Proxy modules)
    (b : Option backoff.ExponentialBackOff) (parse : Str → Except WrappedError ParsedUrl)
    (fuel now : Nat) (ended : σ → Option ContextEnd) (shuffle : List Str → List Str) (timeout : Int)
    (answer : σ → AttemptContext → Str → σ × Except WrappedError (Nat × Header × module.Body))
    (req : GetRequest) (reads : Nat) (s : σ) (w : writers.Writer) :
    Option.Rel Agrees (p.getInto b parse fuel now ended shuffle timeout answer req reads s w)
      ((p.get b parse fuel now ended shuffle timeout answer req s).bind (copyStream reads w)) := by
  unfold Proxy.getInto Proxy.get
  rcases req.validate parse with err | value
  · exact .some ⟨rfl, rfl, rfl, fun _ => rfl⟩
  · rcases p.lookupProxyEndpoints fuel now req with _ | err | endpoints
    · exact .none
    · exact .some ⟨rfl, rfl, rfl, fun _ => rfl⟩
    · exact copyInto_agrees (ContextRetryPolicy.runWithEndpoints_releases hbackoff
        ⟨p.retry.maxRetries, b⟩ ended endpoints (shuffle endpoints) timeout s) reads w

end

end

/-! ### Into a buffer -/

/-- A buffer that grows as it is written. -/
def bufferWriter : WriterModule where
  Writer := List UInt8
  room _ := 2
  room_pos _ := Nat.zero_lt_two
  write buf bytes := (buf ++ bytes, bytes.length, none)

theorem bodiesEnd_exampleAnswer : @BodiesEnd _ exampleBodies exampleAnswer := by
  have hends : ∀ content : List UInt8, Ends (fun content => exampleBodies.read content false) content := by
    intro content
    induction hn : content.length using Nat.strong_induction_on generalizing content with
    | _ n ih =>
      refine .intro fun len hlen hnone => ih (content.drop len).length ?_ _ rfl
      have hmore : ¬ content.length ≤ len := fun hle => by
        rw [show (exampleBodies.read content false len).2.2 = some .eof from if_pos hle] at hnone
        cases hnone
      rw [List.length_drop]
      omega
  exact fun s ctx endpoint statusCode header content _ => hends content

/-- The request of the example, into a buffer. -/
def exampleInto (reads : Nat) : Option (Left Nat exampleBodies bufferWriter ×
    Except WrappedError IntoResponse) :=
  twoProxy.getInto exampleAtOnce exampleParse 3 0 (fun _ => none) List.reverse 1 exampleAnswer
    lookupRequest reads 0 [0]

/-- The second attempt is answered, and its body is appended to the buffer. -/
theorem getInto_drains_one_second :
    (∃ into ∈ exampleInto 2, into.1.writer = [0, 1, 2, 3] ∧
        @Drains _ exampleBodies bufferWriter exampleAnswer [0] into) ∧
      ∃ fuel reads into, twoProxy.getInto exampleAtOnce exampleParse fuel 0 (fun _ => none)
        List.reverse 1 exampleAnswer lookupRequest reads 0 (show bufferWriter.Writer from [0]) =
          some into := by
  obtain ⟨hdrains, hreturns⟩ := getInto_drains_one exampleContextBackoff_lawful nameRing.lawful
    twoProxy exampleAtOnce exampleParse 0 (fun _ => none) List.reverse 1 exampleAnswer lookupRequest 0
    (show bufferWriter.Writer from [0])
  have hlookup : twoProxy.lookupProxyEndpoints 3 0 lookupRequest =
      some (.ok ["http://127.0.0.1:4001".toList, "http://127.0.0.1:4001".toList]) := by
    decide +kernel
  refine ⟨?_, hreturns bodiesEnd_exampleAnswer (by decide)⟩
  obtain ⟨into, hmem, hwriter⟩ : ∃ into ∈ exampleInto 2, into.1.writer = [0, 1, 2, 3] := by
    unfold exampleInto Proxy.getInto
    rw [hlookup]
    exact ⟨_, rfl, rfl⟩
  exact ⟨into, hmem, hwriter, hdrains 3 2 into hmem⟩

/-- The same from the stream. -/
theorem getInto_agrees_second :
    Option.Rel Agrees (exampleInto 2)
      ((twoProxy.get exampleAtOnce exampleParse 3 0 (fun _ => none) List.reverse 1 exampleAnswer
        lookupRequest 0).bind (copyStream 2 [0])) :=
  getInto_agrees exampleContextBackoff_lawful twoProxy exampleAtOnce exampleParse 3 0 (fun _ => none)
    List.reverse 1 exampleAnswer lookupRequest 2 0 (show bufferWriter.Writer from [0])

end DragonflySdk.Go
