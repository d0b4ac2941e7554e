import DragonflySdk.Proxy.GetInto

/-!
# Reserving room for an answer

`get_into` reserves as many bytes as an answer announces before it reads any of them, and so do the
chunks it appends. A buffer cannot hold more than `isize::MAX` bytes, and whoever asks for more
panics: the attempts end, the result is lost, and with it the buffer that was taken from the caller.
What an answer announces is not looked at before, so `get_into` comes to a result just when what
every attempt is answered with fits (`get_into_returns_iff`).
-/

namespace DragonflySdk

open Foundation

/-- What is called of `bytes` and `reqwest`, on a target. -/
structure BytesCrate where
  /-- the width of `usize` -/
  pointerBits : Nat
  /-- `Response::content_length` -/
  contentLength : Response → Option Nat
  /-- Whether `BytesMut::reserve` panics, at a length and for so many more bytes. -/
  reservePanics : (len additional : Nat) → Bool

namespace BytesCrate

variable (bytes : BytesCrate)

/-- `isize::MAX` -/
def isizeMax : Nat := 2 ^ (bytes.pointerBits - 1) - 1

/-- `n as usize` -/
def asUsize (n : Nat) : Nat := n % 2 ^ bytes.pointerBits

/-- The documented behaviour: a capacity beyond `isize::MAX` makes it panic. -/
structure Lawful (bytes : BytesCrate) : Prop where
  reservePanics_iff : ∀ len additional,
    bytes.reservePanics len additional = true ↔ bytes.isizeMax < len + additional

theorem isizeMax_lt : bytes.isizeMax < 2 ^ bytes.pointerBits := by
  have hle : 2 ^ (bytes.pointerBits - 1) ≤ 2 ^ bytes.pointerBits :=
    Nat.pow_le_pow_right (by omega) (Nat.sub_le _ _)
  have hpos : 0 < 2 ^ (bytes.pointerBits - 1) := Nat.two_pow_pos _
  unfold isizeMax
  omega

theorem asUsize_eq_iff (n : Nat) : bytes.asUsize n = n ↔ n < 2 ^ bytes.pointerBits :=
  Nat.mod_eq_iff_lt (Nat.two_pow_pos _).ne'

end BytesCrate

/-! ### One attempt -/

/-- Room that is reserved for an answer: what it announces, and for how many bytes. -/
structure Reservation where
  announced : Nat
  reserved : Nat
deriving DecidableEq, Repr

def Reservation.Untruncated (reservation : Reservation) : Prop :=
  reservation.reserved = reservation.announced

section
variable (bytes : BytesCrate)

/-- `readChunks`, unless one of the chunks makes the buffer panic. -/
def readChunksReserving (len : Nat) (ending : BodyEnd) :
    List (List UInt8) → List UInt8 → Option (List UInt8 × Except Error Unit)
  | chunk :: chunks, body =>
    if bytes.reservePanics body.length chunk.length then none
    else readChunksReserving len ending chunks (body ++ chunk)
  | [], body => some (readChunks len ending [] body)

/-- What is made of an answer that there is room for. -/
def readAnswer (response : Response) (body : List UInt8) :
    Option (List UInt8 × Except Error GetResponse) :=
  (readChunksReserving bytes body.length response.ending response.chunks body).map
    fun (body, result) => (body, result.map fun () =>
      ⟨isSuccess response.status, response.headers, some response.status, none⟩)

/-- What an attempt makes of the answer and the bytes it is handed, unless the buffer panics. -/
def readReserving (sent : Except Error Response) (body : List UInt8) :
    List Reservation × Option (List UInt8 × Except Error GetResponse) :=
  match sent with
  | .error err => ([], some (body, .error err))
  | .ok response =>
    match bytes.contentLength response with
    | none => ([], readAnswer bytes response body)
    | some contentLength =>
      ([⟨contentLength, bytes.asUsize contentLength⟩],
        if bytes.reservePanics body.length (bytes.asUsize contentLength) then none
        else readAnswer bytes response body)

/-- The answer fits into a buffer of a length: what it announces, and what there is of it. -/
structure Response.Fits (len : Nat) (response : Response) : Prop where
  announced : ∀ contentLength, bytes.contentLength response = some contentLength →
    len + contentLength ≤ bytes.isizeMax
  received : len + response.chunks.flatten.length ≤ bytes.isizeMax

end

section
variable {bytes : BytesCrate} (hbytes : bytes.Lawful)
include hbytes

theorem readChunksReserving_eq (len : Nat) (ending : BodyEnd) (chunks : List (List UInt8))
    {body : List UInt8} (hbody : body.length ≤ bytes.isizeMax) :
    readChunksReserving bytes len ending chunks body =
      if body.length + chunks.flatten.length ≤ bytes.isizeMax then
        some (readChunks len ending chunks body)
      else none := by
  induction chunks generalizing body with
  | nil => exact (if_pos hbody).symm
  | cons chunk chunks ih =>
    have hpanics := hbytes.reservePanics_iff body.length chunk.length
    rw [readChunksReserving, readChunks, List.flatten_cons, List.length_append]
    by_cases h : bytes.isizeMax < body.length + chunk.length
    · rw [if_pos (hpanics.mpr h), if_neg (by omega)]
    · rw [if_neg (fun hpanic => h (hpanics.mp hpanic)),
        ih (by rw [List.length_append]; omega), List.length_append, Nat.add_assoc]

theorem readAnswer_eq (response : Response) {body : List UInt8}
    (hbody : body.length ≤ bytes.isizeMax) :
    readAnswer bytes response body =
      if body.length + response.chunks.flatten.length ≤ bytes.isizeMax then
        some (readInto (.ok response) body)
      else none := by
  rw [readAnswer, readChunksReserving_eq hbytes _ _ _ hbody]
  split <;> rfl

theorem readReserving_of_fits {sent : Except Error Response} {body : List UInt8}
    (hbody : body.length ≤ bytes.isizeMax)
    (h : ∀ response, sent = .ok response → response.Fits bytes body.length) :
    (readReserving bytes sent body).2 = some (readInto sent body) ∧
      ∀ reservation ∈ (readReserving bytes sent body).1, reservation.Untruncated := by
  rcases sent with err | response
  · exact ⟨rfl, fun reservation hmem => absurd hmem List.not_mem_nil⟩
  · obtain ⟨hannounced, hreceived⟩ := h response rfl
    have hread := readAnswer_eq hbytes response hbody
    rw [if_pos hreceived] at hread
    unfold readReserving
    simp only
    rcases hlength : bytes.contentLength response with _ | contentLength
    · exact ⟨hread, fun reservation hmem => absurd hmem List.not_mem_nil⟩
    · have hfits := hannounced contentLength hlength
      have hlt := bytes.isizeMax_lt
      have hsame := (bytes.asUsize_eq_iff contentLength).mpr (by omega)
      have hpanics := hbytes.reservePanics_iff body.length contentLength
      simp only [hsame]
      rw [if_neg fun hpanic => by have := hpanics.mp hpanic; omega]
      exact ⟨hread, fun reservation hmem => List.mem_singleton.mp hmem ▸ rfl⟩

theorem fits_of_readReserving {sent : Except Error Response} {body : List UInt8}
    (hbody : body.length ≤ bytes.isizeMax) (hread : (readReserving bytes sent body).2 ≠ none)
    (huntruncated : ∀ reservation ∈ (readReserving bytes sent body).1, reservation.Untruncated)
    {response : Response} (hsent : sent = .ok response) : response.Fits bytes body.length := by
  subst hsent
  have hanswer := readAnswer_eq hbytes response hbody
  unfold readReserving at hread huntruncated
  simp only at hread huntruncated
  rcases hlength : bytes.contentLength response with _ | contentLength
  · rw [hlength] at hread
    refine ⟨fun contentLength heq => absurd (heq.symm.trans hlength) (Option.some_ne_none _), ?_⟩
    by_contra hover
    rw [if_neg hover] at hanswer
    exact hread hanswer
  · rw [hlength] at hread huntruncated
    have hsame := huntruncated _ (List.mem_singleton_self _)
    change bytes.asUsize contentLength = contentLength at hsame
    simp only [hsame] at hread
    have hpanics := hbytes.reservePanics_iff body.length contentLength
    by_cases hpanic : bytes.reservePanics body.length contentLength = true
    · rw [if_pos hpanic] at hread
      exact absurd rfl hread
    · rw [if_neg hpanic] at hread
      rw [hpanics] at hpanic
      refine ⟨fun contentLength' heq => ?_, ?_⟩
      · obtain rfl := Option.some.inj (heq.symm.trans hlength)
        omega
      · by_contra hover
        rw [if_neg hover] at hanswer
        exact hread hanswer

end

/-! ### All attempts -/

/-- An attempt that a further one may follow: it failed with what is retried. -/
def Retried : Except Error Response → Prop
  | .error err => err.isRetryable = true
  | .ok response => response.ending ≠ .complete

/-- What each attempt is answered with fits, as far as attempts are made. -/
def AttemptsFit (bytes : BytesCrate) (retries len : Nat) (sent : Nat → Except Error Response) : Prop :=
  ∀ i ≤ retries, (∀ j < i, Retried (sent j)) →
    ∀ response, sent i = .ok response → response.Fits bytes len

theorem attemptsFit_zero_iff {bytes : BytesCrate} {len : Nat} {sent : Nat → Except Error Response} :
    AttemptsFit bytes 0 len sent ↔ ∀ response, sent 0 = .ok response → response.Fits bytes len := by
  constructor
  · intro h
    exact h 0 (Nat.le_refl 0) fun j hj => absurd hj (Nat.not_lt_zero j)
  · intro h i hi _
    obtain rfl := Nat.le_zero.mp hi
    exact h

theorem attemptsFit_succ_iff {bytes : BytesCrate} {retries len : Nat}
    {sent : Nat → Except Error Response} :
    AttemptsFit bytes (retries + 1) len sent ↔
      (∀ response, sent 0 = .ok response → response.Fits bytes len) ∧
        (Retried (sent 0) → AttemptsFit bytes retries len fun i => sent (i + 1)) := by
  constructor
  · intro h
    refine ⟨h 0 (Nat.zero_le _) fun j hj => absurd hj (Nat.not_lt_zero j), fun hfirst i hi hrest => ?_⟩
    apply h (i + 1) (Nat.succ_le_succ hi)
    rw [Nat.forall_lt_succ_left]
    exact ⟨hfirst, hrest⟩
  · rintro ⟨hfirst, hrest⟩ i hi hretried
    cases i with
    | zero => exact hfirst
    | succ i =>
      rw [Nat.forall_lt_succ_left] at hretried
      exact hrest hretried.1 i (Nat.le_of_succ_le_succ hi) hretried.2

theorem isRetryable_of_readChunks {len : Nat} {ending : BodyEnd} {chunks : List (List UInt8)}
    {body : List UInt8} {err : Error} (h : (readChunks len ending chunks body).2 = .error err) :
    err.isRetryable = true := by
  induction chunks generalizing body with
  | nil =>
    cases ending with
    | complete => cases h
    | timeout _ | failed _ =>
      obtain rfl := Except.error.inj h
      rfl
  | cons chunk chunks ih => exact ih h

theorem retried_iff {sent : Except Error Response} {body : List UInt8} {err : Error}
    (h : (readInto sent body).2 = .error err) : err.isRetryable = true ↔ Retried sent := by
  rcases sent with err' | response
  · obtain rfl := Except.error.inj h
    exact Iff.rfl
  · have hending : response.ending ≠ .complete := fun hcomplete =>
      (readInto_eq_error h).1 ⟨response, rfl, hcomplete⟩
    refine iff_of_true ?_ hending
    change (readChunks body.length response.ending response.chunks body).2.map _ = _ at h
    rcases hread : (readChunks body.length response.ending response.chunks body).2 with err' | value
    · rw [hread] at h
      obtain rfl := Except.error.inj h
      exact isRetryable_of_readChunks hread
    · rw [hread] at h
      cases h

theorem not_retried {sent : Except Error Response} {body : List UInt8} {response : GetResponse}
    (h : (readInto sent body).2 = .ok response) : ¬ Retried sent := by
  obtain ⟨answered, rfl, hending, _⟩ := readInto_eq_ok h
  exact fun hretried => hretried hending

/-- The closure that is retried, on its count of attempts and what it has reserved. A panic ends the
attempts as a result would. -/
def readNextReserving (bytes : BytesCrate) (sendTo : Nat → Str → Except Error Response)
    (s : Nat × List Reservation) (body : List UInt8) (endpoint : Str) :
    ((Nat × List Reservation) × List UInt8) × Except Error (Option GetResponse) :=
  let (made, log) := s
  let (reserved, read) := readReserving bytes (sendTo made endpoint) body
  match read with
  | none => (((made + 1, log ++ reserved), []), .ok none)
  | some (body, result) => (((made + 1, log ++ reserved), body), result.map some)

/-- `get_into` with the endpoints to send to: what it reserves, and its result unless it panics. -/
def RetryPolicy.getIntoReserving {crate : BackonCrate} (policy : RetryPolicy crate)
    (bytes : BytesCrate) (endpoints shuffled : List Str)
    (sendTo : Nat → Str → Except Error Response) (buf : List UInt8) :
    List Reservation × Option (List UInt8 × Except Error GetResponse) :=
  let (((_, log), body), result) :=
    policy.runWithEndpoints endpoints shuffled buf (readNextReserving bytes sendTo) (0, [])
  (log,
    match result with
    | .error err => some (body, .error err)
    | .ok none => none
    | .ok (some response) => some (body, .ok response))

/-- `Proxy.getInto` with a buffer that may panic. -/
def Proxy.getIntoReserving {crates : ProxyCrates} (proxy : Proxy crates) (bytes : BytesCrate)
    (crate : HttpCrate) (fuel now : Nat) (shuffle : Shuffle)
    (pool : Nat → Str → Except Error Client) (request : GetRequest) (buf : List UInt8) :
    Option (List Reservation × Option (List UInt8 × Except Error GetResponse)) :=
  match request.validate crates.id.url with
  | .error err => some ([], some (buf, .error err))
  | .ok () =>
    (proxy.lookupProxyEndpoints fuel now request).map fun
      | .error err => ([], some (buf, .error err))
      | .ok endpoints => proxy.retry.getIntoReserving bytes endpoints (shuffle.shuffled endpoints)
          (fun i endpoint => Proxy.sendTo crate request (pool i endpoint)) buf

/-- `ProxyWithEndpoints.getInto` with a buffer that may panic. -/
def ProxyWithEndpoints.getIntoReserving {backon : BackonCrate} {γ : Type}
    (proxy : ProxyWithEndpoints backon γ) (bytes : BytesCrate) (url : UrlCrate) (crate : HttpCrate)
    (shuffle : Shuffle) (answer : Nat → γ → Client) (request : GetRequest) (buf : List UInt8) :
    List Reservation × Option (List UInt8 × Except Error GetResponse) :=
  match request.validate url with
  | .error err => ([], some (buf, .error err))
  | .ok () => proxy.retry.getIntoReserving bytes proxy.endpoints (shuffle.shuffled proxy.endpoints)
      (fun i endpoint => proxy.sendTo crate (answer i) endpoint request) buf

/-- The run comes to a result, with room reserved for all that the answers announced. -/
structure NeverPanics
    (run : List Reservation × Option (List UInt8 × Except Error GetResponse)) : Prop where
  returns : ∃ result, run.2 = some result
  untruncated : ∀ reservation ∈ run.1, reservation.Untruncated

section
variable {bytes : BytesCrate} {shuffled : List Str} {sendTo : Nat → Str → Except Error Response}
  {buf : List UInt8}

theorem attemptNext_plain (i : Nat) :
    let sent := sendTo i (RetryPolicy.target shuffled i)
    RetryPolicy.attemptNext shuffled (readNext sendTo) ((i, i), buf) =
      (((i + 1, i + 1), (readInto sent buf).1), (readInto sent buf).2) :=
  rfl

theorem attemptNext_readNextReserving (i : Nat) (log : List Reservation) :
    RetryPolicy.attemptNext shuffled (readNextReserving bytes sendTo) ((i, i, log), buf) =
      let sent := sendTo i (RetryPolicy.target shuffled i)
      match (readReserving bytes sent buf).2 with
      | none => (((i + 1, i + 1, log ++ (readReserving bytes sent buf).1), []), .ok none)
      | some (body, result) =>
        (((i + 1, i + 1, log ++ (readReserving bytes sent buf).1), body), result.map some) := by
  simp only [RetryPolicy.attemptNext, readNextReserving]
  split <;> rfl

theorem log_attemptNext (i made : Nat) (log : List Reservation) (body : List UInt8) :
    (RetryPolicy.attemptNext shuffled (readNextReserving bytes sendTo)
        ((i, made, log), body)).1.1.2.2 =
      log ++ (readReserving bytes (sendTo made (RetryPolicy.target shuffled i)) body).1 := by
  simp only [RetryPolicy.attemptNext, readNextReserving]
  split <;> rfl

variable {loop : List Duration → (Nat × Nat × List Reservation) × List UInt8 →
    ((Nat × Nat × List Reservation) × List UInt8) × Except Error (Option GetResponse)}
  (hloop : RetryLoop (RetryPolicy.attemptNext shuffled (readNextReserving bytes sendTo))
    Error.isRetryable loop)

theorem mem_log_loop (hloop : RetryLoop
      (RetryPolicy.attemptNext shuffled (readNextReserving bytes sendTo)) Error.isRetryable loop)
    (delays : List Duration) {i : Nat} {log : List Reservation} {reservation : Reservation}
    (hmem : reservation ∈
      (readReserving bytes (sendTo i (RetryPolicy.target shuffled i)) buf).1) :
    reservation ∈ (loop delays ((i, i, log), buf)).1.1.2.2 := by
  apply hloop.keeps fun s => reservation ∈ s.1.2.2
  · rintro ⟨⟨i, made, log⟩, body⟩ hs
    rw [log_attemptNext]
    exact List.mem_append_left _ hs
  · rw [log_attemptNext]
    exact List.mem_append_right _ hmem

variable (hbytes : bytes.Lawful) (hbuf : buf.length ≤ bytes.isizeMax)
include hbytes hbuf

theorem attemptNext_of_fits {i : Nat} (log : List Reservation)
    (hfits : ∀ response, sendTo i (RetryPolicy.target shuffled i) = .ok response →
      response.Fits bytes buf.length) :
    let sent := sendTo i (RetryPolicy.target shuffled i)
    RetryPolicy.attemptNext shuffled (readNextReserving bytes sendTo) ((i, i, log), buf) =
      (((i + 1, i + 1, log ++ (readReserving bytes sent buf).1), (readInto sent buf).1),
        (readInto sent buf).2.map some) := by
  rw [attemptNext_readNextReserving]
  simp only [(readReserving_of_fits hbytes hbuf hfits).1]

theorem loop_eq_of_fit (hloop : RetryLoop
      (RetryPolicy.attemptNext shuffled (readNextReserving bytes sendTo)) Error.isRetryable loop)
    {plain : List Duration → (Nat × Nat) × List UInt8 →
      ((Nat × Nat) × List UInt8) × Except Error GetResponse}
    (hplain : RetryLoop (RetryPolicy.attemptNext shuffled (readNext sendTo)) Error.isRetryable plain)
    (delays : List Duration) (i : Nat) {log : List Reservation}
    (hlog : ∀ reservation ∈ log, reservation.Untruncated)
    (hfit : AttemptsFit bytes delays.length buf.length fun k =>
      sendTo (i + k) (RetryPolicy.target shuffled (i + k))) :
    (loop delays ((i, i, log), buf)).1.2 = (plain delays ((i, i), buf)).1.2 ∧
      (loop delays ((i, i, log), buf)).2 = (plain delays ((i, i), buf)).2.map some ∧
      ∀ reservation ∈ (loop delays ((i, i, log), buf)).1.1.2.2, reservation.Untruncated := by
  induction delays generalizing i log with
  | nil =>
    have hfirst := attemptsFit_zero_iff.mp hfit
    have hattempt := attemptNext_of_fits hbytes hbuf (i := i) log hfirst
    have huntruncated := (readReserving_of_fits hbytes hbuf hfirst).2
    rw [hloop, hplain, hattempt, attemptNext_plain]
    rcases (readInto (sendTo i (RetryPolicy.target shuffled i)) buf).2 with err | response <;>
      exact ⟨rfl, rfl, List.forall_mem_append.mpr ⟨hlog, huntruncated⟩⟩
  | cons delay delays ih =>
    obtain ⟨hfirst, hrest⟩ := attemptsFit_succ_iff.mp hfit
    have hattempt := attemptNext_of_fits hbytes hbuf (i := i) log hfirst
    have hlog' := List.forall_mem_append.mpr ⟨hlog, (readReserving_of_fits hbytes hbuf hfirst).2⟩
    rw [hloop, hplain, hattempt, attemptNext_plain]
    rcases hresult : (readInto (sendTo i (RetryPolicy.target shuffled i)) buf).2 with err | response
    · have hbody := (readInto_eq_error hresult).2
      have hretried := retried_iff hresult
      simp only [Except.map, hbody]
      by_cases hretryable : err.isRetryable = true
      · rw [if_pos hretryable, if_pos hretryable]
        apply ih (i + 1) hlog'
        simpa only [Nat.add_assoc, Nat.add_comm 1] using hrest (hretried.mp hretryable)
      · rw [if_neg hretryable, if_neg hretryable]
        exact ⟨rfl, rfl, hlog'⟩
    · exact ⟨rfl, rfl, hlog'⟩

theorem fits_of_loop (hloop : RetryLoop
      (RetryPolicy.attemptNext shuffled (readNextReserving bytes sendTo)) Error.isRetryable loop)
    {delays : List Duration} {i : Nat} {log : List Reservation}
    (hreturns : (loop delays ((i, i, log), buf)).2 ≠ .ok none)
    (huntruncated : ∀ reservation ∈ (loop delays ((i, i, log), buf)).1.1.2.2,
      reservation.Untruncated) {response : Response}
    (hsent : sendTo i (RetryPolicy.target shuffled i) = .ok response) :
    response.Fits bytes buf.length := by
  apply fits_of_readReserving hbytes hbuf _ _ hsent
  · intro hpanics
    apply hreturns
    rw [hloop, attemptNext_readNextReserving]
    simp only [hpanics]
  · exact fun reservation hmem => huntruncated reservation (mem_log_loop hloop delays hmem)

theorem fit_of_loop (hloop : RetryLoop
      (RetryPolicy.attemptNext shuffled (readNextReserving bytes sendTo)) Error.isRetryable loop)
    (delays : List Duration) (i : Nat) (log : List Reservation)
    (hreturns : (loop delays ((i, i, log), buf)).2 ≠ .ok none)
    (huntruncated : ∀ reservation ∈ (loop delays ((i, i, log), buf)).1.1.2.2,
      reservation.Untruncated) :
    AttemptsFit bytes delays.length buf.length fun k =>
      sendTo (i + k) (RetryPolicy.target shuffled (i + k)) := by
  have hfirst : ∀ response, sendTo i (RetryPolicy.target shuffled i) = .ok response →
      response.Fits bytes buf.length :=
    fun response => fits_of_loop hbytes hbuf hloop hreturns huntruncated
  induction delays generalizing i log with
  | nil => exact attemptsFit_zero_iff.mpr hfirst
  | cons delay delays ih =>
    refine attemptsFit_succ_iff.mpr ⟨hfirst, fun hretried => ?_⟩
    have hattempt := attemptNext_of_fits hbytes hbuf (i := i) log hfirst
    rw [hloop, hattempt] at hreturns huntruncated
    rcases hresult : (readInto (sendTo i (RetryPolicy.target shuffled i)) buf).2 with err | response
    · have hretryable := (retried_iff hresult).mpr hretried
      simp only [hresult, (readInto_eq_error hresult).2, Except.map, if_pos hretryable]
        at hreturns huntruncated
      have hrest := ih (i + 1) _ hreturns huntruncated fun response =>
        fits_of_loop hbytes hbuf hloop hreturns huntruncated
      simpa only [Nat.add_assoc, Nat.add_comm 1] using hrest
    · exact absurd hretried (not_retried hresult)

end

/-! ### The whole of it -/

section
variable {backon : BackonCrate} (hbackon : backon.Lawful) {bytes : BytesCrate}
  (hbytes : bytes.Lawful) (policy : RetryPolicy backon) (endpoints shuffled : List Str)
  (sendTo : Nat → Str → Except Error Response) {buf : List UInt8}
  (hbuf : buf.length ≤ bytes.isizeMax)
include hbackon hbytes hbuf

theorem getIntoReserving_of_fit (hfit : endpoints ≠ [] → AttemptsFit bytes policy.backoffRetries
      buf.length fun i => sendTo i (RetryPolicy.target shuffled i)) :
    (policy.getIntoReserving bytes endpoints shuffled sendTo buf).2 =
        some (policy.getInto endpoints shuffled sendTo buf) ∧
      ∀ reservation ∈ (policy.getIntoReserving bytes endpoints shuffled sendTo buf).1,
        reservation.Untruncated := by
  have hnil : ∀ reservation ∈ ([] : List Reservation), reservation.Untruncated :=
    fun reservation hmem => absurd hmem List.not_mem_nil
  unfold RetryPolicy.getIntoReserving RetryPolicy.getInto RetryPolicy.runWithEndpoints
  by_cases hendpoints : endpoints = []
  · rw [if_pos hendpoints, if_pos hendpoints]
    exact ⟨rfl, hnil⟩
  · have hfits := hfit hendpoints
    rw [← policy.length_delays] at hfits
    obtain ⟨hbody, hresult, huntruncated⟩ := loop_eq_of_fit hbytes hbuf
      (hbackon.retryWithContext_loop _ _) (hbackon.retryWithContext_loop _ _) policy.delays 0
      hnil (by simpa only [Nat.zero_add] using hfits)
    rw [if_neg hendpoints, if_neg hendpoints]
    refine ⟨?_, huntruncated⟩
    simp only [hbody, hresult]
    rcases (backon.retryWithContext (RetryPolicy.attemptNext shuffled (readNext sendTo))
      Error.isRetryable policy.delays ((0, 0), buf)).2 with err | response <;> rfl

theorem neverPanics_getIntoReserving_iff :
    NeverPanics (policy.getIntoReserving bytes endpoints shuffled sendTo buf) ↔
      (endpoints ≠ [] → AttemptsFit bytes policy.backoffRetries buf.length fun i =>
        sendTo i (RetryPolicy.target shuffled i)) := by
  constructor
  · rintro ⟨hreturns, huntruncated⟩ hendpoints
    unfold RetryPolicy.getIntoReserving RetryPolicy.runWithEndpoints at hreturns huntruncated
    rw [if_neg hendpoints] at hreturns huntruncated
    have hfit := fit_of_loop hbytes hbuf (hbackon.retryWithContext_loop
      (RetryPolicy.attemptNext shuffled (readNextReserving bytes sendTo)) Error.isRetryable)
      policy.delays 0 [] ?_ huntruncated
    · rw [policy.length_delays] at hfit
      simpa only [Nat.zero_add] using hfit
    · intro hpanics
      obtain ⟨result, hresult⟩ := hreturns
      simp only [hpanics] at hresult
      cases hresult
  · intro hfit
    obtain ⟨hresult, huntruncated⟩ := getIntoReserving_of_fit hbackon hbytes policy endpoints
      shuffled sendTo hbuf hfit
    exact ⟨⟨_, hresult⟩, huntruncated⟩

end

theorem exists_lookup {crates : ProxyCrates} (hring : crates.ring.Lawful) (proxy : Proxy crates)
    (now : Nat) (request : GetRequest) (hreplicas : Proxy.replicasOf request.replicas ≠ 0) :
    ∃ fuel looked, proxy.lookupProxyEndpoints fuel now request = some looked := by
  unfold Proxy.lookupProxyEndpoints
  rcases DragonflySdk.taskId crates.id request.toTaskFields with err | taskId
  · exact ⟨0, _, rfl⟩
  · obtain ⟨fuel, selected, hselect⟩ := selects_rust.exists_result hring
      proxy.seedPeerSelector.seedPeers taskId (Nat.pos_of_ne_zero hreplicas)
    refine ⟨fuel, ?_⟩
    simp only
    rw [hselect]
    exact ⟨_, rfl⟩

/-- **A buffer is read into without a panic just when the answers fit**: whoever is asked, what an
attempt is answered with announces no more than the buffer can still hold, and is no longer. -/
theorem get_into_returns_iff (crates : ProxyCrates) (hring : crates.ring.Lawful)
    (hbackon : crates.backon.Lawful) (bytes : BytesCrate) (hbytes : bytes.Lawful)
    (crate : HttpCrate) (shuffle : Shuffle) (request : GetRequest) (buf : List UInt8)
    (hbuf : buf.length ≤ bytes.isizeMax) :
    (∀ (proxy : Proxy crates) (now : Nat) (pool : Nat → Str → Except Error Client),
      (Proxy.replicasOf request.replicas ≠ 0 →
        ∃ fuel looked, proxy.lookupProxyEndpoints fuel now request = some looked) ∧
      ∀ fuel looked, proxy.lookupProxyEndpoints fuel now request = some looked →
        ∃ run, proxy.getIntoReserving bytes crate fuel now shuffle pool request buf = some run ∧
          (NeverPanics run ↔ (request.validate crates.id.url = .ok () →
            ∀ endpoints, looked = .ok endpoints → endpoints ≠ [] →
              AttemptsFit bytes proxy.retry.backoffRetries buf.length fun i =>
                Proxy.sendTo crate request
                  (pool i (RetryPolicy.target (shuffle.shuffled endpoints) i))))) ∧
    (∀ {γ : Type} (proxy : ProxyWithEndpoints crates.backon γ) (answer : Nat → γ → Client),
      NeverPanics (proxy.getIntoReserving bytes crates.id.url crate shuffle answer request buf) ↔
        (request.validate crates.id.url = .ok () → proxy.endpoints ≠ [] →
          AttemptsFit bytes proxy.retry.backoffRetries buf.length fun i =>
            proxy.sendTo crate (answer i)
              (RetryPolicy.target (shuffle.shuffled proxy.endpoints) i) request)) := by
  have herror : ∀ err, NeverPanics ([], some (buf, .error err)) := fun err =>
    ⟨⟨_, rfl⟩, fun reservation hmem => absurd hmem List.not_mem_nil⟩
  constructor
  · intro proxy now pool
    refine ⟨exists_lookup hring proxy now request, fun fuel looked hlookup => ?_⟩
    unfold Proxy.getIntoReserving
    rcases hvalid : request.validate crates.id.url with err | _
    · exact ⟨_, rfl, fun _ h => absurd h (by simp), fun _ => herror err⟩
    · simp only [hlookup, Option.map_some]
      refine ⟨_, rfl, ?_⟩
      rcases looked with err | endpoints
      · exact ⟨fun _ _ _ h => absurd h (by simp), fun _ => herror err⟩
      · simp only [neverPanics_getIntoReserving_iff hbackon hbytes proxy.retry endpoints _ _ hbuf]
        constructor
        · intro h _ endpoints' heq
          obtain rfl := Except.ok.inj heq
          exact h
        · exact fun h => h trivial endpoints rfl
  · intro γ proxy answer
    unfold ProxyWithEndpoints.getIntoReserving
    rcases hvalid : request.validate crates.id.url with err | _
    · exact ⟨fun _ h => absurd h (by simp), fun _ => herror err⟩
    · simp only [neverPanics_getIntoReserving_iff hbackon hbytes proxy.retry proxy.endpoints _ _ hbuf]
      exact ⟨fun h _ => h, fun h => h trivial⟩

/-! ### An answer that announces too much -/

/-- The number a text of digits stands for. -/
def digitsValue (digits : Str) : Nat := digits.foldl (fun n c => 10 * n + (c.toNat - '0'.toNat)) 0

/-- A 64-bit target. -/
def exampleBytes : BytesCrate where
  pointerBits := 64
  contentLength response := (HeaderMap.get response.headers "content-length".toList).map digitsValue
  reservePanics len additional := decide (2 ^ 63 - 1 < len + additional)

theorem exampleBytes_lawful : exampleBytes.Lawful where
  reservePanics_iff _ _ := decide_eq_true_iff

/-- The proxy announces 2^63 bytes, and has none. -/
def exampleHuge : Response :=
  ⟨200, [("content-length".toList, "9223372036854775808".toList)], [], .complete⟩

def exampleEndpoints : ProxyWithEndpoints exampleBackon Unit :=
  ⟨["a".toList], ⟨1, none⟩, [("a".toList, ())]⟩

/-- The answers to one proxy, and to fixed endpoints. -/
theorem get_into_returns_iff_huge :
    (∃ fuel looked, addressedProxy.proxy.lookupProxyEndpoints fuel 0 (lookupRequest 1) =
      some looked) ∧
    (NeverPanics (exampleEndpoints.getIntoReserving exampleBytes httpsCrate exampleHttp unshuffled
        (fun _ _ _ _ _ => .ok exampleHuge) (lookupRequest 1) [1]) ↔
      ((lookupRequest 1).validate httpsCrate = .ok () → exampleEndpoints.endpoints ≠ [] →
        AttemptsFit exampleBytes exampleEndpoints.retry.backoffRetries 1 fun i =>
          exampleEndpoints.sendTo exampleHttp (fun _ _ _ _ => .ok exampleHuge)
            (RetryPolicy.target (unshuffled.shuffled exampleEndpoints.endpoints) i)
            (lookupRequest 1))) := by
  obtain ⟨hproxy, hendpoints⟩ := get_into_returns_iff lookupCrates nameRing.lawful
    exampleBackon_lawful exampleBytes exampleBytes_lawful exampleHttp unshuffled (lookupRequest 1)
    [1] (by decide)
  exact ⟨(hproxy addressedProxy.proxy 0 fun made _ => .ok (exampleClient made)).1 (by decide),
    hendpoints exampleEndpoints fun _ _ _ _ _ => .ok exampleHuge⟩

/-- The buffer panics, and the byte that was in it is lost. -/
theorem not_neverPanics : ¬ NeverPanics (exampleEndpoints.getIntoReserving exampleBytes httpsCrate
    exampleHttp unshuffled (fun _ _ _ _ _ => .ok exampleHuge) (lookupRequest 1) [1]) := by
  intro h
  obtain ⟨result, hresult⟩ := h.returns
  have hnone : (exampleEndpoints.getIntoReserving exampleBytes httpsCrate exampleHttp unshuffled
      (fun _ _ _ _ _ => .ok exampleHuge) (lookupRequest 1) [1]).2 = none := by
    decide +kernel
  rw [hnone] at hresult
  cases hresult

end DragonflySdk
