import DragonflySdk.Foundation.Background
import DragonflySdk.Proxy.Preheat
import DragonflySdk.Selector.Listing

/-!
# Hot refreshes of the selector

`refresh` takes the mutex of the selector if it is free, lists the seed peers and updates them, while
requests go on selecting. Its steps are those of `HotRefresh`; `update` holds the write lock for its
comparison and for its replacement, and lets go of it in between.

Among any number of refreshes, in Rust and in Go, each comes to what the function `refresh` does at one
moment between its call and its return (`refresh_serializes`), although `update` on its own would not
(`update_linearizable` says no more than that the last writer's list is in effect). And in the life of
a proxy, whose background loop is started after its first refresh, no tick finds the mutex taken: it
selects from the seed peers of the last listing that succeeded (`proxy_keeps_last_listing`).
-/

namespace DragonflySdk

open Foundation

/-- What comes of listing the seed peers: the answer of the scheduler, the checks, and the order in
which they finish. -/
structure RefreshAnswer where
  listed : Except Status (List Host)
  check : Nat → Str → HealthCheck
  finish : FinishOrder

/-- What comes of listing the seed peers in Go: the answer of the scheduler, the checks, and the error
of the context after them. -/
structure Go.RefreshAnswer where
  listed : Except Status (List Host)
  check : Nat → Str → HealthCheck
  ctxErr : Option Go.Error

/-- The steps of `SeedPeerSelector::refresh`. -/
def refreshSteps (crate : HashRingCrate) :
    HotRefresh RefreshAnswer Error (List SeedPeer) Hosts crate.Ring where
  update := updateSteps crate
  list listing := listSeedPeers listing.listed listing.check listing.finish

/-- The steps of `SeedPeerSelector.Refresh`. -/
def Go.refreshSteps (crate : HashRingCrate) :
    HotRefresh Go.RefreshAnswer Go.Error (List Go.SeedPeer) Hosts crate.Ring where
  update := Go.updateSteps crate
  list listing := Go.listSeedPeers listing.listed listing.check listing.ctxErr

variable {crate : HashRingCrate} {ι β ε α : Type}

/-- What a select sees between two steps of the refreshes. -/
def HotRefresh.seen (s : HotRefresh.State ι β α Hosts crate.Ring) : SeedPeers crate :=
  ⟨s.data, s.index⟩

/-! ### As the function -/

section
variable (list : β → Except ε α) (hostsOf : α → Hosts)
  (refresh : SeedPeers crate → Bool → β → List Str → SeedPeers crate × Except ε Unit)

/-- The refresh is the function on its own, with some order of the names in the new map. -/
def Refreshed (s : SeedPeers crate) (call : HotRefresh.Call ι β ε) (s' : SeedPeers crate) : Prop :=
  match call.answer with
  | none => ∀ listing names, refresh s true listing names = (s', call.result)
  | some listing => ∃ names, (∀ l, list listing = .ok l → (hostsOf l).Yields names) ∧
    refresh s false listing names = (s', call.result)

/-- Whoever lists and updates behind the mutex. -/
structure RefreshesBy (update : SeedPeers crate → α → List Str → SeedPeers crate) : Prop where
  running : ∀ s listing names, refresh s true listing names = (s, .ok ())
  failed : ∀ s listing names err, list listing = .error err →
    refresh s false listing names = (s, .error err)
  listed : ∀ s listing names l, list listing = .ok l →
    refresh s false listing names = (update s l names, .ok ())

end

theorem refreshesBy_rust : RefreshesBy (refreshSteps crate).list
    (fun s running listing names =>
      s.refresh running listing.listed listing.check listing.finish names)
    (@SeedPeers.update crate) where
  running _ _ _ := rfl
  failed s listing names err hlist := by
    unfold SeedPeers.refresh
    rw [if_neg Bool.false_ne_true, show listSeedPeers _ _ _ = .error err from hlist]
  listed s listing names l hlist := by
    unfold SeedPeers.refresh
    rw [if_neg Bool.false_ne_true, show listSeedPeers _ _ _ = .ok l from hlist]

theorem refreshesBy_go : RefreshesBy (Go.refreshSteps crate).list
    (fun s running listing names =>
      Go.refresh s running listing.listed listing.check listing.ctxErr names)
    (@Go.update crate) where
  running _ _ _ := rfl
  failed s listing names err hlist := by
    unfold Go.refresh
    rw [if_neg Bool.false_ne_true, show Go.listSeedPeers _ _ _ = .error err from hlist]
  listed s listing names l hlist := by
    unfold Go.refresh
    rw [if_neg Bool.false_ne_true, show Go.listSeedPeers _ _ _ = .ok l from hlist]

theorem RefreshesBy.of_alone {list : β → Except ε α} {hostsOf : α → Hosts}
    {unchanged : Hosts → Hosts → Bool} {update : SeedPeers crate → α → List Str → SeedPeers crate}
    {refresh : SeedPeers crate → Bool → β → List Str → SeedPeers crate × Except ε Unit}
    (h : RefreshesBy list refresh update) (hupdate : Updates hostsOf unchanged update)
    {hosts hosts' : Hosts} {ring ring' : crate.Ring} {call : HotRefresh.Call ι β ε}
    (halone : HotRefresh.Alone ⟨splitUpdate crate hostsOf unchanged, list⟩ (hosts, ring) call
      (hosts', ring')) :
    Refreshed list hostsOf refresh ⟨hosts, ring⟩ call ⟨hosts', ring'⟩ := by
  cases halone with
  | skipped i => exact fun listing names => h.running _ listing names
  | failed i hlist =>
    exact ⟨[], fun l hl => (nomatch hlist.symm.trans hl), h.failed _ _ _ _ hlist⟩
  | @kept i listing l hlist hsame =>
    obtain ⟨names, hnames⟩ := Hosts.exists_yields (hostsOf l)
    refine ⟨names, fun l' hl' => ?_, ?_⟩
    · obtain rfl := Except.ok.inj (hlist.symm.trans hl')
      exact hnames
    · rw [h.listed _ _ _ _ hlist, hupdate.update_eq]
      exact congrArg (·, _) (if_pos hsame)
  | @rebuilt i listing l index hlist hsame hbuilds =>
    obtain ⟨names, hnames, hring⟩ := hbuilds
    refine ⟨names, fun l' hl' => ?_, ?_⟩
    · obtain rfl := Except.ok.inj (hlist.symm.trans hl')
      exact hnames
    · rw [h.listed _ _ _ _ hlist, hupdate.update_eq, hring]
      exact congrArg (·, _) (if_neg (Bool.eq_false_iff.mp hsame))

/-! ### Among other refreshes -/

/-- What any steps of any number of refreshes of a new selector come to. -/
structure Serializes [DecidableEq ι] (p : HotRefresh β ε α Hosts crate.Ring)
    (update : SeedPeers crate → α → List Str → SeedPeers crate)
    (refresh : SeedPeers crate → Bool → β → List Str → SeedPeers crate × Except ε Unit)
    (events : List (HotRefresh.Event ι β ε)) (s : HotRefresh.State ι β α Hosts crate.Ring) :
    Prop where
  /-- No two refreshes are inside. -/
  unique : ∀ i j, s.stage i ≠ .idle → s.stage j ≠ .idle → i = j
  /-- The seed peers are those that the functions leave, called one after the other. -/
  serial : Trace (Refreshed p.list p.update.dataOf refresh) SeedPeers.new (HotRefresh.calls events)
    (HotRefresh.seen s)
  /-- Each caller is returned the results of its calls, each but the last before the next call. -/
  results : ∀ i, HotRefresh.resultsOf i (HotRefresh.made events) =
    HotRefresh.resultsOf i (HotRefresh.returned events) ++ (s.stage i).pending
  /-- Between two writes the first refresh returns, and only then the second one asks. -/
  asked_between : ∀ front between back i j listing listing', events =
    front ++ (.wrote i listing :: (between ++ [.wrote j listing']) ++ back) →
      ∃ x y z, between = x ++ .entered j :: (y ++ .answered j listing' :: z) ∧ .left i ∈ x
  /-- A select sees the seed peers of the last listing written. -/
  seen_eq : ∀ listing, (HotRefresh.written events).getLast? = some listing →
    ∃ l, p.list listing = .ok l ∧ ∀ names, (p.update.dataOf l).Yields names →
      HotRefresh.seen s = update SeedPeers.new l names
  seen_new : HotRefresh.written events = [] → HotRefresh.seen s = SeedPeers.new
  /-- Whoever is inside has a step, and in every run gives the mutex back by the fifth of its own. -/
  frees : ∀ i, s.stage i ≠ .idle →
    (β → ∃ event s', p.Step s event s' ∧ event.caller = i) ∧
      ∀ more s', Trace p.Step s more s' → 5 ≤ (HotRefresh.own i more).length →
        p.FreesWithin 5 s i more

section
variable {list : β → Except ε α} {hostsOf : α → Hosts} {unchanged : Hosts → Hosts → Bool}
  {update : SeedPeers crate → α → List Str → SeedPeers crate}
  {refresh : SeedPeers crate → Bool → β → List Str → SeedPeers crate × Except ε Unit}

theorem Updates.seen_eq [DecidableEq ι] (hcrate : crate.Lawful)
    (hupdate : Updates hostsOf unchanged update) {events : List (HotRefresh.Event ι β ε)}
    {s : HotRefresh.State ι β α Hosts crate.Ring}
    (htrace : Trace (HotRefresh.Step ⟨splitUpdate crate hostsOf unchanged, list⟩)
      (HotRefresh.init Hosts.empty crate.new) events s) :
    (∀ listing, (HotRefresh.written events).getLast? = some listing →
      ∃ l, list listing = .ok l ∧ ∀ names, (hostsOf l).Yields names →
        HotRefresh.seen s = update SeedPeers.new l names) ∧
    (HotRefresh.written events = [] → HotRefresh.seen s = SeedPeers.new) := by
  obtain ⟨hbuilds, hholds⟩ := HotRefresh.holds_last
    (fun old new index hsame (hbuilds : Builds crate old index) =>
      hbuilds.of_keys_eq ((hupdate.unchanged_iff old new).mp hsame))
    builds_new htrace (HotRefresh.inv_init _ _)
  constructor
  · intro listing hlast
    rw [hlast] at hholds
    obtain ⟨l, hlist, hdata⟩ := hholds
    refine ⟨l, hlist, fun names hnames => ?_⟩
    rw [hupdate.update_eq_rebuild hcrate builds_new l hnames]
    exact SeedPeers.ext hdata (hbuilds.eq_build hcrate (hdata ▸ hnames))
  · intro hnil
    rw [hnil] at hholds
    exact SeedPeers.ext hholds.1 hholds.2

theorem RefreshesBy.serializes [DecidableEq ι] (hcrate : crate.Lawful)
    (hrefresh : RefreshesBy list refresh update) (hupdate : Updates hostsOf unchanged update)
    {events : List (HotRefresh.Event ι β ε)} {s : HotRefresh.State ι β α Hosts crate.Ring}
    (htrace : Trace (HotRefresh.Step ⟨splitUpdate crate hostsOf unchanged, list⟩)
      (HotRefresh.init Hosts.empty crate.new) events s) :
    Serializes ⟨splitUpdate crate hostsOf unchanged, list⟩ update refresh events s where
  unique := (HotRefresh.inv_of_trace htrace (HotRefresh.inv_init _ _)).unique
  serial := (HotRefresh.serial htrace (HotRefresh.inv_init _ _)).map
    (fun s : Hosts × crate.Ring => (⟨s.1, s.2⟩ : SeedPeers crate))
    fun _ _ _ halone => hrefresh.of_alone hupdate halone
  results i := HotRefresh.resultsOf_made_eq htrace (fun _ => rfl) i
  asked_between front between back i j listing listing' heq := by
    rw [heq] at htrace
    obtain ⟨s₁, hfront, hrest⟩ := Trace.append_iff.mp htrace
    obtain ⟨s₂, hbetween, _⟩ := Trace.append_iff.mp hrest
    exact HotRefresh.asked_between (HotRefresh.inv_of_trace hfront (HotRefresh.inv_init _ _)) hbetween
  seen_eq := (hupdate.seen_eq hcrate htrace).1
  seen_new := (hupdate.seen_eq hcrate htrace).2
  frees i hinside := by
    have hbuilds : ∀ hosts, ∃ ring, Builds crate hosts ring := fun hosts =>
      (Hosts.exists_yields hosts).elim fun names hnames => ⟨_, names, hnames, rfl⟩
    exact ⟨HotRefresh.exists_step hinside hbuilds, fun more s' hmore hown =>
      HotRefresh.freesWithin_of_trace hmore hinside HotRefresh.stepsLeft_le hown⟩

end

/-- **Hot refreshes come to their functions, called one after the other**, in Rust and in Go: each at
one moment between its call and its return, and with seed peers that were asked for after the last
ones had been written. -/
theorem refresh_serializes (rust go : HashRingCrate) (hrust : rust.Lawful) (hgo : go.Lawful)
    [DecidableEq ι] :
    (∀ events (s : HotRefresh.State ι RefreshAnswer (List SeedPeer) Hosts rust.Ring),
      Trace (refreshSteps rust).Step (HotRefresh.init Hosts.empty rust.new) events s →
      Serializes (refreshSteps rust) SeedPeers.update
        (fun s running listing names =>
          s.refresh running listing.listed listing.check listing.finish names) events s) ∧
    ∀ events (s : HotRefresh.State ι Go.RefreshAnswer (List Go.SeedPeer) Hosts go.Ring),
      Trace (Go.refreshSteps go).Step (HotRefresh.init Hosts.empty go.new) events s →
      Serializes (Go.refreshSteps go) Go.update
        (fun s running listing names =>
          Go.refresh s running listing.listed listing.check listing.ctxErr names) events s :=
  ⟨fun _ _ htrace => refreshesBy_rust.serializes hrust updates_rust htrace,
    fun _ _ htrace => refreshesBy_go.serializes hgo updates_go htrace⟩

/-- One refresh among which another one is called, by a listing. -/
def exampleEvents (listing : β) : List (HotRefresh.Event Bool β ε) :=
  [.entered true, .skipped false, .answered true listing, .differed true, .built true,
    .wrote true listing, .left true]

theorem exists_trace_exampleEvents {hostsOf : α → Hosts} {unchanged : Hosts → Hosts → Bool}
    {list : β → Except ε α} {listing : β} {l : α} (hlist : list listing = .ok l)
    (hsame : unchanged Hosts.empty (hostsOf l) = false) :
    ∃ s, Trace (HotRefresh.Step ⟨splitUpdate crate hostsOf unchanged, list⟩)
      (HotRefresh.init Hosts.empty crate.new) (exampleEvents listing) s := by
  obtain ⟨names, hnames⟩ := Hosts.exists_yields (hostsOf l)
  exact ⟨_, _, .enter true rfl rfl, _, .skip false rfl rfl, _, .answer true listing l rfl hlist,
    _, .differ true listing l rfl hsame, _, .build true listing l _ rfl ⟨names, hnames, rfl⟩,
    _, .write true listing l _ rfl, _, .leave true rfl, rfl⟩

/-- Both seed peers are serving. -/
def exampleRefreshAnswer : RefreshAnswer :=
  ⟨.ok [exampleHost "seed-peer-1".toList, exampleHost "seed-peer-2".toList],
    fun _ _ => .answered serving, inOrder⟩

def Go.exampleRefreshAnswer : Go.RefreshAnswer :=
  ⟨.ok [exampleHost "seed-peer-1".toList, exampleHost "seed-peer-2".toList],
    fun _ _ => .answered serving, none⟩

theorem list_exampleRefreshAnswer :
    (refreshSteps nameRing).list exampleRefreshAnswer = .ok exampleSeedPeers := by
  decide +kernel

theorem Go.list_exampleRefreshAnswer :
    (Go.refreshSteps nameRing).list Go.exampleRefreshAnswer = .ok Go.exampleSeedPeers := rfl

theorem unchanged_example : SeedPeers.unchanged Hosts.empty (hostsOf exampleSeedPeers) = false := by
  decide +kernel

theorem Go.unchanged_example : Go.unchanged Hosts.empty (Go.hostsOf Go.exampleSeedPeers) = false := by
  decide +kernel

/-- A refresh, and one that is called while it is listing. -/
theorem refresh_serializes_skipped :
    (∃ s, Serializes (ι := Bool) (refreshSteps nameRing) SeedPeers.update
      (fun s running listing names =>
        s.refresh running listing.listed listing.check listing.finish names)
      (exampleEvents exampleRefreshAnswer) s) ∧
    ∃ s, Serializes (ι := Bool) (Go.refreshSteps nameRing) Go.update
      (fun s running listing names =>
        Go.refresh s running listing.listed listing.check listing.ctxErr names)
      (exampleEvents Go.exampleRefreshAnswer) s := by
  obtain ⟨hrust, hgo⟩ := @refresh_serializes Bool nameRing nameRing nameRing.lawful nameRing.lawful _
  obtain ⟨s, htrace⟩ :=
    exists_trace_exampleEvents list_exampleRefreshAnswer unchanged_example
  obtain ⟨goState, hgoTrace⟩ :=
    exists_trace_exampleEvents Go.list_exampleRefreshAnswer Go.unchanged_example
  exact ⟨⟨s, hrust _ s htrace⟩, goState, hgo _ goState hgoTrace⟩

/-! ### In the life of a proxy -/

/-- What holds in the life of a proxy, which is built by one refresh, and whose loop makes the others
until the proxy is closed or the process is to shut down. -/
structure KeepsLastListing (keeps : Bool) (p : HotRefresh β ε α Hosts crate.Ring)
    (update : SeedPeers crate → α → List Str → SeedPeers crate)
    (events : List (HotRefresh.LifeEvent β ε)) (l : HotRefresh.Life β α Hosts crate.Ring) : Prop where
  /-- No tick is skipped. -/
  lists : ∀ call ∈ HotRefresh.calls (HotRefresh.refreshes events), call.answer.isSome = true
  /-- Once it is built, the proxy selects from what the last listing that succeeded has listed. -/
  seen_eq : l.phase = .running ∨ l.phase = .returned →
    ∃ listing list, (HotRefresh.written (HotRefresh.refreshes events)).getLast? = some listing ∧
      p.list listing = .ok list ∧ ∀ names, (p.update.dataOf list).Yields names →
        HotRefresh.seen l.hot = update SeedPeers.new list names
  /-- When the loop has returned, the seed peers stay. -/
  settled : l.phase = .returned → ∀ more l', Trace (HotRefresh.Life.Step keeps p) l more l' →
    HotRefresh.seen l'.hot = HotRefresh.seen l.hot

theorem Updates.keepsLastListing (hcrate : crate.Lawful) {list : β → Except ε α}
    {hostsOf : α → Hosts} {unchanged : Hosts → Hosts → Bool}
    {update : SeedPeers crate → α → List Str → SeedPeers crate}
    (hupdate : Updates hostsOf unchanged update) {keeps : Bool}
    {events : List (HotRefresh.LifeEvent β ε)} {l : HotRefresh.Life β α Hosts crate.Ring}
    (htrace : Trace (HotRefresh.Life.Step keeps ⟨splitUpdate crate hostsOf unchanged, list⟩)
      (HotRefresh.Life.new Hosts.empty crate.new) events l) :
    KeepsLastListing keeps ⟨splitUpdate crate hostsOf unchanged, list⟩ update events l := by
  have hkept := HotRefresh.Life.kept htrace
  refine ⟨fun call hmem => ?_, fun hbuilt => ?_, fun hover more l' hmore => ?_⟩
  · obtain ⟨event, hevent, hcall⟩ := List.mem_filterMap.mp hmem
    cases event with
    | skipped i => exact absurd hevent (hkept.not_skipped i)
    | failed | wrote =>
      obtain rfl := Option.some.inj hcall
      rfl
    | entered | answered | differed | built | left => cases hcall
  · obtain ⟨listing, hlast⟩ := Option.isSome_iff_exists.mp
      (List.getLast?_isSome.mpr (hkept.written_ne_nil hbuilt))
    obtain ⟨list, hlist, hseen⟩ := (hupdate.seen_eq hcrate hkept.trace).1 listing hlast
    exact ⟨listing, list, hlast, hlist, hseen⟩
  · unfold HotRefresh.seen
    rw [HotRefresh.Life.hot_eq hmore (.inl hover)]

/-- **A proxy that has been built selects from the last listing that succeeded**, in Rust and in Go:
every tick of its loop lists, and a listing that fails leaves the seed peers of the one before. The
loop in Rust returns on a signal that comes while it waits, and on no other; the one in Go finds that
it has been closed whenever it waits again. -/
theorem proxy_keeps_last_listing (rust go : HashRingCrate) (hrust : rust.Lawful) (hgo : go.Lawful) :
    (∀ events (l : HotRefresh.Life RefreshAnswer (List SeedPeer) Hosts rust.Ring),
      Trace (HotRefresh.Life.Step false (refreshSteps rust))
        (HotRefresh.Life.new Hosts.empty rust.new) events l →
      KeepsLastListing false (refreshSteps rust) SeedPeers.update events l ∧
        (l.phase = .returned → ∃ x y, events = x ++ .stop :: y ∧ HotRefresh.refreshes y = []) ∧
        ∀ l', HotRefresh.Life.Step false (refreshSteps rust) l .stop l' →
          l.hot.stage .loop ≠ .idle → l' = l) ∧
    ∀ events (l : HotRefresh.Life Go.RefreshAnswer (List Go.SeedPeer) Hosts go.Ring),
      Trace (HotRefresh.Life.Step true (Go.refreshSteps go))
        (HotRefresh.Life.new Hosts.empty go.new) events l →
      KeepsLastListing true (Go.refreshSteps go) Go.update events l ∧
        (.stop ∈ events → l.phase = .running → l.hot.stage .loop = .idle →
          ∃ l', HotRefresh.Life.Step true (Go.refreshSteps go) l .returned l') := by
  constructor
  · intro events l htrace
    exact ⟨Updates.keepsLastListing hrust updates_rust htrace, HotRefresh.Life.exists_stop htrace,
      fun _ hstep hinside => hstep.eq_of_stop hinside⟩
  · intro events l htrace
    exact ⟨Updates.keepsLastListing hgo updates_go htrace, fun hstop hphase hidle =>
      ⟨_, .returns hphase (HotRefresh.Life.stopping_of_stop htrace hstop) hidle⟩⟩

/-- A proxy is built by a listing, the first tick of its loop fails to list, and it is then told to
stop. -/
def exampleLife (listing failing : β) (err : ε) : List (HotRefresh.LifeEvent β ε) :=
  ([.entered .builder, .answered .builder listing, .differed .builder, .built .builder,
    .wrote .builder listing, .left .builder, .entered .loop, .failed .loop failing err].map
      HotRefresh.LifeEvent.refresh) ++ [.stop, .returned]

theorem exists_trace_exampleLife {hostsOf : α → Hosts} {unchanged : Hosts → Hosts → Bool}
    {list : β → Except ε α} {listing failing : β} {l : α} {err : ε} (hlist : list listing = .ok l)
    (hsame : unchanged Hosts.empty (hostsOf l) = false) (hfailing : list failing = .error err)
    (keeps : Bool) :
    ∃ life, life.phase = .returned ∧
      Trace (HotRefresh.Life.Step keeps ⟨splitUpdate crate hostsOf unchanged, list⟩)
        (HotRefresh.Life.new Hosts.empty crate.new) (exampleLife listing failing err) life := by
  obtain ⟨names, hnames⟩ := Hosts.exists_yields (hostsOf l)
  have hbuilds : (splitUpdate crate hostsOf unchanged).Builds (hostsOf l) (crate.build names) :=
    ⟨names, hnames, rfl⟩
  refine ⟨_, ?_, _, .build _ rfl rfl (.enter _ rfl rfl),
    _, .build _ rfl rfl (.answer _ listing l rfl hlist),
    _, .build _ rfl rfl (.differ _ listing l rfl hsame),
    _, .build _ rfl rfl (.build _ listing l _ rfl hbuilds),
    _, .build _ rfl rfl (.write _ listing l _ rfl),
    _, .build _ rfl rfl (.leave _ rfl),
    _, .tick _ rfl rfl (.enter _ rfl rfl), _, .tick _ rfl rfl (.fail _ failing err rfl hfailing),
    _, .stop, _, .returns rfl ?_ rfl, rfl⟩
  · rfl
  · cases keeps <;> rfl

/-- The scheduler cannot be asked. -/
def exampleRefreshFailure : RefreshAnswer :=
  ⟨.error ⟨.unavailable, [], []⟩, fun _ _ => .answered serving, inOrder⟩

def Go.exampleRefreshFailure : Go.RefreshAnswer :=
  ⟨.error ⟨.unavailable, [], []⟩, fun _ _ => .answered serving, none⟩

theorem list_exampleRefreshFailure :
    ∃ err, (refreshSteps nameRing).list exampleRefreshFailure = .error err := ⟨_, rfl⟩

theorem Go.list_exampleRefreshFailure :
    ∃ err, (Go.refreshSteps nameRing).list Go.exampleRefreshFailure = .error err := ⟨_, rfl⟩

/-- A listing, one that fails, and the end of the loop. -/
theorem proxy_keeps_last_listing_stopped :
    (∃ err l, l.phase = .returned ∧ KeepsLastListing false (refreshSteps nameRing) SeedPeers.update
      (exampleLife exampleRefreshAnswer exampleRefreshFailure err) l) ∧
    ∃ err l, l.phase = .returned ∧ KeepsLastListing true (Go.refreshSteps nameRing) Go.update
      (exampleLife Go.exampleRefreshAnswer Go.exampleRefreshFailure err) l := by
  obtain ⟨hrust, hgo⟩ :=
    proxy_keeps_last_listing nameRing nameRing nameRing.lawful nameRing.lawful
  obtain ⟨err, hfailing⟩ := list_exampleRefreshFailure
  obtain ⟨goErr, hgoFailing⟩ := Go.list_exampleRefreshFailure
  obtain ⟨l, hreturned, htrace⟩ :=
    exists_trace_exampleLife list_exampleRefreshAnswer unchanged_example hfailing false
  obtain ⟨goLife, hgoReturned, hgoTrace⟩ :=
    exists_trace_exampleLife Go.list_exampleRefreshAnswer Go.unchanged_example hgoFailing true
  exact ⟨⟨_, l, hreturned, (hrust _ l htrace).1⟩, _, goLife, hgoReturned, (hgo _ goLife hgoTrace).1⟩

end DragonflySdk
