import DragonflySdk.Proxy.Lookup

/-!
# Asking for more replicas

A request counts its replicas in 64 bits, `select` in 32, and in both languages the count is cut. So
asking for more can count fewer, or none at all. Where it does not, the endpoints found for fewer are
the first of those found for more, as long as the replicas that come in addition can be addressed.
When just that is the case is `lookup_more_replicas_iff`.
-/

namespace DragonflySdk

open Foundation

variable {crate : HashRingCrate} {ε : Type}

/-! ### More or fewer replicas -/

section conclude
variable {endpointOf : Host → Except ε Str} {ejected : Str → Bool}
  {noneHealthy allEjected parseError : ε} {replicas rest : List SeedPeer}

/-- Every healthy one is ejected. -/
def AllEjected (endpointOf : Host → Except ε Str) (ejected : Str → Bool)
    (replicas : List SeedPeer) : Prop :=
  ∀ seedPeer ∈ replicas, seedPeer.healthy = true →
    ∃ endpoint, endpointOf seedPeer.host = .ok endpoint ∧ ejected endpoint = true

/-- One is usable, and every healthy one can be addressed. -/
def Usable (endpointOf : Host → Except ε Str) (ejected : Str → Bool)
    (replicas : List SeedPeer) : Prop :=
  Addressable endpointOf replicas ∧ ∃ seedPeer ∈ replicas, seedPeer.healthy = true ∧
    ∃ endpoint, endpointOf seedPeer.host = .ok endpoint ∧ ejected endpoint = false

theorem addressable_append : Addressable endpointOf (replicas ++ rest) ↔
    Addressable endpointOf replicas ∧ Addressable endpointOf rest := by
  unfold Addressable
  simp only [List.forall_mem_append]

theorem AllEjected.addressable (h : AllEjected endpointOf ejected replicas) :
    Addressable endpointOf replicas := by
  intro seedPeer hmem hhealthy
  obtain ⟨endpoint, hendpoint, _⟩ := h seedPeer hmem hhealthy
  exact ⟨endpoint, hendpoint⟩

theorem filterMap_eq_nil_iff (h : Addressable endpointOf replicas) :
    replicas.filterMap (usableEndpoint endpointOf ejected) = [] ↔
      AllEjected endpointOf ejected replicas := by
  rw [List.filterMap_eq_nil_iff]
  constructor
  · intro hnone seedPeer hmem hhealthy
    obtain ⟨endpoint, hendpoint⟩ := h seedPeer hmem hhealthy
    refine ⟨endpoint, hendpoint, ?_⟩
    by_contra hlive
    have hsome : usableEndpoint endpointOf ejected seedPeer = some endpoint :=
      usableEndpoint_eq_some.mpr ⟨hhealthy, hendpoint, Bool.eq_false_of_not_eq_true hlive⟩
    rw [hnone seedPeer hmem] at hsome
    simp at hsome
  · intro hejected seedPeer hmem
    rw [Option.eq_none_iff_forall_ne_some]
    intro endpoint hsome
    obtain ⟨hhealthy, hendpoint, hlive⟩ := usableEndpoint_eq_some.mp hsome
    obtain ⟨endpoint', hendpoint', hdead⟩ := hejected seedPeer hmem hhealthy
    rw [hendpoint, Except.ok.injEq] at hendpoint'
    rw [hendpoint', hdead] at hlive
    simp at hlive

theorem usable_iff : Usable endpointOf ejected replicas ↔
    ∃ endpoints, conclude endpointOf ejected noneHealthy allEjected replicas = .ok endpoints := by
  have hexists : (∃ seedPeer ∈ replicas, seedPeer.healthy = true ∧
      ∃ endpoint, endpointOf seedPeer.host = .ok endpoint ∧ ejected endpoint = false) ↔
      replicas.filterMap (usableEndpoint endpointOf ejected) ≠ [] := by
    rw [filterMap_ne_nil_iff]
    simp only [usableEndpoint_eq_some, exists_and_left]
  unfold Usable
  rw [hexists]
  simp only [conclude_eq_ok]
  constructor
  · intro h
    exact ⟨_, h.1, h.2, rfl⟩
  · intro h
    obtain ⟨endpoints, haddressable, hne, heq⟩ := h
    exact ⟨haddressable, heq ▸ hne⟩

/-- One lookup finds what another one does, and maybe more after it. -/
def Extends (result result' : Except ε (List Str)) : Prop :=
  ∀ endpoints, result = .ok endpoints → ∃ endpoints', result' = .ok endpoints' ∧
    endpoints <+: endpoints'

theorem extends_append_iff :
    Extends (conclude endpointOf ejected noneHealthy allEjected replicas)
        (conclude endpointOf ejected noneHealthy allEjected (replicas ++ rest)) ↔
      (Usable endpointOf ejected replicas → Addressable endpointOf rest) := by
  rw [usable_iff]
  constructor
  · intro h hok
    obtain ⟨endpoints, hok⟩ := hok
    obtain ⟨endpoints', hok', _⟩ := h endpoints hok
    exact (addressable_append.mp (conclude_eq_ok.mp hok').1).2
  · intro h endpoints hok
    have hrest := h ⟨endpoints, hok⟩
    obtain ⟨haddressable, hne, heq⟩ := conclude_eq_ok.mp hok
    refine ⟨_, conclude_eq_ok.mpr ⟨addressable_append.mpr ⟨haddressable, hrest⟩, ?_, rfl⟩, ?_⟩
    · rw [List.filterMap_append, ← heq]
      exact List.append_ne_nil_of_left_ne_nil hne _
    · rw [List.filterMap_append, ← heq]
      exact List.prefix_append _ _

theorem extends_of_append_iff :
    Extends (conclude endpointOf ejected noneHealthy allEjected (replicas ++ rest))
        (conclude endpointOf ejected noneHealthy allEjected replicas) ↔
      (Usable endpointOf ejected (replicas ++ rest) → AllEjected endpointOf ejected rest) := by
  rw [usable_iff]
  constructor
  · intro h hok
    obtain ⟨endpoints, hok⟩ := hok
    obtain ⟨endpoints', hok', hinit⟩ := h endpoints hok
    obtain ⟨haddressable, _, heq⟩ := conclude_eq_ok.mp hok
    obtain ⟨_, _, heq'⟩ := conclude_eq_ok.mp hok'
    rw [heq, heq', List.filterMap_append] at hinit
    have hlength := hinit.length_le
    rw [List.length_append] at hlength
    rw [← filterMap_eq_nil_iff (addressable_append.mp haddressable).2]
    exact List.eq_nil_of_length_eq_zero (by omega)
  · intro h endpoints hok
    have hejected := h ⟨endpoints, hok⟩
    obtain ⟨haddressable, hne, heq⟩ := conclude_eq_ok.mp hok
    rw [List.filterMap_append, (filterMap_eq_nil_iff hejected.addressable).mpr hejected,
      List.append_nil] at heq
    exact ⟨endpoints, conclude_eq_ok.mpr ⟨(addressable_append.mp haddressable).1, hne, heq⟩,
      List.prefix_refl _⟩

/-! ### The same result -/

theorem healthyHosts_append (replicas rest : List SeedPeer) :
    healthyHosts (replicas ++ rest) = healthyHosts replicas ++ healthyHosts rest := by
  rw [healthyHosts, List.filter_append, List.map_append]
  rfl

theorem conclude_of_addressable (hhealthy : healthyHosts replicas ≠ [])
    (h : Addressable endpointOf replicas) :
    conclude endpointOf ejected noneHealthy allEjected replicas =
      if replicas.filterMap (usableEndpoint endpointOf ejected) = [] then .error allEjected
      else .ok (replicas.filterMap (usableEndpoint endpointOf ejected)) := by
  obtain ⟨endpoints, hendpoints⟩ := addressable_iff.mp h
  rw [conclude, if_neg hhealthy, hendpoints, ← filter_eq_filterMap hendpoints]
  rfl

theorem conclude_of_not_addressable
    (hparse : ∀ host err, endpointOf host = .error err → err = parseError)
    (h : ¬ Addressable endpointOf replicas) :
    conclude endpointOf ejected noneHealthy allEjected replicas = .error parseError := by
  have hhealthy : healthyHosts replicas ≠ [] := by
    intro hnil
    refine h fun seedPeer hmem hseedPeer => ?_
    rw [healthyHosts_eq_nil_iff.mp hnil seedPeer hmem] at hseedPeer
    simp at hseedPeer
  rw [conclude, if_neg hhealthy]
  rcases hmapM : (healthyHosts replicas).mapM endpointOf with err | endpoints
  · obtain ⟨host, _, herr⟩ := exists_of_mapM_eq_error hmapM
    rw [hparse host err herr]
    rfl
  · exact absurd (addressable_iff.mpr ⟨endpoints, hmapM⟩) h

/-- The replicas in `rest` make no difference: none is healthy, or one before is, and either the lookup
fails over its address or the healthy ones in `rest` are all ejected. -/
def NoDifference (endpointOf : Host → Except ε Str) (ejected : Str → Bool)
    (replicas rest : List SeedPeer) : Prop :=
  (∀ seedPeer ∈ rest, seedPeer.healthy = false) ∨
    (∃ seedPeer ∈ replicas, seedPeer.healthy = true) ∧
      (¬ Addressable endpointOf replicas ∨ AllEjected endpointOf ejected rest)

theorem conclude_append_eq_iff
    (hparse : ∀ host err, endpointOf host = .error err → err = parseError)
    (hparseHealthy : parseError ≠ noneHealthy) (hparseEjected : parseError ≠ allEjected)
    (hejectedHealthy : allEjected ≠ noneHealthy) :
    conclude endpointOf ejected noneHealthy allEjected (replicas ++ rest) =
        conclude endpointOf ejected noneHealthy allEjected replicas ↔
      NoDifference endpointOf ejected replicas rest := by
  unfold NoDifference
  rw [← healthyHosts_eq_nil_iff]
  have hexists : (∃ seedPeer ∈ replicas, seedPeer.healthy = true) ↔ healthyHosts replicas ≠ [] := by
    rw [Ne, healthyHosts_eq_nil_iff]
    push Not
    simp only [Bool.not_eq_false]
  rw [hexists]
  by_cases hrest : healthyHosts rest = []
  · refine iff_of_true ?_ (Or.inl hrest)
    rw [conclude, conclude, healthyHosts_append, hrest, List.append_nil]
  rw [or_iff_right hrest]
  have hboth : healthyHosts (replicas ++ rest) ≠ [] := by
    rw [healthyHosts_append]
    exact List.append_ne_nil_of_right_ne_nil _ hrest
  by_cases haddressable : Addressable endpointOf replicas
  · by_cases hnone : healthyHosts replicas = []
    · -- without `rest` no replica is healthy, with it one is
      refine iff_of_false ?_ fun h => h.1 hnone
      have hleft : conclude endpointOf ejected noneHealthy allEjected replicas =
          .error noneHealthy := if_pos hnone
      rw [hleft]
      by_cases hrestAddressable : Addressable endpointOf rest
      · rw [conclude_of_addressable hboth (addressable_append.mpr ⟨haddressable, hrestAddressable⟩)]
        split
        · simpa using hejectedHealthy
        · simp
      · rw [conclude_of_not_addressable hparse fun h => hrestAddressable (addressable_append.mp h).2]
        simpa using hparseHealthy
    · rw [and_iff_right hnone, or_iff_right (not_not_intro haddressable),
        conclude_of_addressable hnone haddressable]
      by_cases hrestAddressable : Addressable endpointOf rest
      · rw [conclude_of_addressable hboth (addressable_append.mpr ⟨haddressable, hrestAddressable⟩),
          List.filterMap_append, ← filterMap_eq_nil_iff hrestAddressable]
        by_cases hnil : rest.filterMap (usableEndpoint endpointOf ejected) = []
        · rw [hnil, List.append_nil]
          exact iff_of_true rfl rfl
        · refine iff_of_false ?_ hnil
          rw [if_neg (List.append_ne_nil_of_right_ne_nil _ hnil)]
          split
          · simp
          · simpa using hnil
      · rw [conclude_of_not_addressable hparse fun h => hrestAddressable (addressable_append.mp h).2]
        refine iff_of_false ?_ fun h => hrestAddressable h.addressable
        split
        · simpa using hparseEjected
        · simp
  · have hnone : healthyHosts replicas ≠ [] := by
      intro hnil
      refine haddressable fun seedPeer hmem hseedPeer => ?_
      rw [healthyHosts_eq_nil_iff.mp hnil seedPeer hmem] at hseedPeer
      simp at hseedPeer
    refine iff_of_true ?_ ⟨hnone, Or.inl haddressable⟩
    rw [conclude_of_not_addressable hparse haddressable,
      conclude_of_not_addressable hparse fun h => haddressable (addressable_append.mp h).1]

end conclude

/-! ### Two requests -/

section
variable (lookup : Nat → Nat → Option (Except ε (List Str)))

/-- When a lookup of `r₁` replicas succeeds, so does one of `r₂`, and its endpoints begin with those of
the former. -/
def KeepsEndpoints (r₁ r₂ : Nat) : Prop :=
  ∀ fuel₁ endpoints₁, lookup fuel₁ r₁ = some (.ok endpoints₁) →
    ∃ fuel₂ endpoints₂, lookup fuel₂ r₂ = some (.ok endpoints₂) ∧ endpoints₁ <+: endpoints₂

/-- A lookup of `r` replicas has the result of one of `r'`. -/
def SameResult (r r' : Nat) : Prop :=
  ∀ result, (∃ fuel, lookup fuel r = some result) ↔ ∃ fuel, lookup fuel r' = some result

/-- The replicas from the `m`-th up to the `n`-th. -/
def between (s : SeedPeers crate) (taskId : Str) (m n : Nat) : List SeedPeer :=
  (s.replicaSeedPeers taskId n).drop m

/-- Cut to 32 bits, `r₂` still counts what makes the lookup of `r₁` succeed: what comes in addition is
addressable, what is no longer counted is ejected. -/
def KeepsCount (endpointOf : Host → Except ε Str) (ejected : Str → Bool) (s : SeedPeers crate)
    (taskId : Str) (r₁ r₂ : Nat) : Prop :=
  ∀ m₁, counted s taskId (r₁ % 2 ^ 32) = some m₁ →
    Usable endpointOf ejected (s.replicaSeedPeers taskId m₁) →
    ∃ m₂, counted s taskId (r₂ % 2 ^ 32) = some m₂ ∧
      Addressable endpointOf (between s taskId m₁ m₂) ∧
      AllEjected endpointOf ejected (between s taskId m₂ m₁)

/-- Cut to 32 bits, `r` and `r'` count replicas that make no difference. -/
def SameCount (endpointOf : Host → Except ε Str) (ejected : Str → Bool) (s : SeedPeers crate)
    (taskId : Str) (r r' : Nat) : Prop :=
  match counted s taskId (r % 2 ^ 32), counted s taskId (r' % 2 ^ 32) with
  | none, none => True
  | some m, some m' => NoDifference endpointOf ejected (s.replicaSeedPeers taskId (min m m'))
      (between s taskId (min m m') (max m m'))
  | _, _ => False

/-- A lookup concludes from the replicas counted. -/
def LooksUp (s : SeedPeers crate) (taskId : Str)
    (conclusion : List SeedPeer → Except ε (List Str)) : Prop :=
  ∀ r result, (∃ fuel, lookup fuel r = some result) ↔
    ∃ m, counted s taskId (r % 2 ^ 32) = some m ∧
      result = conclusion (s.replicaSeedPeers taskId m)

variable {lookup}

theorem replicaSeedPeers_split (s : SeedPeers crate) (taskId : Str) {m n : Nat} (h : m ≤ n) :
    s.replicaSeedPeers taskId n = s.replicaSeedPeers taskId m ++
      (s.replicaSeedPeers taskId n).drop (s.replicaSeedPeers taskId m).length := by
  obtain ⟨rest, hrest⟩ := SeedPeers.replicaSeedPeers_prefix s taskId h
  rw [← hrest, List.drop_left]

section
variable (hcrate : crate.Lawful) {s : SeedPeers crate} (hs : Builds crate s.hosts s.hashring)
  (taskId : Str)
include hcrate hs

theorem append_between {m n : Nat} (h : m ≤ n) (hm : m ≤ s.hosts.len) :
    s.replicaSeedPeers taskId m ++ between s taskId m n = s.replicaSeedPeers taskId n := by
  have hlen := length_replicaSeedPeers hcrate hs taskId m
  rw [Nat.min_eq_left hm] at hlen
  have hsplit := replicaSeedPeers_split s taskId h
  rw [hlen] at hsplit
  exact hsplit.symm

theorem between_eq_nil {m n : Nat} (h : n ≤ m) : between s taskId m n = [] := by
  have hlen := length_replicaSeedPeers hcrate hs taskId n
  exact List.drop_eq_nil_of_le (by omega)

variable {endpointOf : Host → Except ε Str} {ejected : Str → Bool} {noneHealthy allEjected : ε}

theorem extends_iff {m₁ m₂ : Nat} (h₁ : m₁ ≤ s.hosts.len) (h₂ : m₂ ≤ s.hosts.len) :
    Extends (conclude endpointOf ejected noneHealthy allEjected (s.replicaSeedPeers taskId m₁))
        (conclude endpointOf ejected noneHealthy allEjected (s.replicaSeedPeers taskId m₂)) ↔
      (Usable endpointOf ejected (s.replicaSeedPeers taskId m₁) →
        Addressable endpointOf (between s taskId m₁ m₂) ∧
          AllEjected endpointOf ejected (between s taskId m₂ m₁)) := by
  rcases Nat.le_total m₁ m₂ with hle | hle
  · have hnil : AllEjected endpointOf ejected (between s taskId m₂ m₁) := by
      rw [between_eq_nil hcrate hs taskId hle]
      exact nofun
    rw [← append_between hcrate hs taskId hle h₁, extends_append_iff]
    simp only [hnil, and_true]
  · have hnil : Addressable endpointOf (between s taskId m₁ m₂) := by
      rw [between_eq_nil hcrate hs taskId hle]
      exact nofun
    rw [← append_between hcrate hs taskId hle h₂, extends_of_append_iff]
    simp only [hnil, true_and]

theorem LooksUp.keepsEndpoints_iff
    (h : LooksUp lookup s taskId (conclude endpointOf ejected noneHealthy allEjected))
    (r₁ r₂ : Nat) :
    KeepsEndpoints lookup r₁ r₂ ↔ KeepsCount endpointOf ejected s taskId r₁ r₂ := by
  unfold KeepsCount
  constructor
  · intro hkeeps m₁ hm₁ husable
    have hresult₂ : ∀ endpoints₁, conclude endpointOf ejected noneHealthy allEjected
        (s.replicaSeedPeers taskId m₁) = .ok endpoints₁ → ∃ m₂ endpoints₂,
          counted s taskId (r₂ % 2 ^ 32) = some m₂ ∧ conclude endpointOf ejected noneHealthy
            allEjected (s.replicaSeedPeers taskId m₂) = .ok endpoints₂ ∧
            endpoints₁ <+: endpoints₂ := by
      intro endpoints₁ hok
      obtain ⟨fuel₁, hfuel₁⟩ := (h r₁ (.ok endpoints₁)).mpr ⟨m₁, hm₁, hok.symm⟩
      obtain ⟨fuel₂, endpoints₂, hfuel₂, hinit⟩ := hkeeps fuel₁ endpoints₁ hfuel₁
      obtain ⟨m₂, hm₂, hok₂⟩ := (h r₂ _).mp ⟨fuel₂, hfuel₂⟩
      exact ⟨m₂, endpoints₂, hm₂, hok₂.symm, hinit⟩
    obtain ⟨endpoints, hendpoints⟩ := usable_iff.mp husable
    obtain ⟨m₂, _, hm₂, _⟩ := hresult₂ endpoints hendpoints
    have hextends : Extends
        (conclude endpointOf ejected noneHealthy allEjected (s.replicaSeedPeers taskId m₁))
        (conclude endpointOf ejected noneHealthy allEjected (s.replicaSeedPeers taskId m₂)) := by
      intro endpoints₁ hok
      obtain ⟨m₂', endpoints₂, hm₂', hok₂, hinit⟩ := hresult₂ endpoints₁ hok
      rw [hm₂, Option.some_inj] at hm₂'
      exact ⟨endpoints₂, hm₂' ▸ hok₂, hinit⟩
    exact ⟨m₂, hm₂,
      (extends_iff hcrate hs taskId (counted_le hm₁) (counted_le hm₂)).mp hextends husable⟩
  · intro hcount fuel₁ endpoints₁ hfuel₁
    obtain ⟨m₁, hm₁, hok⟩ := (h r₁ _).mp ⟨fuel₁, hfuel₁⟩
    obtain ⟨m₂, hm₂, hrest⟩ := hcount m₁ hm₁ (usable_iff.mpr ⟨endpoints₁, hok.symm⟩)
    obtain ⟨endpoints₂, hok₂, hinit⟩ := (extends_iff hcrate hs taskId (counted_le hm₁)
      (counted_le hm₂)).mpr (fun _ => hrest) endpoints₁ hok.symm
    obtain ⟨fuel₂, hfuel₂⟩ := (h r₂ (.ok endpoints₂)).mpr ⟨m₂, hm₂, hok₂.symm⟩
    exact ⟨fuel₂, endpoints₂, hfuel₂, hinit⟩

theorem LooksUp.sameResult_iff {parseError : ε}
    (hparse : ∀ host err, endpointOf host = .error err → err = parseError)
    (hparseHealthy : parseError ≠ noneHealthy) (hparseEjected : parseError ≠ allEjected)
    (hejectedHealthy : allEjected ≠ noneHealthy)
    (h : LooksUp lookup s taskId (conclude endpointOf ejected noneHealthy allEjected))
    (r r' : Nat) :
    SameResult lookup r r' ↔ SameCount endpointOf ejected s taskId r r' := by
  unfold SameResult SameCount
  simp only [h r, h r']
  rcases hm : counted s taskId (r % 2 ^ 32) with _ | m <;>
    rcases hm' : counted s taskId (r' % 2 ^ 32) with _ | m'
  · simp
  · simp
  · simp
  · have hsame : (∀ result, result = conclude endpointOf ejected noneHealthy allEjected
          (s.replicaSeedPeers taskId m) ↔ result = conclude endpointOf ejected noneHealthy allEjected
          (s.replicaSeedPeers taskId m')) ↔
        conclude endpointOf ejected noneHealthy allEjected (s.replicaSeedPeers taskId m) =
          conclude endpointOf ejected noneHealthy allEjected (s.replicaSeedPeers taskId m') :=
      ⟨fun hall => (hall _).mp rfl, fun heq result => by rw [heq]⟩
    simp only [Option.some_inj, exists_eq_left']
    rw [hsame, ← conclude_append_eq_iff hparse hparseHealthy hparseEjected hejectedHealthy,
      append_between hcrate hs taskId (min_le_max) ((Nat.min_le_left _ _).trans (counted_le hm))]
    rcases Nat.le_total m m' with hle | hle
    · rw [max_eq_right hle, min_eq_left hle]
      exact eq_comm
    · rw [max_eq_left hle, min_eq_right hle]

end

end

/-! ### Rust and Go -/

theorem Selects.looksUp {ε' : Type} (hcrate : crate.Lawful)
    {select : SeedPeers crate → Nat → Str → Nat → Option (Except ε' (List Host))} {nobody : ε'}
    {finish : List SeedPeer → Except ε' (List Host)} (h : Selects select nobody finish)
    {s : SeedPeers crate} (hs : Builds crate s.hosts s.hashring) (hhosts : s.hosts.len ≠ 0)
    (taskId : Str) {lookup : Nat → Nat → Option (Except ε (List Str))}
    {after : Except ε' (List Host) → Except ε (List Str)}
    {concludes : List SeedPeer → Except ε (List Str)}
    (hlookup : ∀ fuel r, lookup fuel r = (select s fuel taskId (r % 2 ^ 32)).map after)
    (hafter : ∀ replicas, after (finish replicas) = concludes replicas) :
    LooksUp lookup s taskId concludes := by
  intro r result
  simp only [hlookup, Option.map_eq_some_iff]
  constructor
  · intro hfound
    obtain ⟨fuel, selected, hselect, hresult⟩ := hfound
    obtain ⟨m, hm, rfl⟩ := (h.exists_fuel_iff hcrate hs hhosts taskId _ selected).mp
      ⟨fuel, hselect⟩
    exact ⟨m, hm, hresult.symm.trans (hafter _)⟩
  · intro hcounted
    obtain ⟨m, hm, rfl⟩ := hcounted
    obtain ⟨fuel, hselect⟩ := (h.exists_fuel_iff hcrate hs hhosts taskId _ _).mpr ⟨m, hm, rfl⟩
    exact ⟨fuel, _, hselect, hafter _⟩

theorem Proxy.looksUp {crates : ProxyCrates} (proxy : Proxy crates) (hring : crates.ring.Lawful)
    (hs : Builds crates.ring proxy.seedPeerSelector.seedPeers.hosts
      proxy.seedPeerSelector.seedPeers.hashring)
    (hhosts : proxy.seedPeerSelector.seedPeers.hosts.len ≠ 0) (now : Nat) {request : GetRequest}
    {id : Str} (hid : taskId crates.id request.toTaskFields = .ok id) :
    LooksUp (fun fuel r => proxy.lookupProxyEndpoints fuel now { request with replicas := r })
      proxy.seedPeerSelector.seedPeers id (proxy.concludeLookup now id) := by
  apply selects_rust.looksUp hring hs hhosts id
  · intro fuel r
    have hid' : taskId crates.id { request with replicas := r }.toTaskFields = .ok id := hid
    exact proxy.lookup_of_taskId fuel now hid'
  · exact proxy.bind_liveEndpoints now id

namespace Go

theorem uint32Of_natCast (r : Nat) : uint32Of (r : Int) = r % 2 ^ 32 := by
  unfold uint32Of
  omega

variable {modules : Modules} (p : Go.Proxy modules)

/-- Whether the proxy at the endpoint is ejected. -/
def Proxy.ejected (now : Nat) : Str → Bool := isEjected p.seedPeerSelector.ejections now

/-- Every host has an endpoint in Go. -/
def endpointOf (host : Host) : Except Error Str := .ok (proxyEndpoint host)

/-- What `lookupProxyEndpoints` makes of the replicas. -/
def Proxy.concludeLookup (now : Nat) (taskId : Str) (replicas : List DragonflySdk.SeedPeer) :
    Except Error (List Str) :=
  conclude endpointOf (p.ejected now)
    (.internal ⟨"%w: failed to select seed peers: %v".toList,
      ["host not found: selected seed peers".toList]⟩)
    (.internal ⟨"%w: seed peers of task %s are all ejected".toList, [taskId]⟩) replicas

theorem Proxy.match_liveEndpoints (now : Nat) (taskId : Str)
    (replicas : List DragonflySdk.SeedPeer) :
    (match selectHealthy replicas with
      | .error err => .error (.internal ⟨"%w: failed to select seed peers: %v".toList, [err]⟩)
      | .ok seedPeers => p.liveEndpoints now taskId seedPeers) =
      p.concludeLookup now taskId replicas := by
  have hmapM : (healthyHosts replicas).mapM endpointOf =
      .ok ((healthyHosts replicas).map proxyEndpoint) :=
    List.mapM_pure
  unfold Proxy.concludeLookup conclude
  rw [hmapM]
  show (match (if (healthyHosts replicas).length = 0 then _ else _ : Except Str (List Host)) with
      | .error err => _
      | .ok seedPeers => p.liveEndpoints now taskId seedPeers) = _
  simp only [List.length_eq_zero_iff]
  by_cases h : healthyHosts replicas = []
  · rw [if_pos h, if_pos h]
  · rw [if_neg h, if_neg h]
    simp only [Proxy.liveEndpoints, List.length_eq_zero_iff]
    rfl

theorem Proxy.lookup_of_taskId (fuel now : Nat) {req : GetRequest} {id : Str}
    (hid : Proxy.taskId modules req = .ok id) : p.lookupProxyEndpoints fuel now req =
      (select p.seedPeerSelector.seedPeers fuel id (uint32Of req.replicas)).map fun selected =>
        match selected with
        | .error err => .error (.internal ⟨"%w: failed to select seed peers: %v".toList, [err]⟩)
        | .ok seedPeers => p.liveEndpoints now id seedPeers := by
  unfold lookupProxyEndpoints
  split
  · rename_i err herr
    rw [hid] at herr
    cases herr
  · rename_i id' hid'
    obtain rfl := Except.ok.inj (hid'.symm.trans hid)
    rfl

theorem Proxy.looksUp (hring : modules.ring.Lawful)
    (hs : Builds modules.ring p.seedPeerSelector.seedPeers.hosts
      p.seedPeerSelector.seedPeers.hashring)
    (hhosts : p.seedPeerSelector.seedPeers.hosts.len ≠ 0) (now : Nat) {req : GetRequest}
    {id : Str} (hid : Proxy.taskId modules req = .ok id) :
    LooksUp (fun fuel r => p.lookupProxyEndpoints fuel now { req with replicas := (r : Int) })
      p.seedPeerSelector.seedPeers id (p.concludeLookup now id) := by
  apply selects_go.looksUp hring hs hhosts id
  · intro fuel r
    have hid' : Proxy.taskId modules { req with replicas := (r : Int) } = .ok id := hid
    rw [p.lookup_of_taskId fuel now hid', uint32Of_natCast]
  · exact p.match_liveEndpoints now id

end Go

/-- When asking for more replicas loses nothing, in one language. -/
structure MoreReplicasIff (lookup : Nat → Nat → Option (Except ε (List Str)))
    (endpointOf : Host → Except ε Str) (ejected : Str → Bool) (s : SeedPeers crate)
    (taskId : Except ε Str) : Prop where
  keeps_iff : ∀ r₁ r₂, 1 ≤ r₁ → r₁ ≤ r₂ → (KeepsEndpoints lookup r₁ r₂ ↔
    ∀ id, taskId = .ok id → s.hosts.len ≠ 0 → KeepsCount endpointOf ejected s id r₁ r₂)
  same_iff : ∀ r, 1 ≤ r → s.hosts.len ≤ r → (SameResult lookup r s.hosts.len ↔
    ∀ id, taskId = .ok id → s.hosts.len ≠ 0 →
      SameCount endpointOf ejected s id r s.hosts.len)

theorem moreReplicasIff (hcrate : crate.Lawful) {s : SeedPeers crate}
    (hs : Builds crate s.hosts s.hashring)
    {lookup : Nat → Nat → Option (Except ε (List Str))} {taskId : Except ε Str}
    {endpointOf : Host → Except ε Str} {ejected : Str → Bool} {noneHealthy : ε}
    {allEjected : Str → ε} (parseError : ε)
    (hparse : ∀ host err, endpointOf host = .error err → err = parseError)
    (hparseHealthy : parseError ≠ noneHealthy) (hparseEjected : ∀ id, parseError ≠ allEjected id)
    (hejectedHealthy : ∀ id, allEjected id ≠ noneHealthy)
    (hlookup : ∀ id, taskId = .ok id → s.hosts.len ≠ 0 →
      LooksUp lookup s id (conclude endpointOf ejected noneHealthy (allEjected id)))
    (hfails : (∃ err, taskId = .error err) ∨ s.hosts.len = 0 →
      ∃ err, ∀ fuel r, lookup fuel r = some (.error err)) :
    MoreReplicasIff lookup endpointOf ejected s taskId := by
  by_cases hcase : (∃ err, taskId = .error err) ∨ s.hosts.len = 0
  · -- no lookup succeeds, and all fail alike
    obtain ⟨err, herr⟩ := hfails hcase
    have hvacuous : ∀ P : Str → Prop,
        ∀ id, taskId = .ok id → s.hosts.len ≠ 0 → P id := by
      intro P id hid hhosts
      rcases hcase with ⟨err', herr'⟩ | hzero
      · rw [hid] at herr'
        cases herr'
      · exact absurd hzero hhosts
    refine ⟨fun r₁ r₂ _ _ => iff_of_true ?_ (hvacuous _), fun r _ _ => iff_of_true ?_ (hvacuous _)⟩
    · intro fuel₁ endpoints₁ h
      rw [herr] at h
      cases h
    · intro result
      simp only [herr]
  · push Not at hcase
    obtain ⟨hid, hhosts⟩ := hcase
    obtain ⟨id, rfl⟩ : ∃ id, taskId = .ok id := by
      rcases taskId with err | id
      · exact absurd rfl (hid err)
      · exact ⟨id, rfl⟩
    have hcondition : ∀ P : Str → Prop,
        (∀ id', (Except.ok id : Except ε Str) = .ok id' → s.hosts.len ≠ 0 → P id') ↔ P id :=
      fun P => ⟨fun h => h id rfl hhosts, fun h id' heq _ => Except.ok.inj heq ▸ h⟩
    have hlooksUp := hlookup id rfl hhosts
    refine ⟨fun r₁ r₂ _ _ => ?_, fun r _ _ => ?_⟩
    · rw [hcondition fun id => KeepsCount endpointOf ejected s id r₁ r₂]
      exact hlooksUp.keepsEndpoints_iff hcrate hs id r₁ r₂
    · rw [hcondition fun id => SameCount endpointOf ejected s id r s.hosts.len]
      exact hlooksUp.sameResult_iff hcrate hs id hparse hparseHealthy (hparseEjected id)
        (hejectedHealthy id) r s.hosts.len

section
variable {crates : ProxyCrates}

theorem proxyEndpoint_eq_error {host : Host} {err : Error} (h : proxyEndpoint host = .error err) :
    err = .internal IpAddr.parseError := by
  unfold proxyEndpoint at h
  split at h
  · cases h
  · exact (Except.error.inj h).symm

theorem Proxy.lookup_fails (proxy : Proxy crates) (now : Nat) {request : GetRequest}
    (h : (∃ err, taskId crates.id request.toTaskFields = .error err) ∨
      proxy.seedPeerSelector.seedPeers.hosts.len = 0) :
    ∃ err, ∀ fuel r,
      proxy.lookupProxyEndpoints fuel now { request with replicas := r } = some (.error err) := by
  rcases hid : taskId crates.id request.toTaskFields with err | id
  · refine ⟨err, fun fuel r => ?_⟩
    have hid' : taskId crates.id { request with replicas := r }.toTaskFields = .error err := hid
    rw [lookupProxyEndpoints, hid']
  · have hzero : proxy.seedPeerSelector.seedPeers.hosts.len = 0 := by
      rcases h with ⟨err, herr⟩ | hzero
      · rw [hid] at herr
        cases herr
      · exact hzero
    refine ⟨.internalOf "failed to select seed peers: ".toList
      (.hostNotFound "seed peers".toList), fun fuel r => ?_⟩
    have hid' : taskId crates.id { request with replicas := r }.toTaskFields = .ok id := hid
    rw [proxy.lookup_of_taskId fuel now hid', SeedPeers.select, if_pos hzero]
    rfl

end

section
variable {modules : Go.Modules}

theorem Go.Proxy.lookup_fails (p : Go.Proxy modules) (now : Nat) {req : Go.GetRequest}
    (h : (∃ err, Go.Proxy.taskId modules req = .error err) ∨
      p.seedPeerSelector.seedPeers.hosts.len = 0) :
    ∃ err, ∀ fuel (r : Nat),
      p.lookupProxyEndpoints fuel now { req with replicas := (r : Int) } = some (.error err) := by
  rcases hid : Go.Proxy.taskId modules req with err | id
  · refine ⟨err, fun fuel r => ?_⟩
    have hid' : Go.Proxy.taskId modules { req with replicas := (r : Int) } = .error err := hid
    rw [lookupProxyEndpoints, hid']
  · have hzero : p.seedPeerSelector.seedPeers.hosts.len = 0 := by
      rcases h with ⟨err, herr⟩ | hzero
      · rw [hid] at herr
        cases herr
      · exact hzero
    refine ⟨.internal ⟨"%w: failed to select seed peers: %v".toList,
      ["host not found: seed peers".toList]⟩, fun fuel r => ?_⟩
    have hid' : Go.Proxy.taskId modules { req with replicas := (r : Int) } = .ok id := hid
    rw [p.lookup_of_taskId fuel now hid', Go.select, if_pos hzero]
    rfl

end

/-- **Asking for more replicas** keeps the endpoints of fewer, and for all of them and more is the same,
just when it does so after the counts are cut to 32 bits. -/
theorem lookup_more_replicas_iff (crates : ProxyCrates) (hring : crates.ring.Lawful)
    (proxy : Proxy crates) (hs : Reachable (updateSteps crates.ring) proxy.seedPeerSelector.seedPeers)
    (request : GetRequest) (modules : Go.Modules) (hgo : modules.ring.Lawful)
    (p : Go.Proxy modules) (hp : Reachable (Go.updateSteps modules.ring) p.seedPeerSelector.seedPeers)
    (req : Go.GetRequest) (now : Nat) :
    MoreReplicasIff
        (fun fuel r => proxy.lookupProxyEndpoints fuel now { request with replicas := r })
        proxyEndpoint (proxy.ejected now) proxy.seedPeerSelector.seedPeers
        (taskId crates.id request.toTaskFields) ∧
      MoreReplicasIff
        (fun fuel r => p.lookupProxyEndpoints fuel now { req with replicas := (r : Int) })
        Go.endpointOf (p.ejected now) p.seedPeerSelector.seedPeers (Go.Proxy.taskId modules req) := by
  have hs' : Builds crates.ring proxy.seedPeerSelector.seedPeers.hosts
      proxy.seedPeerSelector.seedPeers.hashring := updates_rust.builds_of_reachable hs
  have hp' : Builds modules.ring p.seedPeerSelector.seedPeers.hosts
      p.seedPeerSelector.seedPeers.hashring := updates_go.builds_of_reachable hp
  constructor
  · refine moreReplicasIff hring hs' _ (fun _ _ => proxyEndpoint_eq_error) ?_ ?_ ?_
      (fun id hid hhosts => proxy.looksUp hring hs' hhosts now hid) (proxy.lookup_fails now)
    · exact nofun
    · intro id heq
      have hhead : IpAddr.parseError.head? =
          ("seed peers of task ".toList ++ id ++ " are all ejected".toList).head? :=
        congrArg List.head? (Error.internal.inj heq)
      have hleft : IpAddr.parseError.head? = some 'i' := rfl
      have hright : ("seed peers of task ".toList ++ id ++ " are all ejected".toList).head? =
          some 's' := rfl
      rw [hleft, hright] at hhead
      revert hhead
      decide
    · exact fun id => nofun
  · refine moreReplicasIff hgo hp' .canceled (fun _ _ => nofun) ?_ ?_ ?_
      (fun id hid hhosts => p.looksUp hgo hp' hhosts now hid) (p.lookup_fails now)
    · exact nofun
    · exact fun id => nofun
    · intro id heq
      have hformat : "%w: seed peers of task %s are all ejected".toList =
          "%w: failed to select seed peers: %v".toList :=
        congrArg Go.Format.format (Go.Error.internal.inj heq)
      revert hformat
      decide +kernel

/-! ### One more than 32 bits -/

/-- A proxy with the two seed peers of the example. -/
def twoProxy : Proxy lookupCrates := ⟨⟨exampleRust, ∅⟩, ⟨1, none⟩⟩

def Go.twoProxy : Go.Proxy Go.exampleModules := ⟨⟨1, none⟩, ⟨exampleGo, ∅⟩⟩

def Go.lookupRequest : Go.GetRequest :=
  ⟨"https://example.com/file".toList, [], none, [], [], [], [], true, none, 2⟩

/-- At two seed peers in Rust and in Go. -/
theorem lookup_more_replicas_iff_two :
    MoreReplicasIff
        (fun fuel r => twoProxy.lookupProxyEndpoints fuel 0 { lookupRequest 2 with replicas := r })
        proxyEndpoint (twoProxy.ejected 0) twoProxy.seedPeerSelector.seedPeers
        (taskId lookupCrates.id (lookupRequest 2).toTaskFields) ∧
      MoreReplicasIff
        (fun fuel r =>
          Go.twoProxy.lookupProxyEndpoints fuel 0 { Go.lookupRequest with replicas := (r : Int) })
        Go.endpointOf (Go.twoProxy.ejected 0) Go.twoProxy.seedPeerSelector.seedPeers
        (Go.Proxy.taskId Go.exampleModules Go.lookupRequest) :=
  lookup_more_replicas_iff lookupCrates nameRing.lawful twoProxy reachable_exampleRust
    (lookupRequest 2) Go.exampleModules nameRing.lawful Go.twoProxy reachable_exampleGo
    Go.lookupRequest 0

/-- Asked for `2 ^ 32 + 1` replicas, a lookup finds one endpoint; asked for `2`, it finds two. -/
theorem not_lookup_more_replicas :
    ¬ ∀ (crates : ProxyCrates), crates.ring.Lawful → ∀ (proxy : Proxy crates),
      Reachable (updateSteps crates.ring) proxy.seedPeerSelector.seedPeers →
      ∀ (request : GetRequest) (now r₁ r₂ : Nat), 1 ≤ r₁ → r₁ ≤ r₂ → r₂ < 2 ^ 64 →
      { request with replicas := r₁ }.validate crates.id.url = .ok () →
      { request with replicas := r₂ }.validate crates.id.url = .ok () →
        KeepsEndpoints
          (fun fuel r => proxy.lookupProxyEndpoints fuel now { request with replicas := r })
          r₁ r₂ := by
  intro h
  have hkeeps := h lookupCrates nameRing.lawful twoProxy reachable_exampleRust (lookupRequest 2) 0
    2 (2 ^ 32 + 1) (by decide) (by decide) (by decide) (by decide +kernel) (by decide +kernel)
  have htwo : twoProxy.lookupProxyEndpoints 3 0 { lookupRequest 2 with replicas := 2 } =
      some (.ok ["http://127.0.0.1:4001".toList, "http://127.0.0.1:4001".toList]) := by
    decide +kernel
  obtain ⟨fuel, endpoints, hfuel, hinit⟩ := hkeeps 3 _ htwo
  have hbuilds := updates_rust.builds_of_reachable reachable_exampleRust
  have hhosts : twoProxy.seedPeerSelector.seedPeers.hosts.len ≠ 0 := by decide +kernel
  obtain ⟨m, hm, hok⟩ := (twoProxy.looksUp nameRing.lawful hbuilds hhosts 0
    (taskId_lookupRequest 2) (2 ^ 32 + 1) _).mp ⟨fuel, hfuel⟩
  have hone : m = 1 := by
    have hcounted : counted twoProxy.seedPeerSelector.seedPeers
        (hexEncode (utf8 "content".toList)) ((2 ^ 32 + 1) % 2 ^ 32) = some 1 := by decide +kernel
    rw [hcounted, Option.some_inj] at hm
    exact hm.symm
  have hconclude : twoProxy.concludeLookup 0 (hexEncode (utf8 "content".toList))
      (twoProxy.seedPeerSelector.seedPeers.replicaSeedPeers
        (hexEncode (utf8 "content".toList)) 1) = .ok ["http://127.0.0.1:4001".toList] := by
    decide +kernel
  rw [hone, hconclude, Except.ok.injEq] at hok
  rw [hok] at hinit
  have := hinit.length_le
  simp at this

end DragonflySdk
