import StakingSnapshot.Config
import StakingSnapshot.Proofs.Text.Address
import StakingSnapshot.Proofs.Text.Decimal

/-!
# Settings by name

What a configuration comes to that is looked up by name, for every lookup.

* `Config.Given`: the settings there are. Blank ones are none; nothing else of a lookup counts
  (`Config.ofLookup_congr`).
* `Config.Misreads`: a setting that should show an address and does not. Only these are refused, the
  storage contract before the hub (`Config.ofLookup_of_storage`, `Config.ofLookup_of_hub`).
* `Config.Counts`, `Config.ShowsAddress`: what a setting shows; `ShownOr`: what comes of it.
* `Config.Loaded`: all that a configuration has been set to, which is all that it is
  (`Config.Loaded.unique`); `Config.loads`.
-/

namespace StakingSnapshot

/-- What comes of a setting: what it shows, and the initial value if it shows nothing. -/
inductive ShownOr {α : Type} (Shows : α → Prop) (initial : α) : α → Prop where
  | shown {x : α} (h : Shows x) : ShownOr Shows initial x
  | missing (h : ∀ x, ¬ Shows x) : ShownOr Shows initial initial

namespace ShownOr

variable {α : Type} {Shows P : α → Prop} {initial x y : α}

theorem of_getD {found : Option α} (h : ∀ x, found = some x ↔ Shows x) (initial : α) :
    ShownOr Shows initial (found.getD initial) := by
  cases found with
  | none => exact .missing fun x hx => nomatch (h x).2 hx
  | some x => exact .shown ((h x).1 rfl)

theorem holds (h : ShownOr Shows initial x) (hshown : ∀ x, Shows x → P x) (hinitial : P initial) :
    P x := by
  cases h with
  | shown hx => exact hshown x hx
  | missing => exact hinitial

theorem unique (h : ShownOr Shows initial x) (h' : ShownOr Shows initial y)
    (hunique : ∀ x y, Shows x → Shows y → x = y) : x = y := by
  cases h with
  | shown hx =>
    cases h' with
    | shown hy => exact hunique x y hx hy
    | missing hnone => exact absurd hx (hnone x)
  | missing hnone =>
    cases h' with
    | shown hy => exact absurd hy (hnone y)
    | missing => rfl

end ShownOr

namespace Config

variable {lookup lookup' : String → Option String} {processors : Option Nat} {name s : String}

/-! ## One setting -/

/-- There is a setting with the name, and it is not blank. -/
def Given (lookup : String → Option String) (name s : String) : Prop :=
  lookup name = some s ∧ ¬ Text.AllBlank s.toList

theorem Given.unique {t : String} (hs : Given lookup name s) (ht : Given lookup name t) : s = t :=
  Option.some.inj (hs.1.symm.trans ht.1)

theorem setting_eq_some_iff : setting lookup name = some s ↔ Given lookup name s := by
  rw [setting, Option.filter_eq_some_iff, Given, ← Text.isBlankText_iff]
  simp

/-- The setting with the name shows a number from 1 to `max`, with blanks around it. -/
def Counts (lookup : String → Option String) (name : String) (max n : Nat) : Prop :=
  ∃ s, Given lookup name s ∧ Decimal.ShownIn s n ∧ 1 ≤ n ∧ n ≤ max

theorem Counts.unique {max m n : Nat} (hm : Counts lookup name max m)
    (hn : Counts lookup name max n) : m = n := by
  obtain ⟨s, hs, hshown, -⟩ := hm
  obtain ⟨t, ht, hshown', -⟩ := hn
  obtain rfl := hs.unique ht
  exact hshown.unique hshown'

theorem positive?_eq_some_iff {max n : Nat} :
    positive? max s = some n ↔ Decimal.ShownIn s n ∧ 1 ≤ n ∧ n ≤ max := by
  rw [positive?, Option.filter_eq_some_iff, ← Decimal.shownIn_iff]
  simp [Nat.succ_le_iff]

theorem number_eq_some_iff {max n : Nat} :
    (setting lookup name).bind (positive? max) = some n ↔ Counts lookup name max n := by
  simp only [Option.bind_eq_some_iff, setting_eq_some_iff, positive?_eq_some_iff, Counts]

/-- A number that is read into a byte is not cut off. -/
theorem version_eq_some_iff {version : UInt8} :
    ((setting lookup name).bind (positive? 255)).map UInt8.ofNat = some version ↔
      Counts lookup name 255 version.toNat := by
  rw [Option.map_eq_some_iff]
  constructor
  · rintro ⟨n, hn, rfl⟩
    obtain ⟨-, -, -, -, hmax⟩ := number_eq_some_iff.1 hn
    rw [UInt8.toNat_ofNat_of_lt' (Nat.lt_succ_of_le hmax)]
    exact number_eq_some_iff.1 hn
  · intro h
    exact ⟨version.toNat, number_eq_some_iff.2 h, UInt8.ofNat_toNat⟩

/-- The setting with the name shows an address. -/
def ShowsAddress (lookup : String → Option String) (name : String) (a : Address) : Prop :=
  ∃ s, Given lookup name s ∧ Address.parse s = .ok a

theorem ShowsAddress.unique {a b : Address} (ha : ShowsAddress lookup name a)
    (hb : ShowsAddress lookup name b) : a = b := by
  obtain ⟨s, hs, hparse⟩ := ha
  obtain ⟨t, ht, hparse'⟩ := hb
  obtain rfl := hs.unique ht
  exact Except.ok.inj (hparse.symm.trans hparse')

/-- There is a setting with the name, from which no address can be read. -/
def Misreads (lookup : String → Option String) (name s : String) : Prop :=
  Given lookup name s ∧ ∀ a, Address.parse s ≠ .ok a

/-- What is said of it: its name, and what is wrong with it. -/
def misread (name s : String) : Fault :=
  .config s!"{name}: {(Fault.invalidAddress (Text.trimString s)).message}"

theorem addressSetting_of_misreads (h : Misreads lookup name s) :
    addressSetting lookup name = .error (misread name s) := by
  rw [addressSetting, setting_eq_some_iff.2 h.1]
  rcases Address.parse_eq_ok_or s with ⟨a, ha⟩ | hrefused
  · exact absurd ha (h.2 a)
  · simp only [hrefused]
    rfl

theorem exists_addressSetting (h : ∀ s, ¬ Misreads lookup name s) :
    ∃ a?, addressSetting lookup name = .ok a? ∧ ∀ a, a? = some a ↔ ShowsAddress lookup name a := by
  unfold addressSetting ShowsAddress
  cases hset : setting lookup name with
  | none =>
    refine ⟨none, rfl, fun a => ⟨nofun, ?_⟩⟩
    rintro ⟨s, hs, -⟩
    rw [setting_eq_some_iff.2 hs] at hset
    cases hset
  | some s =>
    have hgiven := setting_eq_some_iff.1 hset
    cases ha : Address.parse s with
    | error e => exact absurd ⟨hgiven, fun a hok => nomatch ha.symm.trans hok⟩ (h s)
    | ok a =>
      have hshows : ShowsAddress lookup name a := ⟨s, hgiven, ha⟩
      refine ⟨some a, by simp only [ha], fun b => ⟨?_, fun hb => ?_⟩⟩
      · rintro ⟨⟩
        exact hshows
      · exact congrArg some (hshows.unique hb)

/-! ## All settings -/

/-- The configuration is what its settings show, and else what it is where nothing is set. -/
structure Loaded (processors : Option Nat) (lookup : String → Option String) (c : Config) :
    Prop where
  url : ∀ s, c.rpcUrl = some s ↔ Given lookup urlName s
  timeout : ShownOr (Counts lookup timeoutName Word.maxNat64) (initial processors).timeoutMs
    c.timeoutMs
  storage : ∀ a, c.storage = some a ↔ ShowsAddress lookup storageName a
  hub : ShownOr (ShowsAddress lookup hubName) (initial processors).hub c.hub
  /-- A number beyond the most that may be set counts as this. -/
  concurrency : ShownOr
    (fun limit => ∃ n, Counts lookup concurrencyName Word.maxNat64 n ∧ limit = min n maxConcurrency)
    (initial processors).concurrency c.concurrency
  fallback : ShownOr (fun version => Counts lookup fallbackName 255 version.toNat)
    (initial processors).fallbackVersion c.fallbackVersion
  sizes : c.batchSizes = {}

theorem initialConcurrency_pos (processors : Option Nat) : 1 ≤ initialConcurrency processors :=
  Nat.le_max_right ..

theorem Loaded.concurrency_pos {c : Config} (h : Loaded processors lookup c) :
    1 ≤ c.concurrency := by
  refine h.concurrency.holds ?_ (initialConcurrency_pos processors)
  rintro limit ⟨n, ⟨-, -, -, hpos, -⟩, rfl⟩
  exact Nat.le_min.2 ⟨hpos, by decide⟩

/-- There are no two configurations that are what the settings show. -/
theorem Loaded.unique {c c' : Config} (h : Loaded processors lookup c)
    (h' : Loaded processors lookup c') : c = c' := by
  have hurl : c.rpcUrl = c'.rpcUrl := Option.ext fun s => (h.url s).trans (h'.url s).symm
  have htimeout : c.timeoutMs = c'.timeoutMs :=
    h.timeout.unique h'.timeout fun _ _ hm hn => hm.unique hn
  have hstorage : c.storage = c'.storage :=
    Option.ext fun a => (h.storage a).trans (h'.storage a).symm
  have hhub : c.hub = c'.hub := h.hub.unique h'.hub fun _ _ ha hb => ha.unique hb
  have hconcurrency : c.concurrency = c'.concurrency := by
    refine h.concurrency.unique h'.concurrency ?_
    rintro _ _ ⟨m, hm, rfl⟩ ⟨n, hn, rfl⟩
    rw [hm.unique hn]
  have hfallback : c.fallbackVersion = c'.fallbackVersion :=
    h.fallback.unique h'.fallback fun _ _ hv hw => UInt8.toNat_inj.1 (hv.unique hw)
  have hsizes : c.batchSizes = c'.batchSizes := h.sizes.trans h'.sizes.symm
  cases c
  cases c'
  simp only [mk.injEq]
  exact ⟨hurl, htimeout, hstorage, hhub, hconcurrency, hfallback, hsizes⟩

/-- A setting for the storage contract that shows no address is refused, whatever is set besides. -/
theorem ofLookup_of_storage (h : Misreads lookup storageName s) :
    ofLookup lookup processors = .error (misread storageName s) := by
  rw [ofLookup, addressSetting_of_misreads h]
  rfl

theorem ofLookup_of_hub (hstorage : ∀ s, ¬ Misreads lookup storageName s)
    (h : Misreads lookup hubName s) :
    ofLookup lookup processors = .error (misread hubName s) := by
  obtain ⟨storage?, hok, -⟩ := exists_addressSetting hstorage
  rw [ofLookup, hok, addressSetting_of_misreads h]
  rfl

theorem exists_ofLookup (hstorage : ∀ s, ¬ Misreads lookup storageName s)
    (hhub : ∀ s, ¬ Misreads lookup hubName s) :
    ∃ c, ofLookup lookup processors = .ok c ∧ Loaded processors lookup c := by
  obtain ⟨storage?, hstorageOk, hstorageShows⟩ := exists_addressSetting hstorage
  obtain ⟨hub?, hhubOk, hhubShows⟩ := exists_addressSetting hhub
  refine ⟨_, by rw [ofLookup, hstorageOk, hhubOk]; rfl, ?_⟩
  constructor
  case url => exact fun s => setting_eq_some_iff
  case timeout => exact ShownOr.of_getD (fun n => number_eq_some_iff) _
  case storage => exact hstorageShows
  case hub => exact ShownOr.of_getD hhubShows _
  case concurrency =>
    refine ShownOr.of_getD (fun limit => ?_) _
    simp only [Option.map_eq_some_iff, number_eq_some_iff, @eq_comm _ _ limit]
  case fallback => exact ShownOr.of_getD (fun version => version_eq_some_iff) _
  case sizes => rfl

theorem exists_error_iff : (∃ e, ofLookup lookup processors = .error e) ↔
    (∃ s, Misreads lookup storageName s) ∨ ∃ s, Misreads lookup hubName s := by
  constructor
  · rintro ⟨e, he⟩
    by_contra hread
    obtain ⟨hstorage, hhub⟩ := not_or.1 hread
    obtain ⟨c, hc, -⟩ := exists_ofLookup (not_exists.1 hstorage) (not_exists.1 hhub)
    cases he.symm.trans hc
  · rintro (⟨s, hs⟩ | ⟨s, hs⟩)
    · exact ⟨_, ofLookup_of_storage hs⟩
    · by_cases hstorage : ∃ t, Misreads lookup storageName t
      · obtain ⟨t, ht⟩ := hstorage
        exact ⟨_, ofLookup_of_storage ht⟩
      · exact ⟨_, ofLookup_of_hub (not_exists.1 hstorage) hs⟩

theorem ofLookup_eq_ok_iff {c : Config} : ofLookup lookup processors = .ok c ↔
    ((∀ s, ¬ Misreads lookup storageName s) ∧ ∀ s, ¬ Misreads lookup hubName s) ∧
      Loaded processors lookup c := by
  constructor
  · intro h
    have hstorage : ∀ s, ¬ Misreads lookup storageName s := fun s hs =>
      nomatch (ofLookup_of_storage hs).symm.trans h
    have hhub : ∀ s, ¬ Misreads lookup hubName s := fun s hs =>
      nomatch (ofLookup_of_hub hstorage hs).symm.trans h
    obtain ⟨c', hc', hloaded⟩ := exists_ofLookup hstorage hhub
    obtain rfl := Except.ok.inj (h.symm.trans hc')
    exact ⟨⟨hstorage, hhub⟩, hloaded⟩
  · rintro ⟨⟨hstorage, hhub⟩, hloaded⟩
    obtain ⟨c', hc', hloaded'⟩ := exists_ofLookup hstorage hhub
    rw [hc', hloaded.unique hloaded']

/-- A blank setting is as good as none. -/
theorem ofLookup_congr (h : ∀ name s, Given lookup' name s ↔ Given lookup name s) :
    ofLookup lookup' processors = ofLookup lookup processors := by
  have hsetting : setting lookup' = setting lookup := by
    funext name
    ext s
    rw [setting_eq_some_iff, setting_eq_some_iff, h]
  simp only [ofLookup, addressSetting, hsetting]

/-- What comes of looking up a configuration. -/
structure Loads (processors : Option Nat) (lookup : String → Option String) : Prop where
  refused : (∃ e, ofLookup lookup processors = .error e) ↔
    (∃ s, Misreads lookup storageName s) ∨ ∃ s, Misreads lookup hubName s
  /-- If both addresses are misread, the storage contract is named. -/
  storage : ∀ s, Misreads lookup storageName s →
    ofLookup lookup processors = .error (misread storageName s)
  hub : (∀ s, ¬ Misreads lookup storageName s) → ∀ s, Misreads lookup hubName s →
    ofLookup lookup processors = .error (misread hubName s)
  /-- If no address is misread, the settings tell the whole configuration. -/
  loaded : ∀ c, ofLookup lookup processors = .ok c ↔
    ((∀ s, ¬ Misreads lookup storageName s) ∧ ∀ s, ¬ Misreads lookup hubName s) ∧
      Loaded processors lookup c
  /-- Only settings that are not blank count. -/
  blank : ∀ lookup', (∀ name s, Given lookup' name s ↔ Given lookup name s) →
    ofLookup lookup' processors = ofLookup lookup processors

theorem loads (processors : Option Nat) (lookup : String → Option String) :
    Loads processors lookup where
  refused := exists_error_iff
  storage _ := ofLookup_of_storage
  hub hstorage _ := ofLookup_of_hub hstorage
  loaded _ := ofLookup_eq_ok_iff
  blank _ := ofLookup_congr

end Config

end StakingSnapshot
