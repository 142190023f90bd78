import Rproxy.Global.Items
import Rproxy.Registry.Overlap

/-!
# `global` in force

An item is the settings file's if that names it, else the environment's, else the API's, else its
default.
-/

namespace Rproxy.Global
open List Option Checks

/-! ## Layers -/

open Function Prod LiveItem

inductive Source where
  | file
  | env
  | api
  | default
deriving DecidableEq

structure EnvValues where
  udpMaxSessions : Option UInt64
  cacheMaxMemory : Option UInt64

def compared : List LiveItem :=
  [.trustedProxies, .accessLog, .crowdsec, .httpTimeouts, .udpMaxSessions, .cacheMaxMemory, .geoip,
    .acme]

lemma mem_compared (i : LiveItem) : i ∈ compared := by
  cases i <;> decide

section
variable [External] [GlobalExternal] {i : LiveItem} {v : Values}

def EnvValues.values (e : EnvValues) : Values
  | .udpMaxSessions => e.udpMaxSessions
  | .cacheMaxMemory => e.cacheMaxMemory
  | _ => none

def effective (file env api : Values) : Live := fun i =>
  i.held ((file i).or ((env i).or (api i)))

def sourceOf (file env api : Values) (i : LiveItem) : Source :=
  if (file i).isSome then .file
  else if (env i).isSome then .env
  else if (api i).isSome then .api
  else .default

def differing (a b : Live) : List LiveItem := Family.differing compared a b

lemma mem_differing {a b : Live} : i ∈ differing a b ↔ a i ≠ b i :=
  Family.mem_differing.trans (and_iff_right (mem_compared i))

def keepItem (target before : Live) (i : LiveItem) : Live := update target i (before i)

structure State where
  file : Values
  env : EnvValues
  api : Values
  kept : Json
  failed : LiveItem → Option String
  /-- A `crowdsec` that the file dropped while rules use it: in force until they do not. -/
  keptCrowdsec : Option CrowdsecGlobal
  keptGeoip : Option GeoipGlobal
  keptAcme : Option Acme
  live : Live
  sources : LiveItem → Source
  accessLogFallback : Bool
  updatedBy : Option String
  updatedAt : Option Nat
  /-- Whether the stored row is up to date; `none`: no database. -/
  persisted : Option Bool
  notLoaded : Bool

namespace State
variable (s : State) (file api : Values)

def apiInForce : Values :=
  s.api.without (LiveItem.all.filter fun i => (s.failed i).isSome)

lemma apiInForce_apply (i : LiveItem) :
    s.apiInForce i = if (s.failed i).isSome then none else s.api i := by
  simp [apiInForce, Family.without_apply, mem_all]

def effectiveWith : Live × (LiveItem → Source) :=
  let live := effective file s.env.values api
  (if live .crowdsec = none then update live .crowdsec s.keptCrowdsec else live,
    sourceOf file s.env.values api)

lemma effectiveWith_of_ne (hi : i ≠ .crowdsec) :
    (s.effectiveWith file api).1 i = effective file s.env.values api i := by
  rw [effectiveWith]
  split
  · exact update_of_ne hi ..
  · rfl

lemma effectiveWith_crowdsec : (s.effectiveWith file api).1 .crowdsec =
    (effective file s.env.values api .crowdsec).or s.keptCrowdsec := by
  rw [effectiveWith]
  dsimp only
  split
  next h => rw [h, update_self, none_or]
  rename_i h
  obtain ⟨c, hc⟩ := ne_none_iff_exists'.mp h
  rw [hc]
  rfl

def settle (live : Live) (file api : Values) : State :=
  let sources := sourceOf file s.env.values api
  let sources :=
    if live .crowdsec ≠ none ∧ live .crowdsec = s.keptCrowdsec ∧ api .crowdsec = none then
      update sources .crowdsec .file
    else sources
  let sources :=
    if s.keptGeoip ≠ none ∧ live .geoip = s.keptGeoip then update sources .geoip .file
    else sources
  let sources :=
    if s.keptAcme ≠ none ∧ live .acme = s.keptAcme then update sources .acme .file
    else sources
  { s with file, api, live, sources }

end State

/-! ## Paths that the API names -/

structure Paths where
  /-- `protected::protecting`, of everything protected now. -/
  protecting : String → Option String
  /-- The same for the files of `acme`, which are not protected from itself. -/
  protectingAcme : String → Option String
  /-- `access_log_allowed`, `geoip_allowed` and `acme_allowed`. -/
  accessLogAllowed : String → Except String Unit
  geoipAllowed : String → Except String Unit
  acmeAllowed : Acme → Except String Unit

def firstError (l : List (Except String Unit)) : Option String :=
  l.findSome? fun
    | .error e => some e
    | .ok () => none

def geoipPaths (v : Values) : List String := (v .geoip).toList.flatMap fun g =>
  g.databases.map (·.2)

def acmeFiles (a : Acme) : List (String × String) :=
  (GlobalExternal.acmePaths a).filter fun p => p.1 ≠ "storage"

def namedPaths (v : Values) : List (LiveItem × String) :=
  (v .accessLog).toList.map (mk .accessLog) ++
    (v .crowdsec).toList.map (fun c => (.crowdsec, c.apiKeyFile)) ++
    (geoipPaths v).map (mk .geoip)

def pathRefused (p : Paths) (v : Values) : Option (LiveItem × String) :=
  let named := (namedPaths v).findSome? fun (item, path) =>
    (p.protecting path).map fun what =>
      (item, s!"{path} is {what}; the API may not name it in global")
  let log := (firstError ((v .accessLog).toList.map p.accessLogAllowed)).map (mk .accessLog)
  let databases := (firstError ((geoipPaths v).map p.geoipAllowed)).map (mk .geoip)
  let acme := (v .acme).bind fun a =>
    (((acmeFiles a).findSome? fun (what, path) => (p.protectingAcme path).map fun why =>
        s!"global.acme.{what}: {path} is {why}; the API may not name it in global").or
      (firstError [p.acmeAllowed a])).map (mk .acme)
  named.or (log.or (databases.or acme))

def Passes (p : Paths) : (i : LiveItem) → i.Ty → Prop
  | .accessLog, path => p.protecting path = none ∧ p.accessLogAllowed path = .ok ()
  | .crowdsec, c => p.protecting c.apiKeyFile = none
  | .geoip, g => ∀ d ∈ g.databases, p.protecting d.2 = none ∧ p.geoipAllowed d.2 = .ok ()
  | .acme, a => (∀ f ∈ acmeFiles a, p.protectingAcme f.2 = none) ∧ p.acmeAllowed a = .ok ()
  | _, _ => True

omit [External] [GlobalExternal] in
lemma firstError_eq_none {l : List (Except String Unit)} :
    firstError l = none ↔ ∀ r ∈ l, r = .ok () := by
  rw [firstError, findSome?_eq_none_iff]
  refine forall₂_congr fun r _ => ?_
  cases r <;> simp

lemma pathRefused_eq_none {p : Paths} :
    pathRefused p v = none ↔ ∀ (i : LiveItem) (x : i.Ty), v i = some x → Passes p i x := by
  have hnamed : ((namedPaths v).findSome? fun (item, path) =>
      (p.protecting path).map fun what =>
        (item, s!"{path} is {what}; the API may not name it in global")) = none ↔
      (∀ path, v .accessLog = some path → p.protecting path = none) ∧
        (∀ c, v .crowdsec = some c → p.protecting c.apiKeyFile = none) ∧
        ∀ g, v .geoip = some g → ∀ d ∈ g.databases, p.protecting d.2 = none := by
    simp only [List.findSome?_eq_none_iff, Option.map_eq_none_iff, namedPaths, geoipPaths,
      List.mem_append, List.mem_map, Option.mem_toList, List.mem_flatMap]
    constructor
    · intro h
      exact ⟨fun path hp => h (_, path) (.inl (.inl ⟨path, hp, rfl⟩)),
        fun c hc => h (.crowdsec, c.apiKeyFile) (.inl (.inr ⟨c, hc, rfl⟩)),
        fun g hg d hd => h (.geoip, d.2) (.inr ⟨d.2, ⟨g, hg, d, hd, rfl⟩, rfl⟩)⟩
    rintro ⟨hlog, hcrowdsec, hgeoip⟩ _ ((⟨path, hp, rfl⟩ | ⟨c, hc, rfl⟩) |
      ⟨path, ⟨g, hg, d, hd, rfl⟩, rfl⟩)
    · exact hlog path hp
    · exact hcrowdsec c hc
    · exact hgeoip g hg d hd
  have hacme : ((v .acme).bind fun a =>
      (((acmeFiles a).findSome? fun (what, path) => (p.protectingAcme path).map fun why =>
          s!"global.acme.{what}: {path} is {why}; the API may not name it in global").or
        (firstError [p.acmeAllowed a])).map (mk LiveItem.acme)) = none ↔
      ∀ a, v .acme = some a → Passes p .acme a := by
    cases v .acme with
    | none => simp
    | some a =>
      simp only [Option.bind_some, Option.map_eq_none_iff, Option.or_eq_none_iff,
        List.findSome?_eq_none_iff, firstError_eq_none, List.mem_singleton, forall_eq,
        Option.some.injEq, Passes, forall_eq']
  simp only [pathRefused, Option.or_eq_none_iff, Option.map_eq_none_iff, firstError_eq_none,
    geoipPaths, List.mem_map, List.mem_flatMap, Option.mem_toList]
  rw [hnamed, hacme]
  constructor
  · rintro ⟨⟨hlog, hcrowdsec, hgeoip⟩, hlogs, hdirs, hacme⟩ i x hx
    cases i with
    | accessLog => exact ⟨hlog x hx, hlogs _ ⟨x, hx, rfl⟩⟩
    | crowdsec => exact hcrowdsec x hx
    | geoip => exact fun d hd => ⟨hgeoip x hx d hd, hdirs _ ⟨d.2, ⟨x, hx, d, hd, rfl⟩, rfl⟩⟩
    | acme => exact hacme x hx
    | _ => trivial
  intro h
  refine ⟨⟨fun path hp => (h .accessLog path hp).1, fun c hc => h .crowdsec c hc,
    fun g hg d hd => (h .geoip g hg d hd).1⟩, ?_, ?_, fun a ha => h .acme a ha⟩
  · rintro _ ⟨path, hp, rfl⟩
    exact (h .accessLog path hp).2
  rintro _ ⟨_, ⟨g, hg, d, hd, rfl⟩, rfl⟩
  exact (h .geoip g hg d hd).2

def Nameable (p : Paths) (i : LiveItem) (x : i.Ty) : Prop := pathRefused p (Family.only i x) = none

instance (p : Paths) (i : LiveItem) (x : i.Ty) : Decidable (Nameable p i x) :=
  inferInstanceAs (Decidable (_ = _))

lemma nameable_iff {p : Paths} {x : i.Ty} : Nameable p i x ↔ Passes p i x := by
  rw [Nameable, pathRefused_eq_none]
  constructor
  · exact fun h => h i x (Family.only_self i x)
  intro h j y hy
  by_cases hj : j = i
  · subst hj
    rw [Family.only_self] at hy
    cases hy
    exact h
  rw [Family.only_of_ne hj] at hy
  cases hy

lemma pathRefused_eq_none_iff_nameable {p : Paths} :
    pathRefused p v = none ↔ ∀ (i : LiveItem) (x : i.Ty), v i = some x → Nameable p i x := by
  simp only [pathRefused_eq_none, nameable_iff]

lemma exists_of_pathRefused {p : Paths} {e : String} (h : pathRefused p v = some (i, e)) :
    ∃ x, v i = some x := by
  have hmap : ∀ {α : Type} {o : Option α} {j : LiveItem} {f : α → LiveItem × String},
      (∀ a, (f a).1 = j) → o.map f = some (i, e) → j = i := by
    intro α o j f hf ho
    obtain ⟨a, -, ha⟩ := Option.map_eq_some_iff.mp ho
    rw [← hf a, ha]
  have hgeoip : geoipPaths v ≠ [] → ∃ g, v .geoip = some g := by
    intro hne
    cases hg : v .geoip with
    | none => exact absurd (by simp [geoipPaths, hg]) hne
    | some g => exact ⟨g, rfl⟩
  rw [pathRefused, Option.or_eq_some_iff] at h
  rcases h with h | ⟨-, h⟩
  · obtain ⟨⟨item, path⟩, hmem, hpath⟩ := List.exists_of_findSome?_eq_some h
    obtain rfl : item = i := hmap (fun _ => rfl) hpath
    simp only [namedPaths, List.mem_append, List.mem_map, Option.mem_toList, mk.injEq] at hmem
    rcases hmem with (⟨x, hx, rfl, -⟩ | ⟨c, hc, rfl, -⟩) | ⟨x, hx, rfl, -⟩
    · exact ⟨x, hx⟩
    · exact ⟨c, hc⟩
    · exact hgeoip (List.ne_nil_of_mem hx)
  rw [Option.or_eq_some_iff] at h
  rcases h with h | ⟨-, h⟩
  · obtain rfl := hmap (f := mk accessLog) (fun _ => rfl) h
    cases hx : v .accessLog with
    | none => simp [hx, firstError] at h
    | some x => exact ⟨x, rfl⟩
  rw [Option.or_eq_some_iff] at h
  rcases h with h | ⟨-, h⟩
  · obtain rfl := hmap (f := mk geoip) (fun _ => rfl) h
    refine hgeoip fun hnil => ?_
    simp [hnil, firstError] at h
  obtain ⟨a, ha, h⟩ := Option.bind_eq_some_iff.mp h
  obtain rfl := hmap (f := mk acme) (fun _ => rfl) h
  exact ⟨a, ha⟩

end
end Rproxy.Global
