import Rproxy.Global.RulesUse

/-!
# Changes of `global`

By a PATCH of the control API, by a new settings file and by values that are restored or handed
over.
-/

namespace Rproxy.Global
open Checks Function GlobalExternal LiveItem
section
variable [External] [GlobalExternal]

variable {target : Live} {i : LiveItem}

structure Process where
  state : State
  /-- The value that each running part was built from; no access log is the main log. -/
  force : Live

/-! ## Building -/

inductive Mode where
  | api
  | file
  | restore
deriving DecidableEq

inductive BuildError where
  | invalid (e : String)
  | notSynced (e : String)

def BuildError.message : BuildError → String
  | invalid e => e
  | notSynced e => e

inductive Opened where
  | ok
  | config (e : String)
  | unavailable (e : String)

/-- What building meets outside: an error, or `none`. -/
structure Builds where
  openAccessLog : String → Opened
  newBouncer : CrowdsecGlobal → Option String
  notSynced : CrowdsecGlobal → Option String
  /-- `Geoip::open_api` of a value of the API, `Geoip::open` of another. -/
  openGeoip : Bool → GeoipGlobal → Option String
  /-- `Acme::new`, `Acme::storage_problem` and `bind_http01`. -/
  newAcme : Acme → Option String
  storageProblem : Acme → Option String
  bindFailed : Acme → List (SocketAddr × String)

structure Built where
  values : Family LiveItem.Held
  accessLogFallback : Option Bool

def Built.none : Built := ⟨Family.none, .none⟩

def Built.put (b : Built) (i : LiveItem) (v : i.Held) : Built :=
  { b with values := update b.values i (some v) }

def bouncerSyncWait : Nat := 10

variable (s : State) (b : Builds) (mode : Mode)

def startBouncer (c : CrowdsecGlobal) : Except BuildError Unit :=
  match b.newBouncer c with
  | some e => .error (.invalid e)
  | none =>
    match b.notSynced c with
    | none => .ok ()
    | some why =>
      -- a restored bouncer is used anyway
      if mode = .restore then .ok ()
      else .error (.notSynced (s!"global.crowdsec: the LAPI did not answer within " ++
        s!"{bouncerSyncWait}s ({why}); the CrowdSec in force stays"))

def buildAccessLog (built : Built) (log : Option String) : Except BuildError Built :=
  let opened := (log.map b.openAccessLog).getD .ok
  match opened with
  | .ok => .ok { built.put .accessLog log with accessLogFallback := some false }
  | .config e => .error (.invalid s!"global.access_log: {e}")
  | .unavailable e =>
    if mode = .api then .error (.invalid s!"global.access_log: {e}")
    else .ok { built.put .accessLog none with accessLogFallback := some true }

def buildAcme (a : Acme) : Except BuildError Unit := do
  onSome (b.newAcme a) fun e => throw (.invalid e)
  onlyIf (mode = .api) do
    onSome (b.storageProblem a) fun e => throw (.invalid s!"global.acme.storage: {e}")
    onSome (b.bindFailed a).head? fun (addr, e) =>
      throw (.invalid s!"global.acme.http01_listen: {addr.text}: {e}")

def buildItem (fromApi : Bool) (target : Live) (built : Built) : LiveItem → Except BuildError Built
  | .trustedProxies => do
    let _ ← (Cidr.parseList (target .trustedProxies)).mapError fun e => BuildError.invalid e.message
    return built.put .trustedProxies (target .trustedProxies)
  | .accessLog => buildAccessLog b mode built (target .accessLog)
  | .crowdsec => do
    onSome (target .crowdsec) (startBouncer b mode)
    return built.put .crowdsec (target .crowdsec)
  | .httpTimeouts => return built.put .httpTimeouts (target .httpTimeouts)
  | .udpMaxSessions => return built.put .udpMaxSessions (target .udpMaxSessions)
  | .cacheMaxMemory => return built.put .cacheMaxMemory (target .cacheMaxMemory)
  | .geoip => do
    onSome (target .geoip) fun g => onSome (b.openGeoip fromApi g) fun e => throw (.invalid e)
    return built.put .geoip (target .geoip)
  | .acme => do
    onSome (target .acme) (buildAcme b mode)
    return built.put .acme (target .acme)

variable {b : Builds} {built built' : Built}

lemma buildItem_of_ne {mode : Mode} {fromApi : Bool}
    {j : LiveItem} (h : buildItem b mode fromApi target built i = .ok built') (hj : j ≠ i) :
    built'.values j = built.values j := by
  have hput (v : i.Held) : (built.put i v).values j = built.values j := update_of_ne hj ..
  cases i <;> simp only [buildItem, buildAccessLog, bind_eq_ok, pure_eq_ok] at h
  case accessLog =>
    revert h
    split
    · rintro ⟨⟩
      exact hput _
    · rintro ⟨⟩
    split
    · rintro ⟨⟩
    rintro ⟨⟩
    exact hput _
  case httpTimeouts | udpMaxSessions | cacheMaxMemory =>
    cases h
    exact hput _
  all_goals
    obtain ⟨-, -, rfl⟩ := h
    exact hput _

lemma buildItem_self {mode : Mode} {fromApi : Bool}
    (h : buildItem b mode fromApi target built i = .ok built') (hi : i ≠ .accessLog) :
    built'.values i = some (target i) := by
  have hput (v : i.Held) : (built.put i v).values i = some v := update_self ..
  cases i <;> simp only [buildItem, bind_eq_ok, pure_eq_ok] at h
  case accessLog => exact absurd rfl hi
  case httpTimeouts | udpMaxSessions | cacheMaxMemory =>
    cases h
    exact hput _
  all_goals
    obtain ⟨-, -, rfl⟩ := h
    exact hput _

def commit (built : Built) (force : Live) : Live := fun i => (built.values i).getD (force i)

def init (file : Values) (env : EnvValues) (database : Bool) : Process :=
  let live := effective file env.values Family.none
  { state :=
      { file, env, api := Family.none, kept := .null, failed := fun _ => none, keptCrowdsec := none
        keptGeoip := none, keptAcme := none, live
        sources := sourceOf file env.values Family.none, accessLogFallback := false
        updatedBy := none, updatedAt := none, persisted := if database then some true else none
        notLoaded := false }
    force := live }

def setNotLoaded (x : Process) : Process := { x with state := { x.state with notLoaded := true } }

/-! ## Restoring stored values -/

structure Kept where
  crowdsec : Option CrowdsecGlobal
  geoip : Option GeoipGlobal
  acme : Option Acme

structure Restored where
  spec : Json
  updatedBy : Option String
  updatedAt : Option Nat
  persisted : Option Bool
  keptOver : Kept

def holdBack (p : Paths) :
    Nat → Values → (LiveItem → Option String) → LiveItem → Option String
  | 0, _, failed => failed
  | n + 1, check, failed =>
    match pathRefused p check with
    | none => failed
    | some (i, e) =>
      holdBack p n (update check i none) (update failed i (some e))

def State.adopt (k : Kept) : State :=
  { s with
    keptCrowdsec := if s.live .crowdsec = none then k.crowdsec else s.keptCrowdsec
    keptGeoip := k.geoip.or s.keptGeoip
    keptAcme := k.acme.or s.keptAcme }

def State.restoreTarget (inForce : Values) : Live × (LiveItem → Source) :=
  let (target, sources) := s.effectiveWith s.file inForce
  let (target, sources) :=
    match s.keptGeoip with
    | some g => (update target .geoip (some g), update sources .geoip .file)
    | none => (target, sources)
  (match s.keptAcme with
    | some a => update target .acme (some a)
    | none => target, sources)

structure Restoring where
  target : Live
  built : Built
  failed : LiveItem → Option String

def Restoring.step (b : Builds) (sources : LiveItem → Source) (before : Live) (r : Restoring)
    (i : LiveItem) : Restoring :=
  match buildItem b .restore (sources i = .api) r.target r.built i with
  | .ok built => { r with built }
  | .error e =>
    { r with
      target := keepItem r.target before i
      failed := update r.failed i (some e.message) }

def restore (p : Paths) (b : Builds) (x : Process) (r : Restored) : Process :=
  let stored := Values.readStored r.spec
  let s := x.state.adopt r.keptOver
  let failed := holdBack p all.length stored.values stored.errors
  let inForce := stored.values.without (all.filter fun i => (failed i).isSome)
  let (target, sources) := s.restoreTarget inForce
  let done := (differing s.live target).foldl (Restoring.step b sources s.live)
    { target, built := .none, failed }
  let s := { s with
    kept := stored.rest
    failed := done.failed
    accessLogFallback := done.built.accessLogFallback.getD s.accessLogFallback }
  let s := s.settle done.target s.file stored.values
  { state := { s with
      updatedBy := r.updatedBy
      updatedAt := r.updatedAt
      notLoaded := false
      persisted := s.persisted.map fun _ => r.persisted.getD true }
    force := commit done.built x.force }

/-! ## A new version of the settings file -/

structure FilePrepared where
  file : Values
  target : Live
  built : Built
  changed : List LiveItem
  notInForce : List (LiveItem × String)

def FilePrepared.step (b : Builds) (sources : LiveItem → Source) (before : Live)
    (p : FilePrepared) (i : LiveItem) : Except String FilePrepared :=
  match buildItem b .file (sources i = .api) p.target p.built i with
  | .ok built => .ok { p with built, changed := p.changed ++ [i] }
  -- the CrowdSec in force stays until its LAPI answers
  | .error (.notSynced e) =>
    .ok { p with
      target := keepItem p.target before i
      notInForce := p.notInForce ++ [(i, e)] }
  | .error (.invalid e) => .error e

def prepareFile (b : Builds) (s : State) (file : Values) : Except String FilePrepared :=
  let (target, sources) := s.effectiveWith file s.apiInForce
  (differing s.live target).foldlM (FilePrepared.step b sources s.live)
    { file, target, built := .none, changed := [], notInForce := [] }

structure Committing where
  state : State
  target : Live
  built : Built
  changed : List LiveItem

def Committing.keep (c : Committing) (before : Live) (i : LiveItem) : Committing :=
  { c with
    target := keepItem c.target before i
    built := { c.built with values := update c.built.values i none }
    changed := c.changed.filter (· ≠ i) }

def Committing.geoip (c : Committing) (uses : RulesUse) (before : Live) : Committing :=
  if uses.geoip.refuses (c.target .geoip) ≠ none ∧ uses.geoip.refuses (before .geoip) = none then
    { c.keep before .geoip with state := { c.state with keptGeoip := before .geoip } }
  else { c with state := { c.state with keptGeoip := none } }

def Committing.acme (c : Committing) (uses : RulesUse) (before : Live) : Committing :=
  if uses.acmeRefuses (c.target .acme) ≠ none ∧ uses.acmeRefuses (before .acme) = none then
    { c.keep before .acme with state := { c.state with keptAcme := before .acme } }
  else { c with state := { c.state with keptAcme := none } }

def Committing.crowdsec (c : Committing) (file : Values) (uses : RulesUse) (before : Live) :
    Committing :=
  if uses.crowdsec.refuses (c.target .crowdsec) ≠ none ∧ before .crowdsec ≠ none then
    { c.keep before .crowdsec with state := { c.state with keptCrowdsec := before .crowdsec } }
  else if uses.crowdsec.refuses none = none ∧ c.state.keptCrowdsec ≠ none ∧
      c.target .crowdsec = c.state.keptCrowdsec ∧ file .crowdsec = none ∧
      c.state.api .crowdsec = none then
    -- no rule uses it any more: a kept one goes
    let c := { c with
      target := update c.target .crowdsec none
      state := { c.state with keptCrowdsec := none } }
    if .crowdsec ∈ c.changed then c
    else { c with built := c.built.put .crowdsec none, changed := c.changed ++ [.crowdsec] }
  else c

def committing (uses : RulesUse) (x : Process) (p : FilePrepared) : Committing :=
  let before := x.state.live
  ((Committing.geoip ⟨x.state, p.target, p.built, p.changed⟩ uses before).acme uses
    before).crowdsec p.file uses before

def commitFile (uses : RulesUse) (x : Process) (p : FilePrepared) : Process × List LiveItem :=
  let c := committing uses x p
  let s := { c.state with
    accessLogFallback := c.built.accessLogFallback.getD c.state.accessLogFallback
    failed := p.notInForce.foldl (fun f (e : LiveItem × String) => update f e.1 (some e.2))
      (Family.takeOver c.state.failed (fun _ => none) c.changed) }
  ({ state := s.settle c.target p.file s.api, force := commit c.built x.force }, c.changed)

/-- A reload of the settings file: `prepare_file`, and `commit_file` if that succeeds. -/
def reload (b : Builds) (uses : RulesUse) (x : Process) (file : Values) :
    Process × Except String (List LiveItem) :=
  match prepareFile b x.state file with
  | .error e => (x, .error e)
  | .ok p =>
    let (x, changed) := commitFile uses x p
    (x, .ok changed)

def preview (file : Values) : List LiveItem :=
  differing s.live (s.effectiveWith file s.apiInForce).1

/-! ## `PATCH /config/global` -/

inductive PatchError where
  | invalid (e : String)
  | static (items : List String)
  | restartOnly (items : List String)
  | inUse (e : String)
  | protectedFile (e : String)
  | limit (e : String)
  | unavailable (e : String)
  | notLoaded

structure Change where
  item : LiveItem
  before : Json
  after : Json
  apiBefore : Json
  apiAfter : Json

structure Patched where
  changes : List Change
  applied : List LiveItem

def httpItems : List (String × Json) → Except String (List (Item × Option Json))
  | [] => .ok []
  | (sub, v) :: rest =>
    if sub ≠ "timeouts" then .error s!"global.http.{sub} is not known"
    else (httpItems rest).map ((.live .httpTimeouts, some v) :: ·)

def itemsOfKey : String × Json → Except String (List (Item × Option Json))
  | ("http", .null) => .ok [(.live .httpTimeouts, none)]
  | ("http", .obj fields) => httpItems fields
  | ("http", _) => .error "global.http: an object (\x7b\"timeouts\": ...\x7d) or null"
  | (name, v) =>
    match Item.ofName name with
    | some i => .ok [(i, some v)]
    | none => .error s!"global.{name} is not known"

def namedItems (body : List (String × Json)) : Except String (List (Item × Option Json)) := do
  let items ← collect itemsOfKey body
  refuseIf (items.flatten = []) "name at least one item of global"
  return items.flatten

structure PatchPlan where
  named : List LiveItem
  api : Values
  target : Live

def trySet (v : Values) (i : LiveItem) (value : Option Json) : Values :=
  match v.set i value with
  | .ok v => v
  | .error _ => v

def setAll (v : Values) : List (LiveItem × Option Json) → Except String Values
  | [] => .ok v
  | (i, value) :: rest => do
    let v ← v.set i (value.filter fun j => !j.isNull)
    setAll v rest

def takeNamed (v api : Values) (named : List LiveItem) : Values :=
  named.foldl (fun v i => trySet v i (api.get i)) v

def patchPlan (p : Paths) (s : State) (items : List (Item × Option Json)) :
    Except PatchError PatchPlan := do
  refuseIf (s.notLoaded = true) .notLoaded
  let restart := items.filter fun i => i.1.live? = none
  refuseIf (restart ≠ []) (.restartOnly (restart.map fun i => i.1.name))
  let items := items.filterMap fun i => i.1.live?.map fun l => (l, i.2)
  let owned := items.filter fun i => (s.file i.1).isSome ∨ (s.env.values i.1).isSome
  refuseIf (owned ≠ []) (.static (owned.map fun i => i.1.name))
  let api ← (setAll s.api items).mapError .invalid
  let named := items.map Prod.fst
  -- the API may not point rproxy at its own secrets or stores
  onSome (pathRefused p (takeNamed Family.none api named)) fun r => throw (.protectedFile r.2)
  -- the named items are in force as given; the others as they are
  let target := (s.effectiveWith s.file (takeNamed s.apiInForce api named)).1
  let others := all.filter fun i => i ∉ named
  return { named, api, target := Family.takeOver target s.live others }

def liveValue (l : Live) : LiveItem → Json
  | .trustedProxies => (Codec.list .str).enc (l .trustedProxies)
  | .accessLog => ((l .accessLog).map Codec.str.enc).getD .null
  | .crowdsec => ((l .crowdsec).map CrowdsecGlobal.codec.enc).getD .null
  | .httpTimeouts => ((l .httpTimeouts).map timeoutsCodec.enc).getD .null
  | .udpMaxSessions => Codec.u64.enc (l .udpMaxSessions)
  | .cacheMaxMemory => Codec.u64.enc (l .cacheMaxMemory)
  | .acme => ((l .acme).map acmeEnc).getD .null
  | .geoip => ((l .geoip).map GeoipGlobal.codec.enc).getD .null

def PatchPlan.changes (plan : PatchPlan) (s : State) : List Change :=
  plan.named.map fun i =>
    { item := i
      before := shown i (liveValue s.live i)
      after := shown i (liveValue plan.target i)
      apiBefore := shown i ((s.api.get i).getD .null)
      apiAfter := shown i ((plan.api.get i).getD .null) }

structure PatchEnv where
  cfg : Settings
  paths : Paths
  builds : Builds
  /-- What the rules use when it is first looked at, and with the lock held at the end. -/
  usesFirst : RulesUse
  usesLast : RulesUse
  isFile : String → Bool
  accessLogDir : String → Option String
  now : Nat

def RulesUse.http01Refuses (u : RulesUse) (cfg : Settings) (addrs now : List SocketAddr) :
    Except PatchError Unit := do
  forEach (fun a => do
    onSome (u.tcp.find? fun l => decide (l.ports.1 ≤ a.port.toNat ∧ a.port.toNat ≤ l.ports.2) &&
        l.ips.any fun ip => clash ip l.v6only a.ip false) fun l =>
      throw (.inUse s!"global.acme.http01_listen {a.text}: the rule {l.key} listens there")
    onSome (cfg.reserved.find? fun r => r.port = a.port && clash r.ip false a.ip false) fun r =>
      throw (.inUse
        s!"global.acme.http01_listen {a.text}: the control API listens there ({r.text})")) addrs
  let added := (addrs.filter fun a => !now.contains a).length
  (Quota.checkProcess cfg 0 0 (u.sockets + addrs.length) added).mapError fun e => .limit e.message

def usesRefuse (cfg : Settings) (uses : RulesUse) (force target : Live) (applied : List LiveItem) :
    Except PatchError Unit := do
  onSome (uses.refused target applied) fun why =>
    throw (.inUse s!"{why}; change those rules first")
  onlyIf (.acme ∈ applied) <| onSome (target .acme) fun a =>
    uses.http01Refuses cfg (http01Listen a)
      (((force .acme).map http01Listen).getD [])

def dryChecks (env : PatchEnv) (target : Live) (applied : List LiveItem) :
    Except PatchError Unit := do
  onlyIf (.acme ∈ applied) <| onSome (target .acme) fun a =>
    onSome (env.builds.newAcme a) fun e => throw (.invalid e)
  onlyIf (.geoip ∈ applied) <| onSome (target .geoip) fun g =>
    forEach (fun d => refuseIf (env.isFile d.2 = false)
      (.invalid s!"global.geoip.{d.1}: {d.2} is not a file that can be read")) g.databases
  onlyIf (.accessLog ∈ applied) <| onSome (target .accessLog) fun p =>
    onSome (env.accessLogDir p) fun e => throw (.invalid s!"global.access_log: {e}")
  onlyIf (.crowdsec ∈ applied) <| onSome (target .crowdsec) fun c =>
    onSome (env.builds.newBouncer c) fun e => throw (.invalid e)

def buildAll (b : Builds) (target : Live) : Built → List LiveItem → Except PatchError Built
  | built, [] => .ok built
  | built, i :: rest =>
    match buildItem b .api true target built i with
    | .ok built => buildAll b target built rest
    | .error (.invalid e) => .error (.invalid e)
    | .error (.notSynced e) => .error (.unavailable e)

variable {items : List LiveItem}

lemma buildAll_of_notMem (h : buildAll b target built items = .ok built') (hi : i ∉ items) :
    built'.values i = built.values i := by
  induction items generalizing built with
  | nil =>
    cases h
    rfl
  | cons j items ih =>
    rw [List.mem_cons, not_or] at hi
    unfold buildAll at h
    split at h
    next next hnext => rw [ih h hi.2, buildItem_of_ne hnext hi.1]
    · cases h
    · cases h

lemma buildAll_of_mem
    (h : buildAll b target built items = .ok built') (hi : i ∈ items) (hlog : i ≠ .accessLog) :
    built'.values i = some (target i) := by
  induction items generalizing built with
  | nil => cases hi
  | cons j items ih =>
    unfold buildAll at h
    split at h
    next next hnext =>
      by_cases hrest : i ∈ items
      · exact ih h hrest
      obtain rfl := (List.mem_cons.mp hi).resolve_right hrest
      rw [buildAll_of_notMem h hrest, buildItem_self hnext hlog]
    · cases h
    · cases h

def State.patched (plan : PatchPlan) (built : Built) (token : String) (now : Nat) : State :=
  let applied := differing s.live plan.target
  let s := { s with
    failed := Family.takeOver s.failed (fun _ => none) plan.named
    kept := plan.named.foldl (fun kept i => (takeAt i kept).1) s.kept
    keptCrowdsec := if plan.target .crowdsec ≠ s.keptCrowdsec then none else s.keptCrowdsec
    keptGeoip := if geoip ∈ applied then none else s.keptGeoip
    keptAcme := if acme ∈ applied then none else s.keptAcme
    accessLogFallback := built.accessLogFallback.getD s.accessLogFallback }
  let s := s.settle plan.target s.file plan.api
  { s with
    updatedBy := some token
    updatedAt := some now
    persisted := s.persisted.map fun _ => false }

def patchChecks (env : PatchEnv) (x : Process) (body : List (String × Json)) :
    Except PatchError PatchPlan := do
  let items ← (namedItems body).mapError .invalid
  let plan ← patchPlan env.paths x.state items
  usesRefuse env.cfg env.usesFirst x.force plan.target (differing x.state.live plan.target)
  return plan

def patch (env : PatchEnv) (x : Process) (body : List (String × Json)) (token : String)
    (dryRun : Bool) : Process × Except PatchError Patched :=
  match patchChecks env x body with
  | .error e => (x, .error e)
  | .ok plan =>
    let applied := differing x.state.live plan.target
    let answer : Patched := { changes := plan.changes x.state, applied }
    if dryRun then (x, (dryChecks env plan.target applied).map fun _ => answer)
    else
      match buildAll env.builds plan.target .none applied with
      | .error e => (x, .error e)
      | .ok built =>
        -- swapped in with the lock of the rules held
        match usesRefuse env.cfg env.usesLast x.force plan.target applied with
        | .error e => (x, .error e)
        | .ok () =>
          ({ state := x.state.patched plan built token env.now, force := commit built x.force },
            .ok answer)

end
end Rproxy.Global
