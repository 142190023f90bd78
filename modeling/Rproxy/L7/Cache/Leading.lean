import Rproxy.L7.Cache.Accounting

/-!
# One request leads

While a request leads for a key, the slot names its flight, and others wait for that flight.
-/

namespace Rproxy.Cache
open List Option

/-! ## The flights in the slots -/

namespace Ledger

lemma flightAt_insert (l : Ledger) (cfg : Settings) (key : Key) (entry : Entry) (now : Nat)
    (locked : Nat → Bool) (k : Key) :
    (l.insert cfg key entry now locked).store.flightAt k = l.store.flightAt k := by
  obtain ⟨l', hl', h | ⟨old, h⟩⟩ := insert_within l cfg key entry now locked
  · rw [h, hl'.store.flight]
  · rw [h, flightAt_place, hl'.store.flight]

end Ledger

variable (cfg : Settings)

variable (l : Ledger)

lemma flightAt_putEntry (key : Key) (entry : Option Entry) (now : Nat) (locked : Nat → Bool)
    (k : Key) : (putEntry cfg l key entry now locked).store.flightAt k = l.store.flightAt k := by
  cases entry with
  | none => rfl
  | some e =>
    show ((l.insert cfg key e now locked).unpass key).store.flightAt k = _
    rw [(Ledger.within_unpass _ key).store.flight, Ledger.flightAt_insert]

lemma flightAt_leave (key : Key) (mark : Mark) (now : Nat) (locked : Nat → Bool) (k : Key) :
    (leave cfg l key mark now locked).store.flightAt k = l.store.flightAt k := by
  cases mark with
  | strike varies => exact (Ledger.within_strike l key varies now _ _ locked).store.flight k
  | reset => exact (Ledger.within_unpass l key).store.flight k
  | nothing | failed => rfl

lemma flightAt_land (key : Key) (flight : Nat) (failed : Bool) (now : Nat) (k : Key) :
    (land l key flight failed now).store.flightAt k =
      if k = key ∧ l.store.flightAt key = some flight then none else l.store.flightAt k := by
  cases hslot : l.store.map.lookup key with
  | none =>
    have hnone : l.store.flightAt key = none := by
      rw [Store.flightAt, hslot]
      rfl
    rw [if_neg (by simp [hnone]), land, hslot]
  | some slot =>
    have hflightAt : l.store.flightAt key = slot.flight := by
      rw [Store.flightAt, hslot]
      rfl
    obtain ⟨slot', -, hflight, hland⟩ := land_eq hslot flight failed now
    have hmap : (land l key flight failed now).store.flightAt k =
        if k = key then slot'.flight else l.store.flightAt k := by
      rw [hland, Store.flightAt]
      split
      next hgone =>
        -- the slot that goes has no flight
        rw [Table.lookup_erase_eq]
        simp only [Bool.and_eq_true, isNone_iff_eq_none] at hgone
        split
        · exact hgone.1.symm
        · rfl
      · rw [Table.lookup_insert_eq]
        split <;> rfl
    rw [hmap, hflight]
    by_cases hk : k = key
    · subst hk
      simp [hflightAt]
    · simp [hk]

lemma flightAt_finish (key : Key) (flight : Nat) (entry : Option Entry) (mark : Mark) (now : Nat)
    (locked : Nat → Bool) (k : Key) :
    (finish cfg l key flight entry mark now locked).store.flightAt k =
      if k = key ∧ l.store.flightAt key = some flight then none else l.store.flightAt k := by
  simp only [finish, flightAt_land, flightAt_leave, flightAt_putEntry]

lemma flightAt_markFailed (key : Key) (now : Nat) (k : Key) :
    (markFailed l key now).store.flightAt k = l.store.flightAt k := by
  unfold markFailed
  split
  · rfl
  rename_i slot hslot
  simp only [Store.flightAt, Table.lookup_insert_eq]
  split
  next hk =>
    subst hk
    rw [hslot]
    rfl
  · rfl

def State.flightAt (s : State) (c : Nat) (k : Key) : Option Nat := (s.store c).flightAt k

section OnLedger
variable {s : State} {c : Nat} {f : Ledger → Ledger}

lemma length_onLedger (hf : s.Changes c f (fun _ _ => True) fun _ _ => True) :
    (s.onLedger c f).stores.length = s.stores.length := by
  unfold State.onLedger
  split
  · rfl
  rename_i store hstore
  simp only [length_set]
  exact (hf store hstore).others.length_eq.symm

lemma flightAt_onLedger (hf : s.Changes c f (fun _ _ => True) fun _ _ => True)
    (upd : Key → Option Nat → Option Nat) (hupd : ∀ store, s.stores[c]? = some store → ∀ k,
      (f ⟨store, s.budget, s.stores⟩).store.flightAt k = upd k (store.flightAt k))
    (hc : c < s.stores.length) (c' : Nat) (k : Key) :
    (s.onLedger c f).flightAt c' k =
      if c' = c then upd k (s.flightAt c k) else s.flightAt c' k := by
  have hstore : s.stores[c]? = some s.stores[c] := getElem?_eq_getElem hc
  have hothers := (hf _ hstore).others
  have hstores : (s.onLedger c f).stores =
      (f ⟨s.stores[c], s.budget, s.stores⟩).others.set c
        (f ⟨s.stores[c], s.budget, s.stores⟩).store := by
    rw [State.onLedger, hstore]
  have hlen : c < (f ⟨s.stores[c], s.budget, s.stores⟩).others.length := hothers.length_eq ▸ hc
  rw [State.flightAt, State.store, hstores, getElem?_set]
  by_cases hcc : c = c'
  · subst hcc
    rw [if_pos rfl, if_pos hlen, if_pos rfl, getD_some, hupd _ hstore, State.flightAt,
      State.store, hstore]
    rfl
  rw [if_neg hcc, if_neg (Ne.symm hcc), State.flightAt, State.store]
  rcases Nat.lt_or_ge c' s.stores.length with hlt | hge
  · have hlt' := hothers.length_eq ▸ hlt
    rw [getElem?_eq_getElem hlt, getElem?_eq_getElem hlt']
    exact (hothers.get hlt hlt').flight k
  · rw [getElem?_eq_none hge, getElem?_eq_none (hothers.length_eq ▸ hge)]

lemma flightAt_onLedger_same (hf : s.Changes c f (fun _ _ => True) fun _ _ => True)
    (hsame : ∀ store, s.stores[c]? = some store → ∀ k,
      (f ⟨store, s.budget, s.stores⟩).store.flightAt k = store.flightAt k) (c' : Nat) (k : Key) :
    (s.onLedger c f).flightAt c' k = s.flightAt c' k := by
  rcases Nat.lt_or_ge c s.stores.length with hlt | hge
  · rw [flightAt_onLedger hf (fun _ f => f) hsame hlt]
    split
    next hc => rw [hc]
    · rfl
  · rw [State.onLedger, getElem?_eq_none hge]

end OnLedger

/-! ## What a request holds -/

inductive Holding where
  | nothing
  | waits (f : Nat)
  | lead (c : Nat) (key : Key) (f : Nat)
  | tells (f : Nat)

def Holding.flight : Holding → Option Nat
  | nothing => none
  | waits _ => none
  | lead _ _ f => some f
  | tells f => some f

def mayDo (n : Nat) : Op → Holding → Prop
  | .look c _ _ _, g => g = .nothing ∧ c < n
  | .wait f, g => g = .waits f
  | .finish c key f _ _, g => g = .lead c key f
  | .send f done, g => g = .tells f ∧ done ≠ .pending
  | .backend, g => ∀ f, g ≠ .tells f
  | .collect _, g => ∀ f, g ≠ .tells f
  | .stale _ _ _, g => ∀ f, g ≠ .tells f
  | .failed _ _, g => ∀ f, g ≠ .tells f
  | .entry _ _ _ _ _, g => ∀ f, g ≠ .tells f
  | .answer _ _ _ _, g => ∀ f, g ≠ .tells f

def holds : (o : Op) → Ret o → Holding → Holding
  | .look c key _ _, .lead f, _ => .lead c key f
  | .look _ _ _ _, .wait f, _ => .waits f
  | .wait _, _, _ => .nothing
  | .finish _ _ f _ _, _, _ => .tells f
  | .send _ _, _, _ => .nothing
  | _, _, g => g

abbrev Ends (n : Nat) (p : Prog Op Ret Unit) (g : Holding) : Prop :=
  p.Safe (mayDo n) holds g fun _ g' => g' = .nothing

section Programs
variable {n : Nat} {cfg : Settings} {c : Nat} {key : Key} {r : Request} {resp : Response} (f : Nat)

lemma ends_finishLead {done : Done} (entry : Option Entry) (mark : Mark)
    (hdone : done ≠ .pending) : Ends n (finishLead c key f done entry mark) (.lead c key f) :=
  ⟨rfl, fun _ => ⟨⟨rfl, hdone⟩, fun _ => rfl⟩⟩

lemma ends_finishLead_answer {done : Done} (entry : Option Entry) (mark : Mark)
    (hdone : done ≠ .pending) (e : Entry) (outcome : Outcome) (time : Nat) (way : Way) :
    Ends n (finishLead c key f done entry mark >>= fun _ => act (.answer e outcome time way))
      (.lead c key f) :=
  ⟨rfl, fun _ => ⟨⟨rfl, hdone⟩, fun _ => ⟨nofun, fun _ => rfl⟩⟩⟩

lemma ends_answer (e : Entry) (outcome : Outcome) (time : Nat) (way : Way) :
    Ends n (act (.answer e outcome time way)) .nothing :=
  ⟨nofun, fun _ => rfl⟩

lemma ends_keep : Ends n (keep cfg c key r f resp) (.lead c key f) := by
  refine ⟨nofun, fun read => ?_⟩
  rcases read with _ | ⟨stop | body⟩
  · exact ends_finishLead f none _ nofun
  · cases stop <;> exact ends_finishLead f none _ nofun
  refine ⟨nofun, fun e => ?_⟩
  change Ends n (if e.size ≤ cfg.maxMemory then _ else _) (.lead c key f)
  split
  · exact ends_finishLead_answer f _ _ (by nofun) e _ _ _
  · exact ends_finishLead_answer f _ _ (by nofun) e _ _ _

lemma ends_shareError : Ends n (shareError c key r f resp) (.lead c key f) := by
  unfold shareError
  split
  · exact ends_finishLead f none _ nofun
  refine ⟨nofun, fun read => ?_⟩
  rcases read with _ | stop | body
  · exact ends_finishLead f none _ nofun
  · exact ends_finishLead f none _ nofun
  · exact ⟨nofun, fun e => ends_finishLead_answer f none _ (by nofun) e _ _ _⟩

def goesWith (c : Nat) (key : Key) : Option Nat → Holding
  | none => .nothing
  | some f => .lead c key f

variable (lead : Option Nat)

lemma goesWith_ne_tells (f : Nat) : goesWith c key lead ≠ .tells f := by
  cases lead <;> nofun

lemma ends_response : Ends n (response cfg c key r lead resp) (goesWith c key lead) := by
  unfold response
  split
  · refine ⟨goesWith_ne_tells lead, fun found => ?_⟩
    rcases found with _ | ⟨e, time⟩
    · rcases lead with _ | f
      · rfl
      · exact ends_shareError f
    rcases lead with _ | f
    · exact ⟨nofun, fun _ => ends_answer e _ _ _⟩
    · exact ends_finishLead_answer f none _ (by nofun) e _ _ _
  rcases lead with _ | f
  · rfl
  dsimp only
  split
  · exact ends_keep f
  · exact ends_finishLead f none _ nofun
  · exact ends_finishLead f none _ nofun

lemma ends_goOn : Ends n (goOn cfg c key r lead) (goesWith c key lead) := by
  refine ⟨goesWith_ne_tells lead, fun answer => ?_⟩
  rcases answer with _ | resp
  · rcases lead with _ | f
    · rfl
    · exact ends_finishLead f none _ nofun
  · exact ends_response lead

lemma ends_round (hc : c < n) {last : Bool} {again : Prog Op Ret Unit}
    (hagain : Ends n again .nothing) : Ends n (round cfg c key r last again) .nothing := by
  have halone : Ends n (goOn cfg c key r none) .nothing := ends_goOn none
  refine ⟨⟨rfl, hc⟩, fun looked => ?_⟩
  cases looked with
  | answer e outcome time => exact ends_answer e _ _ _
  | alone => exact halone
  | lead f => exact ends_goOn (some f)
  | wait f =>
    refine ⟨rfl, fun heard => ?_⟩
    have hgive (e : Entry) (outcome : Outcome) (time : Nat) : Ends n
        (if e.fits r.headers then act (.answer e outcome time .flight) else goOn cfg c key r none)
        .nothing := by
      split
      · exact ends_answer e _ _ _
      · exact halone
    obtain ⟨done, time⟩ := heard
    rcases done with _ | done
    · exact halone
    cases done with
    | pending => exact halone
    | fresh e => exact hgive e .hit time
    | stale e => exact hgive e .stale time
    | error e => exact hgive e .miss time
    | uncacheable => exact halone
    | abandoned => exact hagain

lemma ends_program (cfg : Nat → Settings) {call : Call} (hc : call.cache < n) :
    Ends n (program cfg call) .nothing := by
  have hrounds (m : Nat) : Ends n (rounds (cfg call.cache) call.cache
      (Cache.key (cfg call.cache) call.request) call.request m) .nothing := by
    induction m with
    | zero => exact ends_round hc (ends_goOn none)
    | succ m ih => exact ends_round hc ih
  simp only [program]
  split
  · exact hrounds retries
  · exact ⟨by rintro _ ⟨⟩, fun _ => rfl⟩

lemma Ends.next_of_tells {p : Prog Op Ret Unit} {f : Nat} (h : Ends n p (.tells f)) :
    ∃ done k, p = .op (.send f done) k ∧ done ≠ .pending := by
  cases p with
  | ret a => cases h
  | op o k =>
    cases o with
    | send f' done =>
      obtain ⟨⟨hf, hdone⟩, -⟩ := h
      cases hf
      exact ⟨done, k, rfl, hdone⟩
    | look c key r last => cases h.1.1
    | wait f' | finish c key f' entry mark => cases h.1
    | _ => exact absurd rfl (h.1 f)

lemma Ends.must_of_lead {p : Prog Op Ret Unit} {f : Nat} (h : Ends n p (.lead c key f)) :
    p.Must fun o => ∃ done, o = .send f done ∧ done ≠ .pending := by
  induction p with
  | ret a => cases h
  | op o k ih =>
    cases o with
    | finish c' key' f' entry mark =>
      obtain ⟨hlead, hrest⟩ := h
      cases hlead
      refine .inr fun a => ?_
      obtain ⟨done, k', hk, hdone⟩ := Ends.next_of_tells (hrest a)
      rw [hk]
      exact .inl ⟨done, rfl, hdone⟩
    | look c' key' r last => cases h.1.1
    | wait f' => cases h.1
    | send f' done => cases h.1.1
    | _ => exact .inr fun a => ih a (h.2 a)

end Programs

/-! ## The leads of a run -/

/-- A `Lead` that is not finished, and the request that has it. -/
structure Lead where
  thread : Nat
  cache : Nat
  key : Key
  flight : Nat

def Lead.noted (i : Nat) : (o : Op) → Ret o → List Lead → List Lead
  | .look c key _ _, .lead f, h => h ++ [⟨i, c, key, f⟩]
  | .finish _ _ f _ _, _, h => h.filter fun l => l.flight ≠ f
  | _, _, h => h

def leads (cfg : Nat → Settings) (x : Configuration Op Ret State Work) (ev : Event Env Work)
    (_ : Configuration Op Ret State Work) (h : List Lead) : List Lead :=
  match ev with
  | .start _ => h
  | .step i e =>
    match x.threads[i]? with
    | some ⟨_, .op o _⟩ => Lead.noted i o ((machine cfg).exec o e x.state).2 h
    | _ => h

structure Led (n : Nat) (s : State) (h : List Lead) (gs : List Holding) : Prop where
  stores : s.stores.length = n
  slot : ∀ (i c : Nat) k f, gs[i]? = some (.lead c k f) → c < n ∧ s.flightAt c k = some f
  led : ∀ c k f, s.flightAt c k = some f → ∃ i : Nat, gs[i]? = some (.lead c k f)
  bound : ∀ (i : Nat) g f, gs[i]? = some g → g.flight = some f → f < s.flights.length
  waits : ∀ (i : Nat) f, gs[i]? = some (.waits f) → f < s.flights.length
  one : ∀ (i j : Nat) g g' f, gs[i]? = some g → gs[j]? = some g' → g.flight = some f →
    g'.flight = some f → i = j
  pending : ∀ f flight, s.flights[f]? = some flight → flight.done = .pending →
    ∃ (i : Nat) (g : Holding), gs[i]? = some g ∧ g.flight = some f
  noted : ∀ l, l ∈ h ↔ gs[l.thread]? = some (.lead l.cache l.key l.flight)
  nodup : h.Nodup

namespace Led
variable {n : Nat} {s s' : State} {h : List Lead} {gs : List Holding} {i : Nat} {g : Holding}

lemma of_same (hs : Led n s h gs) (hstores : s'.stores.length = s.stores.length)
    (hslots : ∀ c k, s'.flightAt c k = s.flightAt c k) (hflights : s'.flights = s.flights) :
    Led n s' h gs where
  stores := hstores.trans hs.stores
  slot i c k f hi := by
    rw [hslots]
    exact hs.slot i c k f hi
  led c k f hf := hs.led c k f (hslots c k ▸ hf)
  bound := hflights ▸ hs.bound
  waits := hflights ▸ hs.waits
  one := hs.one
  pending := hflights ▸ hs.pending
  noted := hs.noted
  nodup := hs.nodup

lemma getElem?_set_of_ne {g' x : Holding} {j : Nat} (hij : j ≠ i) (hj : gs[j]? = some x) :
    (gs.set i g')[j]? = some x := by
  rwa [getElem?_set_ne (Ne.symm hij)]

lemma getElem?_set_self {g' : Holding} (hi : gs[i]? = some g) : (gs.set i g')[i]? = some g' :=
  List.getElem?_set_self (lt_of_getElem? hi)

lemma of_holding (hs : Led n s h gs) {gs' : List Holding}
    (hkept : ∀ (j : Nat) (x : Holding) (f : Nat), x.flight = some f →
      (gs'[j]? = some x ↔ gs[j]? = some x))
    (hwaits : ∀ (j f : Nat), gs'[j]? = some (.waits f) → f < s.flights.length) :
    Led n s h gs' where
  stores := hs.stores
  slot j c k f hj := hs.slot j c k f ((hkept j _ f rfl).mp hj)
  led c k f hf := by
    obtain ⟨j, hj⟩ := hs.led c k f hf
    exact ⟨j, (hkept j _ f rfl).mpr hj⟩
  bound j x f hj hx := hs.bound j x f ((hkept j x f hx).mp hj) hx
  waits := hwaits
  one j j' x x' f hj hj' hx hx' :=
    hs.one j j' x x' f ((hkept j x f hx).mp hj) ((hkept j' x' f hx').mp hj') hx hx'
  pending f flight hf hp := by
    obtain ⟨j, x, hj, hx⟩ := hs.pending f flight hf hp
    exact ⟨j, x, (hkept j x f hx).mpr hj, hx⟩
  noted l := (hs.noted l).trans (hkept _ _ _ rfl).symm
  nodup := hs.nodup

lemma idle (hs : Led n s h gs) (hi : gs[i]? = some g) (hg : g.flight = none) {g' : Holding}
    (hg' : g'.flight = none) (hwaits : ∀ f, g' = .waits f → f < s.flights.length) :
    Led n s h (gs.set i g') := by
  refine hs.of_holding (fun j x f hx => ⟨fun hj => ?_, fun hj => ?_⟩) fun j f hj => ?_
  · rcases getElem?_set_cases hj with ⟨-, rfl⟩ | ⟨-, hj⟩
    · simp [hg'] at hx
    · exact hj
  · refine getElem?_set_of_ne ?_ hj
    rintro rfl
    rw [hi] at hj
    cases hj
    simp [hg] at hx
  rcases getElem?_set_cases hj with ⟨-, hx⟩ | ⟨-, hj⟩
  · exact hwaits f hx.symm
  · exact hs.waits j f hj

lemma append_nothing (hs : Led n s h gs) : Led n s h (gs ++ [.nothing]) := by
  have hkept {j : Nat} {x : Holding} (hx : x ≠ .nothing) :
      (gs ++ [.nothing])[j]? = some x ↔ gs[j]? = some x := by
    rw [getElem?_append]
    split
    · rfl
    rename_i hge
    rw [getElem?_eq_none (Nat.not_lt.mp hge)]
    cases j - gs.length <;> simp [Ne.symm hx]
  refine hs.of_holding (fun j x f hx => hkept ?_) fun j f hj =>
    hs.waits j f ((hkept (by nofun)).mp hj)
  rintro rfl
  cases hx

lemma lead (hs : Led n s h gs) (hi : gs[i]? = some .nothing) {c : Nat} {k : Key} (hc : c < n)
    (hnone : s.flightAt c k = none) (hstores : s'.stores.length = s.stores.length)
    (hslots : ∀ c' k', s'.flightAt c' k' =
      if c' = c ∧ k' = k then some s.flights.length else s.flightAt c' k')
    (hflights : s'.flights = s.flights ++ [⟨c, k, .pending⟩]) :
    Led n s' (h ++ [⟨i, c, k, s.flights.length⟩]) (gs.set i (.lead c k s.flights.length)) := by
  have hself : (gs.set i (.lead c k s.flights.length))[i]? = some (.lead c k s.flights.length) :=
    getElem?_set_self hi
  have hlen : s'.flights.length = s.flights.length + 1 := by simp [hflights]
  -- the others hold what they held, and no flight with the new number
  have hothers {j : Nat} {x : Holding} (hj : (gs.set i (.lead c k s.flights.length))[j]? = some x) :
      j = i ∧ x = .lead c k s.flights.length ∨ gs[j]? = some x := by
    exact (getElem?_set_cases hj).imp_right And.right
  have hold {j : Nat} {x : Holding} (hx : x ≠ .nothing) (hj : gs[j]? = some x) :
      (gs.set i (.lead c k s.flights.length))[j]? = some x := by
    refine getElem?_set_of_ne ?_ hj
    rintro rfl
    rw [hi] at hj
    exact hx (Option.some.inj hj).symm
  have hfresh {j : Nat} {x : Holding} (hj : gs[j]? = some x) : x.flight ≠ some s.flights.length :=
    fun hx => Nat.lt_irrefl _ (hs.bound j x _ hj hx)
  constructor
  · exact hstores.trans hs.stores
  · intro j c' k' f hj
    rw [hslots]
    rcases hothers hj with ⟨-, hx⟩ | hj
    · cases hx
      exact ⟨hc, if_pos ⟨rfl, rfl⟩⟩
    obtain ⟨hc', hf⟩ := hs.slot j c' k' f hj
    rw [if_neg (by rintro ⟨rfl, rfl⟩; rw [hnone] at hf; cases hf)]
    exact ⟨hc', hf⟩
  · intro c' k' f hf
    rw [hslots] at hf
    split at hf
    next hck =>
      obtain ⟨rfl, rfl⟩ := hck
      cases hf
      exact ⟨i, hself⟩
    · obtain ⟨j, hj⟩ := hs.led c' k' f hf
      exact ⟨j, hold nofun hj⟩
  · intro j x f hj hx
    rw [hlen]
    rcases hothers hj with ⟨-, rfl⟩ | hj
    · cases hx
      exact Nat.lt_succ_self _
    · exact Nat.lt_succ_of_lt (hs.bound j x f hj hx)
  · intro j f hj
    rw [hlen]
    rcases hothers hj with ⟨-, hx⟩ | hj
    · cases hx
    · exact Nat.lt_succ_of_lt (hs.waits j f hj)
  · intro j j' x x' f hj hj' hx hx'
    rcases hothers hj with ⟨rfl, rfl⟩ | hwas
    · cases hx
      rcases hothers hj' with ⟨rfl, -⟩ | hwas'
      · rfl
      · exact absurd hx' (hfresh hwas')
    rcases hothers hj' with ⟨rfl, rfl⟩ | hwas'
    · cases hx'
      exact absurd hx (hfresh hwas)
    · exact hs.one j j' x x' f hwas hwas' hx hx'
  · intro f flight hf hp
    rw [hflights] at hf
    rcases getElem?_concat_cases hf with hf | ⟨rfl, -⟩
    · obtain ⟨j, x, hj, hx⟩ := hs.pending f flight hf hp
      refine ⟨j, x, hold ?_ hj, hx⟩
      rintro rfl
      cases hx
    · exact ⟨i, _, hself, rfl⟩
  · intro l
    rw [mem_append, mem_singleton, hs.noted]
    constructor
    · rintro (hl | rfl)
      · exact hold nofun hl
      · exact hself
    intro hl
    rcases hothers hl with ⟨hthread, hx⟩ | hl
    · cases l
      cases hx
      cases hthread
      exact .inr rfl
    · exact .inl hl
  refine nodup_append.mpr ⟨hs.nodup, nodup_singleton _, ?_⟩
  rintro l hl l' hl' rfl
  rw [mem_singleton] at hl'
  subst hl'
  exact hfresh ((hs.noted _).mp hl) rfl

lemma finish (hs : Led n s h gs) {c : Nat} {k : Key} {f : Nat} (hi : gs[i]? = some (.lead c k f))
    (hstores : s'.stores.length = s.stores.length)
    (hslots : ∀ c' k', s'.flightAt c' k' = if c' = c ∧ k' = k then none else s.flightAt c' k')
    (hflights : s'.flights = s.flights) :
    Led n s' (h.filter fun l => l.flight ≠ f) (gs.set i (.tells f)) := by
  have hself : (gs.set i (.tells f))[i]? = some (.tells f) := getElem?_set_self hi
  have hmine {j : Nat} {x : Holding} (hj : gs[j]? = some x) (hx : x.flight = some f) : j = i :=
    hs.one j i x _ f hj hi hx rfl
  -- the flights held are the same, by the same requests
  have hheld {j : Nat} {x : Holding} {m : Nat} (hj : (gs.set i (.tells f))[j]? = some x)
      (hx : x.flight = some m) : ∃ x', gs[j]? = some x' ∧ x'.flight = some m := by
    rcases getElem?_set_cases hj with ⟨rfl, rfl⟩ | ⟨-, hj⟩
    · exact ⟨_, hi, hx⟩
    · exact ⟨x, hj, hx⟩
  have hlead {j c' : Nat} {k' : Key} {m : Nat} :
      (gs.set i (.tells f))[j]? = some (.lead c' k' m) ↔
        gs[j]? = some (.lead c' k' m) ∧ m ≠ f := by
    constructor
    · intro hj
      rcases getElem?_set_cases hj with ⟨-, hx⟩ | ⟨hne, hwas⟩
      · cases hx
      refine ⟨hwas, ?_⟩
      rintro rfl
      exact hne (hmine hwas rfl)
    rintro ⟨hj, hne⟩
    refine getElem?_set_of_ne ?_ hj
    rintro rfl
    rw [hi] at hj
    cases hj
    exact hne rfl
  constructor
  · exact hstores.trans hs.stores
  · intro j c' k' m hj
    obtain ⟨hj, hne⟩ := hlead.mp hj
    obtain ⟨hc', hm⟩ := hs.slot j c' k' m hj
    refine ⟨hc', ?_⟩
    rw [hslots, if_neg, hm]
    rintro ⟨rfl, rfl⟩
    -- the slot had the flight that has ended
    rw [(hs.slot i c' k' f hi).2] at hm
    exact hne (Option.some.inj hm).symm
  · intro c' k' m hm
    rw [hslots] at hm
    split at hm
    · cases hm
    rename_i hck
    obtain ⟨j, hj⟩ := hs.led c' k' m hm
    refine ⟨j, hlead.mpr ⟨hj, ?_⟩⟩
    rintro rfl
    obtain rfl := hmine hj rfl
    rw [hi] at hj
    cases hj
    exact hck ⟨rfl, rfl⟩
  · intro j x m hj hx
    obtain ⟨x', hj', hx'⟩ := hheld hj hx
    rw [hflights]
    exact hs.bound j x' m hj' hx'
  · intro j m hj
    rw [hflights]
    rcases getElem?_set_cases hj with ⟨-, hx⟩ | ⟨-, hj⟩
    · cases hx
    · exact hs.waits j m hj
  · intro j j' x x' m hj hj' hx hx'
    obtain ⟨y, hy, hym⟩ := hheld hj hx
    obtain ⟨y', hy', hym'⟩ := hheld hj' hx'
    exact hs.one j j' y y' m hy hy' hym hym'
  · intro m flight hm hp
    rw [hflights] at hm
    obtain ⟨j, x, hj, hx⟩ := hs.pending m flight hm hp
    by_cases hji : j = i
    · subst hji
      rw [hi] at hj
      cases hj
      exact ⟨j, _, hself, hx⟩
    · exact ⟨j, x, getElem?_set_of_ne hji hj, hx⟩
  · intro l
    rw [mem_filter, hs.noted, decide_eq_true_eq]
    exact hlead.symm
  · exact hs.nodup.filter _

lemma send (hs : Led n s h gs) {f : Nat} (hi : gs[i]? = some (.tells f)) {done : Done}
    (hdone : done ≠ .pending) : Led n (s.tell f done) h (gs.set i .nothing) := by
  have hlen : (s.tell f done).flights.length = s.flights.length := by simp [State.tell]
  have hkept {j : Nat} {x : Holding} (hx : x ≠ .tells f) (hj : gs[j]? = some x) :
      (gs.set i .nothing)[j]? = some x := by
    refine getElem?_set_of_ne ?_ hj
    rintro rfl
    rw [hi] at hj
    exact hx (Option.some.inj hj).symm
  have hold {j : Nat} {x : Holding} (hx : x ≠ .nothing)
      (hj : (gs.set i .nothing)[j]? = some x) : gs[j]? = some x := by
    rcases getElem?_set_cases hj with ⟨-, rfl⟩ | ⟨-, hj⟩
    · exact absurd rfl hx
    · exact hj
  have hne {x : Holding} {m : Nat} (hx : x.flight = some m) : x ≠ .nothing := by
    rintro rfl
    cases hx
  constructor
  · exact hs.stores
  · exact fun j c k m hj => hs.slot j c k m (hold (by simp) hj)
  · intro c k m hm
    obtain ⟨j, hj⟩ := hs.led c k m hm
    exact ⟨j, hkept (by simp) hj⟩
  · exact fun j x m hj hx => hlen ▸ hs.bound j x m (hold (hne hx) hj) hx
  · exact fun j m hj => hlen ▸ hs.waits j m (hold (by simp) hj)
  · exact fun j j' x x' m hj hj' hx hx' =>
      hs.one j j' x x' m (hold (hne hx) hj) (hold (hne hx') hj') hx hx'
  · intro m flight hm hp
    rw [State.tell, getElem?_modify] at hm
    by_cases hmf : f = m
    · -- this flight is no longer pending
      subst hmf
      simp only [if_pos] at hm
      obtain ⟨old, -, rfl⟩ := map_eq_some_iff.mp hm
      exact absurd hp hdone
    simp only [if_neg hmf] at hm
    have hm' : s.flights[m]? = some flight := by simpa using hm
    obtain ⟨j, x, hj, hx⟩ := hs.pending m flight hm' hp
    refine ⟨j, x, hkept ?_ hj, hx⟩
    rintro rfl
    exact hmf (Option.some.inj hx)
  · exact fun l => ⟨fun hl => hkept (by simp) ((hs.noted l).mp hl), fun hl =>
      (hs.noted l).mpr (hold (by simp) hl)⟩
  · exact hs.nodup

end Led

section Sections
variable {n : Nat} {s : State} {h : List Lead} {gs : List Holding} {i : Nat} {g : Holding}

lemma stores_leading (s : State) (c : Nat) (key : Key) {slot : Slot}
    (hslot : slot.flight = some s.flights.length) :
    (s.leading c key slot).stores.length = s.stores.length ∧
      (c < s.stores.length → ∀ c' k', (s.leading c key slot).flightAt c' k' =
        if c' = c ∧ k' = key then some s.flights.length else s.flightAt c' k') := by
  have hchanges : s.Changes c
      (fun l => { l with store := { l.store with map := l.store.map.insert key slot } })
      (fun _ _ => True) fun _ _ => True := by
    exact fun _ _ => ⟨fun _ _ _ => .inr trivial, fun _ _ _ => .inr trivial,
      forall₂_same.mpr fun s _ => .refl s⟩
  refine ⟨length_onLedger hchanges, fun hc c' k' => ?_⟩
  refine (flightAt_onLedger hchanges (fun k old => if k = key then some s.flights.length
    else old) (fun store _ k => ?_) hc c' k').trans ?_
  · simp only [Store.flightAt, Table.lookup_insert_eq]
    split
    · exact hslot
    · rfl
  by_cases hc' : c' = c <;> simp [hc']

lemma Led.keep (hs : Led n s h gs) (hi : gs[i]? = some g) : Led n s h (gs.set i g) := by
  obtain ⟨hlt, rfl⟩ := List.getElem?_eq_some_iff.mp hi
  rw [set_getElem_self hlt]
  exact hs

lemma Led.look (hs : Led n s h gs) (hi : gs[i]? = some .nothing) (cfg : Settings) {c : Nat}
    (hc : c < n) (key : Key) (r : Request) (last : Bool) :
    Led n (look cfg s c key r last).1
      (Lead.noted i (.look c key r last) (look cfg s c key r last).2 h)
      (gs.set i (holds (.look c key r last) (look cfg s c key r last).2 .nothing)) := by
  rcases look_spec cfg s c key r last with ⟨a, hlook, hseen⟩ | ⟨hnone, slot, -, hslot, hlook⟩
  · rw [hlook]
    cases a with
    | lead f => exact hseen.elim
    | wait f =>
      refine hs.idle hi rfl rfl ?_
      rintro _ ⟨⟩
      -- the flight is one that a request holds
      obtain ⟨j, hj⟩ := hs.led c key f hseen
      exact hs.bound j _ f hj rfl
    | _ => exact hs.keep hi
  obtain ⟨hstores, hslots⟩ := stores_leading s c key hslot
  rw [hlook]
  exact hs.lead hi hc hnone hstores (hslots (hs.stores ▸ hc)) (leading_flights s c key slot)

/-- **Every section keeps what the requests hold in step with the slots, the flights and the
leads.** -/
theorem led_section (cfg : Nat → Settings) (hs : Led n s h gs) (hi : gs[i]? = some g) (o : Op)
    (hok : mayDo n o g) (e : Env) :
    Led n ((machine cfg).exec o e s).1 (Lead.noted i o ((machine cfg).exec o e s).2 h)
      (gs.set i (holds o ((machine cfg).exec o e s).2 g)) := by
  have hs' : Led n (s.advance e) h gs := hs.of_same rfl (fun _ _ => rfl) rfl
  cases o with
  | look c key r last =>
    obtain ⟨rfl, hc⟩ := hok
    exact hs'.look hi (cfg c) hc key r last
  | wait f =>
    obtain rfl := hok
    have hstate : ((machine cfg).exec (.wait f) e s).1 = s.advance e := by
      simp only [machine, sectionAt]
      split <;> rfl
    rw [hstate]
    exact hs'.idle hi rfl rfl (by rintro _ ⟨⟩)
  | finish c key f entry mark =>
    obtain rfl := hok
    obtain ⟨hc, hf⟩ := hs'.slot i c key f hi
    have hchanges : (s.advance e).Changes c (fun l => finish (cfg c) l key f entry mark
        (s.advance e).now fun i => i = c || e.locked i) (fun _ _ => True) fun _ _ => True :=
      fun _ _ => changes_finish (cfg c) _ key f entry mark _ _ fun _ _ => trivial
    refine hs'.finish hi (length_onLedger hchanges) (fun c' k' => ?_) (onLedger_flights _ _ _)
    refine (flightAt_onLedger hchanges (fun k old => if k = key then none else old)
      (fun store hstore k => ?_) (hs'.stores ▸ hc) c' k').trans ?_
    · -- the slot has the flight that ends
      have hstore' : store.flightAt key = some f := by
        rwa [State.flightAt, State.store, hstore] at hf
      rw [flightAt_finish]
      simp [hstore']
    by_cases hc' : c' = c <;> simp [hc']
  | send f done =>
    obtain ⟨rfl, hdone⟩ := hok
    exact hs'.send hi hdone
  | failed c key =>
    have hchanges : (s.advance e).Changes c (fun l => markFailed l key (s.advance e).now)
        (fun _ _ => True) fun _ _ => True := fun _ _ => changes_markFailed _ key _
    exact (hs'.of_same (length_onLedger hchanges)
      (flightAt_onLedger_same hchanges fun _ _ => flightAt_markFailed _ key _)
      (onLedger_flights _ _ _)).keep hi
  | entry c key r resp body =>
    exact Led.keep (hs'.of_same rfl (fun _ _ => rfl) rfl) hi
  | _ => exact hs'.keep hi

lemma told_section (cfg : Nat → Settings) {o : Op} (hok : mayDo n o g) (e : Env) {f : Nat}
    {flight : Flight} (hf : s.flights[f]? = some flight) (hdone : flight.done ≠ .pending) :
    ∃ flight', ((machine cfg).exec o e s).1.flights[f]? = some flight' ∧
      flight'.done ≠ .pending := by
  cases o with
  | look c key r last =>
    have hlt : f < s.flights.length := lt_of_getElem? hf
    refine ⟨flight, ?_, hdone⟩
    rcases look_spec (cfg c) (s.advance e) c key r last with ⟨a, hlook, -⟩ | ⟨-, slot, -, -, hlook⟩
    · show (look (cfg c) (s.advance e) c key r last).1.flights[f]? = _
      rw [hlook]
      exact hf
    show (look (cfg c) (s.advance e) c key r last).1.flights[f]? = _
    rw [hlook, leading_flights]
    exact (getElem?_append_left hlt).trans hf
  | wait m =>
    refine ⟨flight, ?_, hdone⟩
    simp only [machine, sectionAt]
    split <;> exact hf
  | send m done =>
    show ∃ flight', (s.flights.modify m fun f => { f with done })[f]? = some flight' ∧ _
    rw [getElem?_modify, hf]
    by_cases hm : m = f
    · exact ⟨{ flight with done }, by simp [hm], hok.2⟩
    · exact ⟨flight, by simp [hm], hdone⟩
  | finish c key m entry mark | failed c key =>
    exact ⟨flight, (congrArg (·[f]?) (onLedger_flights _ _ _)).trans hf, hdone⟩
  | _ => exact ⟨flight, hf, hdone⟩

end Sections

structure Coalesced (cfg : Nat → Settings) (x : Configuration Op Ret State Work) (h : List Lead) :
    Prop where
  one : h.Pairwise fun l l' => ¬ (l.cache = l'.cache ∧ l.key = l'.key)
  slot : ∀ l ∈ h, ∃ slot, (x.state.store l.cache).map.lookup l.key = some slot ∧
    slot.flight = some l.flight
  /-- A pending flight has its lead, whose request tells those that wait whatever happens to it; or
the lead is finished, and they are told next. -/
  pending : ∀ (f : Nat) (flight : Flight), x.state.flights[f]? = some flight →
    flight.done = .pending →
    (∃ l ∈ h, l.flight = f ∧ ∃ t, x.threads[l.thread]? = some t ∧
      t.rest.Must fun o => ∃ done, o = .send f done ∧ done ≠ .pending) ∨
    ∃ t ∈ x.threads, ∃ done k, t.rest = .op (.send f done) k ∧ done ≠ .pending
  told : ∀ ev y, (accounted cfg).step ev x = some y → ∀ (f : Nat) (flight : Flight),
    x.state.flights[f]? = some flight → flight.done ≠ .pending →
    ∃ flight', y.state.flights[f]? = some flight' ∧ flight'.done ≠ .pending
  /-- A request that waits does so for a flight, and goes on with what it is told of. -/
  waits : ∀ (i : Nat) (w : Work) (f : Nat) (k : Ret (.wait f) → Prog Op Ret Unit),
    x.threads[i]? = some ⟨w, .op (.wait f) k⟩ → ∃ flight, x.state.flights[f]? = some flight ∧
      (flight.done ≠ .pending → ∀ e, ∃ y time, (accounted cfg).step (.step i e) x = some y ∧
        y.threads[i]? = some ⟨w, k (some flight.done, time)⟩)

lemma led_initial (caches limit : Nat) : Led caches (State.initial caches limit) [] [] where
  stores := length_replicate
  slot := by simp
  led c k f hf := by
    rw [State.flightAt, State.store, State.initial, getElem?_replicate] at hf
    split at hf <;> cases hf
  bound := by simp
  waits := by simp
  one := by simp
  pending := by simp [State.initial]
  noted := by simp
  nodup := nodup_nil

lemma reach_led {cfg : Nat → Settings} {caches limit : Nat} {x : Configuration Op Ret State Work}
    {h : List Lead} {cond : Configuration Op Ret State Work → Event Env Work → Prop}
    (hx : (accounted cfg).ReachWith cond (leads cfg) ⟨.initial caches limit, []⟩ [] x h) :
    ∃ gs, Led caches x.state h gs ∧
      System.Follows (mayDo caches) holds (· = .nothing) x gs := by
  refine hx.ghost (I := fun s h gs => Led caches s h gs) (led_initial caches limit) ?_ ?_
  · rintro x h gs (call | ⟨c, elapsed⟩) s' hs - hbegins
    · simp only [accounted, system] at hbegins
      split at hbegins
      next hc =>
        cases hbegins
        exact ⟨.nothing, ends_program cfg (hs.stores ▸ hc), hs.append_nothing⟩
      · cases hbegins
    cases hbegins
    refine ⟨.nothing, rfl, Led.append_nothing ?_⟩
    have hchanges : State.Changes { x.state with now := x.state.now + elapsed } c
        (fun l => l.purge (x.state.now + elapsed)) (fun _ _ => True) fun _ _ => True :=
      fun _ _ => (Ledger.within_purge _ _).changes
    exact hs.of_same (length_onLedger hchanges)
      (flightAt_onLedger_same hchanges fun _ _ k => (Ledger.within_purge _ _).store.flight k)
      (onLedger_flights _ _ _)
  rintro x h gs i e w o k g y hs - - hi hg hok rfl
  have hnote : leads cfg x (.step i e) ⟨((accounted cfg).exec o e x.state).1,
      x.threads.set i ⟨w, k ((accounted cfg).exec o e x.state).2⟩⟩ h =
      Lead.noted i o ((machine cfg).exec o e x.state).2 h := by
    simp only [leads, hi]
  rw [hnote]
  exact led_section cfg hs hg o hok e

/-- **Coalescing has one leader**, in every state of every run of requests and purges. -/
theorem coalesced (cfg : Nat → Settings) (caches limit : Nat) (x : Configuration Op Ret State Work)
    (h : List Lead) (hx : (accounted cfg).ReachWith (fun _ _ => True) (leads cfg)
      ⟨.initial caches limit, []⟩ [] x h) : Coalesced cfg x h := by
  obtain ⟨gs, hs, hfollows⟩ := reach_led hx
  -- the request that holds something, and what its program does with it
  have hthread {i : Nat} {g : Holding} (hg : gs[i]? = some g) :
      ∃ t, x.threads[i]? = some t ∧ Ends caches t.rest g := by
    have hlt : i < x.threads.length := hfollows.length ▸ (List.getElem?_eq_some_iff.mp hg).1
    have ht : x.threads[i]? = some x.threads[i] := getElem?_eq_getElem hlt
    exact ⟨_, ht, hfollows.safe i _ g ht hg⟩
  constructor
  · refine hs.nodup.imp_of_mem fun {l l'} hl hl' hne hsame => hne ?_
    have hslot := (hs.slot _ _ _ _ ((hs.noted l).mp hl)).2
    have hslot' := (hs.slot _ _ _ _ ((hs.noted l').mp hl')).2
    rw [hsame.1, hsame.2, hslot'] at hslot
    have hflight : l.flight = l'.flight := (Option.some.inj hslot).symm
    have hthread := hs.one _ _ _ _ l.flight ((hs.noted l).mp hl) ((hs.noted l').mp hl') rfl
      (congrArg some hflight.symm)
    cases l
    cases l'
    simp_all
  · intro l hl
    obtain ⟨-, hslot⟩ := hs.slot _ _ _ _ ((hs.noted l).mp hl)
    rwa [State.flightAt, Store.flightAt, bind_eq_some_iff] at hslot
  · intro f flight hf hp
    obtain ⟨i, g, hg, hgf⟩ := hs.pending f flight hf hp
    obtain ⟨t, ht, hends⟩ := hthread hg
    cases g with
    | nothing | waits m => cases hgf
    | lead c k m =>
      cases hgf
      exact .inl ⟨⟨i, c, k, f⟩, (hs.noted _).mpr hg, rfl, t, ht, hends.must_of_lead⟩
    | tells m =>
      cases hgf
      exact .inr ⟨t, mem_of_getElem? ht, hends.next_of_tells⟩
  · intro ev y hev f flight hf hdone
    cases ev with
    | start w =>
      obtain ⟨s', hs', rfl⟩ := System.step_start.mp hev
      refine ⟨flight, ?_, hdone⟩
      rcases w with call | ⟨c, elapsed⟩
      · simp only [accounted, system] at hs'
        split at hs'
        · cases hs'
          exact hf
        · cases hs'
      cases hs'
      exact (congrArg (·[f]?) (onLedger_flights _ _ _)).trans hf
    | step i e =>
      obtain ⟨w, o, k, hi, rfl⟩ := System.step_step.mp hev
      obtain ⟨g, -, hsafe⟩ := hfollows.exists_ghost hi
      exact told_section cfg hsafe.1 e hf hdone
  intro i w f k hi
  obtain ⟨g, hg, hsafe⟩ := hfollows.exists_ghost hi
  obtain rfl : g = .waits f := hsafe.1
  have hlt := hs.waits i f hg
  refine ⟨_, getElem?_eq_getElem hlt, fun hdone e => ?_⟩
  refine ⟨_, (x.state.advance e).now, System.step_step.mpr ⟨w, _, k, hi, rfl⟩, ?_⟩
  have hheard : ((accounted cfg).exec (.wait f) e x.state).2 =
      (some x.state.flights[f].done, (x.state.advance e).now) := by
    have hf : (x.state.advance e).flights[f]? = some x.state.flights[f] := getElem?_eq_getElem hlt
    simp only [accounted, machine, sectionAt]
    split
    next hpending =>
      rw [hf] at hpending
      rw [Option.some.inj hpending] at hdone
      exact absurd rfl hdone
    next flight hflight =>
      rw [hf] at hflight
      rw [Option.some.inj hflight]
    next hnone =>
      rw [hf] at hnone
      cases hnone
  rw [hheard]
  exact List.getElem?_set_self (List.getElem?_eq_some_iff.mp hi).1

def oneWaits : List (Event Env Work) :=
  [.start (.request ⟨0, plainGet⟩), .start (.request ⟨0, plainGet⟩), .step 0 calm, .step 1 calm]

theorem coalesced_of_oneWaits : ∃ x h, (accounted fun _ => shortLived).ReachWith (fun _ _ => True)
    (leads fun _ => shortLived) ⟨.initial 1 0, []⟩ [] x h ∧
      h.map Lead.flight = [0] ∧ x.state.flights.length = 1 ∧
        Coalesced (fun _ => shortLived) x h := by
  have htrace :
    (((accounted fun _ => shortLived).trace (fun _ _ => true) (leads fun _ => shortLived)
      oneWaits ⟨.initial 1 0, []⟩ []).any fun y =>
        decide (y.2.map Lead.flight = [0] ∧ y.1.state.flights.length = 1)) = true := by
    decide +kernel
  obtain ⟨⟨x, h⟩, hx, hp⟩ := (any_eq_true _ _).mp htrace
  have hreach := System.reachWith_of_trace (fun _ _ _ _ => trivial) .refl hx
  obtain ⟨hlead, hflight⟩ := of_decide_eq_true hp
  exact ⟨x, h, hreach, hlead, hflight, coalesced _ 1 0 x h hreach⟩

end Rproxy.Cache
