import Rproxy.L7.Cache.Key
import Rproxy.L7.Cache.Requests

/-!
# Who gets whose answer

An entry reaches a request from the store on the request side, from the flight it waited for, or
from the store on the response side.
-/

namespace Rproxy.Cache
open List Option
variable {done : Done} {e : Entry} {request : HeaderMap} {k : Key} {l : Ledger} {mark : Mark}
  {c f : Nat} {outcome : Outcome} {slot : Slot} {s' : State}

/-! ## What the sections do to the stores -/

open Ledger Table

def Done.entry : Done → Option Entry
  | fresh e => some e
  | stale e => some e
  | error e => some e
  | pending => none
  | uncacheable => none
  | abandoned => none

structure Ledger.Changes (l l' : Ledger) (new : Key → Entry → Prop) (led : Key → Nat → Prop) :
    Prop where
  entry : ∀ k e, l'.store.entryAt k = some e → l.store.entryAt k = some e ∨ new k e
  flight : ∀ k f, l'.store.flightAt k = some f → l.store.flightAt k = some f ∨ led k f
  others : List.Forall₂ Store.Within l.others l'.others

namespace Ledger
variable {new : Key → Entry → Prop} {led : Key → Nat → Prop}

lemma Within.changes {l' : Ledger} (h : l.Within l') : l.Changes l' new led := by
  refine ⟨fun k e he => .inl (h.store.entry k e he), fun k f hf => .inl ?_, h.others⟩
  rw [← h.store.flight k]
  exact hf

lemma Changes.trans {l' l'' : Ledger} (h : l.Changes l' new led) (h' : l'.Changes l'' new led) :
    l.Changes l'' new led := by
  refine ⟨fun k e he => ?_, fun k f hf => ?_, forall₂_trans h.others h'.others⟩
  · rcases h'.entry k e he with he | he
    · exact h.entry k e he
    · exact .inr he
  rcases h'.flight k f hf with hf | hf
  · exact h.flight k f hf
  · exact .inr hf

lemma changes_place (l : Ledger) (key : Key) (old : Nat) (entry : Entry)
    (hnew : new key entry) : l.Changes (l.place key old entry) new led := by
  refine ⟨fun k e he => ?_, fun k f hf => ?_, forall₂_same.mpr fun s _ => .refl s⟩
  · rw [entryAt_place] at he
    split at he
    next hk =>
      cases he
      rw [hk]
      exact .inr hnew
    · exact .inl he
  · rw [flightAt_place] at hf
    exact .inl hf

lemma changes_insert (l : Ledger) (cfg : Settings) (key : Key) (entry : Entry) (now : Nat)
    (locked : Nat → Bool) (hnew : new key entry) :
    l.Changes (l.insert cfg key entry now locked) new led := by
  obtain ⟨l', hl', h | ⟨old, h⟩⟩ := insert_within l cfg key entry now locked
  · rw [h]
    exact hl'.changes
  rw [h]
  exact hl'.changes.trans (changes_place l' key old entry hnew)

lemma changes_setSlot {l : Ledger} {key : Key} {slot slot' : Slot}
    (hslot : l.store.map.lookup key = some slot) (hentry : slot'.entry = slot.entry)
    (hflight : slot'.flight = slot.flight ∨ slot'.flight = none) :
    l.Changes { l with store := { l.store with map := l.store.map.insert key slot' } } new led := by
  refine ⟨fun k e he => .inl ?_, fun k f hf => .inl ?_, forall₂_same.mpr fun s _ => .refl s⟩
  · simp only [Store.entryAt, lookup_insert_eq] at he ⊢
    split at he
    next hk =>
      subst hk
      rw [hslot]
      exact hentry.symm.trans he
    · exact he
  simp only [Store.flightAt, lookup_insert_eq] at hf ⊢
  split at hf
  next hk =>
    subst hk
    rw [hslot]
    rcases hflight with h | h
    · exact h.symm.trans hf
    rw [bind_some, h] at hf
    cases hf
  · exact hf

end Ledger

section Sections
variable {new : Key → Entry → Prop} {led : Key → Nat → Prop}

lemma land_eq {key : Key} (hslot : l.store.map.lookup key = some slot) (flight : Nat)
    (failed : Bool) (now : Nat) : ∃ slot' : Slot, slot'.entry = slot.entry ∧
      slot'.flight = (if slot.flight = some flight then none else slot.flight) ∧
      land l key flight failed now = { l with store := { l.store with
        map := if slot'.flight.isNone && slot'.entry.isNone then l.store.map.erase key
          else l.store.map.insert key slot' } } := by
  simp only [land, hslot]
  refine ⟨_, ?_, ?_, rfl⟩
  · split
    · split <;> rfl
    · split <;> split <;> rfl
  split
  · split <;> simp_all
  · split <;> split <;> simp_all

lemma changes_land (l : Ledger) (key : Key) (flight : Nat) (failed : Bool) (now : Nat) :
    l.Changes (land l key flight failed now) new led := by
  cases hslot : l.store.map.lookup key with
  | none =>
    simp only [land, hslot]
    exact (Ledger.Within.refl l).changes
  | some slot =>
    obtain ⟨slot', hentry, hflight, hland⟩ := land_eq hslot flight failed now
    rw [hland]
    split
    · -- the slot has neither an entry nor a flight left
      refine ⟨fun k e he => .inl ?_, fun k f hf => .inl ?_, forall₂_same.mpr fun s _ => .refl s⟩
      · simp only [Store.entryAt, lookup_erase_eq] at he ⊢
        split at he
        · cases he
        · exact he
      simp only [Store.flightAt, lookup_erase_eq] at hf ⊢
      split at hf
      · cases hf
      · exact hf
    refine changes_setSlot hslot hentry ?_
    rw [hflight]
    split
    · exact .inr rfl
    · exact .inl rfl

lemma changes_leave (cfg : Settings) (l : Ledger) (key : Key) (mark : Mark) (now : Nat)
    (locked : Nat → Bool) : l.Changes (leave cfg l key mark now locked) new led := by
  cases mark with
  | strike varies => exact (within_strike l key varies now _ _ locked).changes
  | reset => exact (within_unpass l key).changes
  | nothing | failed => exact (Ledger.Within.refl l).changes

lemma changes_finish (cfg : Settings) (l : Ledger) (key : Key) (flight : Nat)
    (entry : Option Entry) (mark : Mark) (now : Nat) (locked : Nat → Bool)
    (hnew : ∀ e, entry = some e → new key e) :
    l.Changes (finish cfg l key flight entry mark now locked) new led := by
  have hput : l.Changes (putEntry cfg l key entry now locked) new led := by
    cases entry with
    | none => exact (Ledger.Within.refl l).changes
    | some e =>
      exact (changes_insert l cfg key e now locked (hnew e rfl)).trans
        (within_unpass _ key).changes
  exact hput.trans ((changes_leave cfg _ key mark now locked).trans
    (changes_land _ key flight _ now))

lemma changes_markFailed (l : Ledger) (key : Key) (now : Nat) :
    l.Changes (markFailed l key now) new led := by
  unfold markFailed
  split
  · exact (Ledger.Within.refl l).changes
  next slot hslot => exact changes_setSlot hslot rfl (.inl rfl)

end Sections

/-! ## The invariant -/

def Made (cfg : Nat → Settings) (s : State) (c : Nat) (k : Key) (e : Entry) : Prop :=
  ∃ r, (c, e, r) ∈ s.made ∧ key (cfg c) r = k ∧ eligible (cfg c) r = true ∧
    e.varies = variesOf e.headers r.headers

def IsFlight (s : State) (c : Nat) (k : Key) (f : Nat) : Prop :=
  ∃ flight, s.flights[f]? = some flight ∧ flight.cache = c ∧ flight.key = k

structure Kept (cfg : Nat → Settings) (s : State) : Prop where
  entry : ∀ c store k e, s.stores[c]? = some store → store.entryAt k = some e → Made cfg s c k e
  flight : ∀ c store k f, s.stores[c]? = some store → store.flightAt k = some f → IsFlight s c k f
  told : ∀ flight ∈ s.flights, ∀ e, flight.done.entry = some e →
    Made cfg s flight.cache flight.key e

structure Grows (s s' : State) : Prop where
  made : ∀ m ∈ s.made, m ∈ s'.made
  flight : ∀ c k f, IsFlight s c k f → IsFlight s' c k f

variable {s : State}

lemma Grows.of_eq (hmade : s'.made = s.made) (hflights : s'.flights = s.flights) :
    Grows s s' := by
  refine ⟨fun m hm => hmade ▸ hm, fun c k f hf => ?_⟩
  rw [IsFlight, hflights]
  exact hf

variable {cfg : Nat → Settings}

lemma Made.mono (h : Grows s s') (he : Made cfg s c k e) : Made cfg s' c k e := by
  obtain ⟨r, hr, hrest⟩ := he
  exact ⟨r, h.made _ hr, hrest⟩

lemma onLedger_flights (s : State) (c : Nat) (f : Ledger → Ledger) :
    (s.onLedger c f).flights = s.flights := by
  unfold State.onLedger
  split <;> rfl

lemma onLedger_made (s : State) (c : Nat) (f : Ledger → Ledger) :
    (s.onLedger c f).made = s.made := by
  unfold State.onLedger
  split <;> rfl

def State.Changes (s : State) (c : Nat) (f : Ledger → Ledger) (new : Key → Entry → Prop)
    (led : Key → Nat → Prop) : Prop :=
  ∀ store, s.stores[c]? = some store →
    Ledger.Changes ⟨store, s.budget, s.stores⟩ (f ⟨store, s.budget, s.stores⟩) new led

variable {new : Key → Entry → Prop}

lemma stores_onLedger {f : Ledger → Ledger}
    {led : Key → Nat → Prop} (hf : s.Changes c f new led) {c' : Nat} {store' : Store}
    (h : (s.onLedger c f).stores[c']? = some store') :
    ∃ store, s.stores[c']? = some store ∧
      (∀ k e, store'.entryAt k = some e → store.entryAt k = some e ∨ c' = c ∧ new k e) ∧
      ∀ k n, store'.flightAt k = some n → store.flightAt k = some n ∨ c' = c ∧ led k n := by
  unfold State.onLedger at h
  split at h
  · exact ⟨store', h, fun _ _ he => .inl he, fun _ _ hn => .inl hn⟩
  rename_i store hstore
  have hchanges := hf store hstore
  rw [getElem?_set] at h
  split at h
  next hc =>
    subst hc
    split at h
    · cases h
      exact ⟨store, hstore, fun k e he => (hchanges.entry k e he).imp_right fun h => ⟨rfl, h⟩,
        fun k n hn => (hchanges.flight k n hn).imp_right fun h => ⟨rfl, h⟩⟩
    · cases h
  -- another store, of which only some may have gone
  obtain ⟨hlt, rfl⟩ := List.getElem?_eq_some_iff.mp h
  have hlt' : c' < s.stores.length := hchanges.others.length_eq ▸ hlt
  have hwithin := hchanges.others.get hlt' hlt
  refine ⟨s.stores[c'], getElem?_eq_getElem hlt', fun k e he => .inl ?_, fun k n hn => .inl ?_⟩
  · exact hwithin.entry k e he
  · exact (hwithin.flight k).symm.trans hn

lemma Kept.onLedger (h : Kept cfg s) {f : Ledger → Ledger}
    (hf : s.Changes c f new fun _ _ => False)
    (hnew : ∀ k e, new k e → Made cfg s c k e) : Kept cfg (s.onLedger c f) := by
  have hgrows : Grows s (s.onLedger c f) := .of_eq (onLedger_made s c f) (onLedger_flights s c f)
  constructor
  · intro c' store' k e hstore' he
    obtain ⟨store, hstore, hentry, -⟩ := stores_onLedger hf hstore'
    rcases hentry k e he with he | ⟨rfl, he⟩
    · exact (h.entry c' store k e hstore he).mono hgrows
    · exact (hnew k e he).mono hgrows
  · intro c' store' k n hstore' hn
    obtain ⟨store, hstore, -, hflight⟩ := stores_onLedger hf hstore'
    rcases hflight k n hn with hn | ⟨-, hn⟩
    · exact hgrows.flight _ _ _ (h.flight c' store k n hstore hn)
    · exact hn.elim
  intro flight hflight e he
  rw [onLedger_flights] at hflight
  exact (h.told flight hflight e he).mono hgrows

/-- The state once a request leads a new flight for the key, with the slot it then has. -/
def State.leading (s : State) (c : Nat) (k : Key) (slot : Slot) : State :=
  let lead := s.onLedger c fun l =>
    { l with store := { l.store with map := l.store.map.insert k slot } }
  { lead with flights := lead.flights ++ [⟨c, k, .pending⟩] }

lemma leading_flights (s : State) (c : Nat) (k : Key) (slot : Slot) :
    (s.leading c k slot).flights = s.flights ++ [⟨c, k, .pending⟩] :=
  congrArg (· ++ _) (onLedger_flights s c _)

lemma grows_leading (s : State) (c : Nat) (k : Key) (slot : Slot) :
    Grows s (s.leading c k slot) := by
  refine ⟨fun m hm => ?_, fun c' k' n hn => ?_⟩
  · exact (onLedger_made s c _).symm ▸ hm
  obtain ⟨flight, hflight, hrest⟩ := hn
  refine ⟨flight, ?_, hrest⟩
  have hlt := lt_of_getElem? hflight
  rw [leading_flights]
  exact (getElem?_append_left hlt).trans hflight

lemma isFlight_leading (s : State) (c : Nat) (k : Key) (slot : Slot) :
    IsFlight (s.leading c k slot) c k s.flights.length := by
  refine ⟨⟨c, k, .pending⟩, ?_, rfl, rfl⟩
  rw [leading_flights]
  exact getElem?_concat_length

lemma Kept.leading (h : Kept cfg s) (hentry : slot.entry = (s.store c).entryAt k)
    (hflight : slot.flight = some s.flights.length) : Kept cfg (s.leading c k slot) := by
  have hgrows := grows_leading s c k slot
  have hchanges : s.Changes c
      (fun l => { l with store := { l.store with map := l.store.map.insert k slot } })
      (fun _ _ => False) (fun k' n => k' = k ∧ n = s.flights.length) := by
    intro store hstore
    rw [State.store, hstore] at hentry
    refine ⟨fun k' e he => .inl ?_, fun k' n hn => ?_, forall₂_same.mpr fun s _ => .refl s⟩
    · simp only [Store.entryAt, lookup_insert_eq] at he ⊢
      split at he
      next hk =>
        subst hk
        exact hentry.symm.trans he
      · exact he
    simp only [Store.flightAt, lookup_insert_eq] at hn ⊢
    split at hn
    next hk => exact .inr ⟨hk, Option.some.inj (hn.symm.trans hflight)⟩
    · exact .inl hn
  refine ⟨?_, ?_, ?_⟩
  · intro c' store' k' e hstore' he
    obtain ⟨store, hstore, hentry, -⟩ := stores_onLedger hchanges hstore'
    rcases hentry k' e he with he | ⟨-, he⟩
    · exact (h.entry c' store k' e hstore he).mono hgrows
    · exact he.elim
  · intro c' store' k' n hstore' hn
    obtain ⟨store, hstore, -, hflight⟩ := stores_onLedger hchanges hstore'
    rcases hflight k' n hn with hn | ⟨rfl, rfl, rfl⟩
    · exact hgrows.flight _ _ _ (h.flight c' store k' n hstore hn)
    · exact isFlight_leading s c' k' slot
  intro flight hflight e he
  rw [leading_flights] at hflight
  rcases mem_append.mp hflight with hflight | hflight
  · exact (h.told flight hflight e he).mono hgrows
  rw [mem_singleton.mp hflight] at he
  cases he

/-! ## What a request knows -/

/-- What a request has learned: the entries it has seen, those that fit it, what the cache decided
for it, and the flight it waits for or leads. -/
structure Knows where
  entries : List Entry
  fitting : List Entry
  decided : List (Entry × Outcome × Nat)
  flight : Option Nat

def learn : (o : Op) → Ret o → Knows → Knows
  | .look _ _ _ _, .answer e outcome time, g =>
    { g with
      entries := e :: g.entries
      fitting := e :: g.fitting
      decided := (e, outcome, time) :: g.decided }
  | .look _ _ _ _, .wait f, g => { g with flight := some f }
  | .look _ _ _ _, .lead f, g => { g with flight := some f }
  | .wait _, (some done, _), g => { g with entries := done.entry.toList ++ g.entries }
  | .stale _ _ _, some (e, time), g =>
    { g with
      entries := e :: g.entries
      fitting := e :: g.fitting
      decided := (e, .stale, time) :: g.decided }
  | .entry _ _ _ _ _, e, g => { g with entries := e :: g.entries, fitting := e :: g.fitting }
  | _, _, g => g

def Allowed (cfg : Nat → Settings) (call : Call) : Op → Knows → Prop
  | .look c k r _, _ => c = call.cache ∧ k = key (cfg c) r ∧ r = call.request
  | .wait f, g => g.flight = some f
  | .stale c k request, _ =>
    c = call.cache ∧ k = key (cfg c) call.request ∧ request = call.request.headers
  | .entry c k r _ _, _ =>
    c = call.cache ∧ k = key (cfg c) r ∧ r = call.request ∧ eligible (cfg c) r = true
  | .finish c k _ entry _, g =>
    c = call.cache ∧ k = key (cfg c) call.request ∧ ∀ e, entry = some e → e ∈ g.entries
  | .send f done, g => g.flight = some f ∧ ∀ e, done.entry = some e → e ∈ g.entries
  | .answer e outcome time way, g =>
    eligible (cfg call.cache) call.request = true ∧ e ∈ g.entries ∧
      (e ∈ g.fitting ∨ e.fits call.request.headers = true) ∧
      (way = .store ∨ way = .response → (e, outcome, time) ∈ g.decided) ∧
      (way = .own → outcome = .miss)
  | .backend, _ => True
  | .collect _, _ => True
  | .failed _ _, _ => True

structure Knows.Valid (cfg : Nat → Settings) (s : State) (call : Call) (g : Knows) : Prop where
  entries : ∀ e ∈ g.entries, Made cfg s call.cache (key (cfg call.cache) call.request) e
  fitting : ∀ e ∈ g.fitting, e.fits call.request.headers = true
  decided : ∀ e outcome time, (e, outcome, time) ∈ g.decided →
    (outcome = .hit → time < e.freshUntil) ∧ (outcome = .stale → time < e.staleUntil)
  flight : ∀ f, g.flight = some f → IsFlight s call.cache (key (cfg call.cache) call.request) f

section Steps
variable {cfg : Nat → Settings} {s : State} {call : Call} {g : Knows}

lemma Knows.Valid.mono (h : g.Valid cfg s call) (hs : Grows s s') : g.Valid cfg s' call :=
  ⟨fun e he => (h.entries e he).mono hs, h.fitting, h.decided,
    fun f hf => hs.flight _ _ _ (h.flight f hf)⟩

lemma Knows.Valid.decide (h : g.Valid cfg s call) {time : Nat}
    (hmade : Made cfg s call.cache (key (cfg call.cache) call.request) e)
    (hfits : e.fits call.request.headers)
    (htime : (outcome = .hit → time < e.freshUntil) ∧ (outcome = .stale → time < e.staleUntil)) :
    Knows.Valid cfg s call { g with
      entries := e :: g.entries
      fitting := e :: g.fitting
      decided := (e, outcome, time) :: g.decided } := by
  refine ⟨?_, ?_, ?_, h.flight⟩
  · intro e' he'
    rcases mem_cons.mp he' with rfl | he'
    · exact hmade
    · exact h.entries e' he'
  · intro e' he'
    rcases mem_cons.mp he' with rfl | he'
    · exact hfits
    · exact h.fitting e' he'
  intro e' outcome' time' he'
  rcases mem_cons.mp he' with heq | he'
  · cases heq
    exact htime
  · exact h.decided e' outcome' time' he'

lemma Knows.Valid.joins (h : g.Valid cfg s call)
    (hf : IsFlight s call.cache (key (cfg call.cache) call.request) f) :
    Knows.Valid cfg s call { g with flight := some f } :=
  ⟨h.entries, h.fitting, h.decided, fun _ hf' => Option.some.inj hf' ▸ hf⟩

lemma answerNow_eq {c : Settings} {now : Nat}
    (h : answerNow c slot request now = some (e, outcome)) :
    slot.entry = some e ∧ e.fits request ∧
      (outcome = .hit → now < e.freshUntil) ∧ (outcome = .stale → now < e.staleUntil) := by
  unfold answerNow at h
  split at h
  · cases h
  rename_i e' he'
  split at h
  · cases h
  rename_i hfits
  split at h
  next hfresh =>
    cases h
    exact ⟨he', by simpa using hfits, fun _ => hfresh, nofun⟩
  split at h
  · cases h
  split at h
  next hstale =>
    cases h
    exact ⟨he', by simpa using hfits, nofun, fun _ => hstale.1⟩
  · cases h

lemma entryAt_store (hs : Kept cfg s) (h : (s.store c).entryAt k = some e) :
    Made cfg s c k e := by
  unfold State.store at h
  cases hstore : s.stores[c]? with
  | none =>
    rw [hstore] at h
    cases h
  | some store =>
    rw [hstore] at h
    exact hs.entry c store k e hstore h

lemma flightAt_store (hs : Kept cfg s) (h : (s.store c).flightAt k = some f) :
    IsFlight s c k f := by
  unfold State.store at h
  cases hstore : s.stores[c]? with
  | none =>
    rw [hstore] at h
    cases h
  | some store =>
    rw [hstore] at h
    exact hs.flight c store k f hstore h

lemma slot_getD {store : Store} (h : slot = (store.map.lookup k).getD {}) :
    slot.entry = store.entryAt k ∧ slot.flight = store.flightAt k := by
  subst h
  unfold Store.entryAt Store.flightAt
  cases store.map.lookup k <;> exact ⟨rfl, rfl⟩

/-- What a look that changes nothing tells of the key. -/
def Seen (s : State) (c : Nat) (k : Key) (r : Request) : Looked → Prop
  | .answer e outcome time => (s.store c).entryAt k = some e ∧ e.fits r.headers = true ∧
      (outcome = .hit → time < e.freshUntil) ∧ (outcome = .stale → time < e.staleUntil)
  | .alone => True
  | .wait f => (s.store c).flightAt k = some f
  | .lead _ => False

lemma look_spec (cfg : Settings) (s : State) (c : Nat) (k : Key) (r : Request) (last : Bool) :
    (∃ a, look cfg s c k r last = (s, a) ∧ Seen s c k r a) ∨
    (s.store c).flightAt k = none ∧ ∃ slot, slot.entry = (s.store c).entryAt k ∧
      slot.flight = some s.flights.length ∧
      look cfg s c k r last = (s.leading c k slot, .lead s.flights.length) := by
  generalize hslot : ((s.store c).map.lookup k).getD {} = slot
  obtain ⟨hentry, hflight⟩ := slot_getD hslot.symm
  simp only [look, hslot]
  split
  next hanswer =>
    obtain ⟨he, hrest⟩ := answerNow_eq hanswer
    exact .inl ⟨_, rfl, hentry ▸ he, hrest⟩
  split
  · exact .inl ⟨_, rfl, trivial⟩
  split
  · exact .inl ⟨_, rfl, trivial⟩
  split
  next hf => exact .inl ⟨_, rfl, hflight.symm.trans hf⟩
  next hf =>
    exact .inr ⟨hflight ▸ hf, { slot with flight := some s.flights.length }, hentry, rfl, rfl⟩

lemma step_look (hs : Kept cfg s) (hg : g.Valid cfg s call) (last : Bool) :
    let k := key (cfg call.cache) call.request
    let out := look (cfg call.cache) s call.cache k call.request last
    Kept cfg out.1 ∧ Grows s out.1 ∧
      (learn (.look call.cache k call.request last) out.2 g).Valid cfg out.1 call := by
  intro k out
  have hsame : Grows s s := .of_eq rfl rfl
  rcases look_spec (cfg call.cache) s call.cache k call.request last with
    ⟨a, hlook, hseen⟩ | ⟨-, slot, hentry, hflight, hlook⟩
  · rw [show out = (s, a) from hlook]
    cases a with
    | answer e outcome time =>
      exact ⟨hs, hsame, hg.decide (entryAt_store hs hseen.1) hseen.2.1 hseen.2.2⟩
    | alone => exact ⟨hs, hsame, hg⟩
    | wait f => exact ⟨hs, hsame, hg.joins (flightAt_store hs hseen)⟩
    | lead f => exact hseen.elim
  rw [show out = _ from hlook]
  have hgrows := grows_leading s call.cache k slot
  exact ⟨hs.leading hentry hflight, hgrows,
    (hg.mono hgrows).joins (isFlight_leading s call.cache k slot)⟩

lemma kept_advance (hs : Kept cfg s) (e : Env) : Kept cfg (s.advance e) :=
  ⟨hs.entry, hs.flight, hs.told⟩

lemma grows_onLedger (s : State) (c : Nat) (f : Ledger → Ledger) : Grows s (s.onLedger c f) :=
  .of_eq (onLedger_made s c f) (onLedger_flights s c f)

lemma grows_tell (s : State) (f : Nat) (done : Done) : Grows s (s.tell f done) := by
  refine ⟨fun m hm => hm, fun c k n hn => ?_⟩
  obtain ⟨flight, hflight, hcache, hkey⟩ := hn
  refine ⟨if f = n then { flight with done } else flight, ?_, ?_, ?_⟩
  · simp only [State.tell, getElem?_modify, hflight]
    split <;> simp_all
  · split <;> exact hcache
  · split <;> exact hkey

lemma kept_tell (hs : Kept cfg s) (hf : IsFlight s c k f)
    (hdone : ∀ e, done.entry = some e → Made cfg s c k e) :
    Kept cfg (s.tell f done) := by
  have hgrows := grows_tell s f done
  refine ⟨fun c store k e hstore he => (hs.entry c store k e hstore he).mono hgrows,
    fun c store k n hstore hn => hgrows.flight _ _ _ (hs.flight c store k n hstore hn), ?_⟩
  intro flight hflight e he
  obtain ⟨n, hn⟩ := mem_iff_getElem?.mp hflight
  simp only [State.tell, getElem?_modify] at hn
  obtain ⟨old, hold, rfl⟩ := map_eq_some_iff.mp hn
  split at he
  next heq =>
    obtain ⟨lead, hlead, hcache, hkey⟩ := hf
    rw [← heq, hlead] at hold
    cases hold
    simp only [heq, if_true] at *
    rw [hcache, hkey]
    exact (hdone e he).mono hgrows
  next hne =>
    have hmem := mem_of_getElem? hold
    simp only [hne, if_false]
    exact (hs.told old hmem e he).mono hgrows

lemma step_entry (hs : Kept cfg s) (hg : g.Valid cfg s call) {r : Request} (resp : Response)
    (body : List UInt8) (e : Env) (hc : c = call.cache) (hk : k = key (cfg c) r)
    (hr : r = call.request) (heligible : eligible (cfg c) r) :
    let out := sectionAt cfg e s (.entry c k r resp body)
    Kept cfg out.1 ∧ Grows s out.1 ∧
      (learn (.entry c k r resp body) out.2 g).Valid cfg out.1 call := by
  intro out
  have hgrows : Grows s out.1 := ⟨fun m hm => mem_append_left _ hm, fun _ _ _ hf => hf⟩
  have hvaries : out.2.varies = variesOf out.2.headers r.headers := rfl
  have hmade : Made cfg out.1 c k out.2 :=
    ⟨r, mem_append_right _ (mem_singleton.mpr rfl), hk.symm, heligible, hvaries⟩
  have hfits : out.2.fits r.headers := by
    rw [Entry.fits, sameValues, List.all_eq_true]
    intro v hv
    obtain ⟨name, -, rfl⟩ := mem_map.mp hv
    simp
  subst hc hr hk
  refine ⟨⟨?_, ?_, ?_⟩, hgrows, ?_⟩
  · exact fun c' store k' e' hstore he' => (hs.entry c' store k' e' hstore he').mono hgrows
  · exact fun c' store k' n hstore hn => hgrows.flight _ _ _ (hs.flight c' store k' n hstore hn)
  · exact fun flight hflight e' he' => (hs.told flight hflight e' he').mono hgrows
  have hg' := hg.mono hgrows
  refine ⟨?_, ?_, hg'.decided, hg'.flight⟩
  · intro e' he'
    rcases mem_cons.mp he' with rfl | he'
    · exact hmade
    · exact hg'.entries e' he'
  intro e' he'
  rcases mem_cons.mp he' with rfl | he'
  · exact hfits
  · exact hg'.fitting e' he'

lemma step_wait (hs : Kept cfg s) (hg : g.Valid cfg s call) (e : Env) (hf : g.flight = some f) :
    let out := sectionAt cfg e s (.wait f)
    out.1 = s ∧ (learn (.wait f) out.2 g).Valid cfg s call := by
  intro out
  obtain ⟨flight, hflight, hcache, hkey⟩ := hg.flight f hf
  have htold := hs.told flight (mem_of_getElem? hflight)
  rw [hcache, hkey] at htold
  have hvalid : ∀ time, (learn (.wait f) (some flight.done, time) g).Valid cfg s call := by
    intro time
    refine ⟨?_, hg.fitting, hg.decided, hg.flight⟩
    intro e' he'
    rcases mem_append.mp he' with he' | he'
    · exact htold e' (by simpa using he')
    · exact hg.entries e' he'
  have hout : out = sectionAt cfg e s (.wait f) := rfl
  simp only [sectionAt, hflight] at hout
  split at hout
  · rw [hout]
    exact ⟨rfl, hg⟩
  next heq =>
    cases heq
    rw [hout]
    exact ⟨rfl, hvalid _⟩
  · rw [hout]
    exact ⟨rfl, hg⟩

lemma step_stale (hs : Kept cfg s) (hg : g.Valid cfg s call) (hc : c = call.cache)
    (hk : k = key (cfg c) call.request) (hr : request = call.request.headers) :
    (learn (.stale c k request) (staleEntry (cfg c) s c k request) g).Valid cfg s call := by
  cases h : staleEntry (cfg c) s c k request with
  | none => exact hg
  | some out =>
    unfold staleEntry at h
    split at h
    · cases h
    split at h
    · cases h
    rename_i e' he'
    split at h
    next hstale =>
      cases h
      subst hc hk hr
      exact hg.decide (entryAt_store hs he') hstale.2 ⟨nofun, fun _ => hstale.1⟩
    · cases h

lemma exec_wait (cfg : Nat → Settings) (s : State) (f : Nat) (e : Env) :
    ((machine cfg).exec (.wait f) e s).1 = s.advance e := by
  simp only [machine, sectionAt]
  split <;> rfl

lemma grows_section (cfg : Nat → Settings) (s : State) (o : Op) (e : Env) :
    Grows (s.advance e) ((machine cfg).exec o e s).1 := by
  have hsame : Grows (s.advance e) (s.advance e) := .of_eq rfl rfl
  cases o with
  | look c k r last =>
    change Grows (s.advance e) (look (cfg c) (s.advance e) c k r last).1
    rcases look_spec (cfg c) (s.advance e) c k r last with ⟨a, hlook, -⟩ | ⟨-, slot, -, -, hlook⟩
    · rw [hlook]
      exact hsame
    rw [hlook]
    exact grows_leading (s.advance e) c k slot
  | wait f =>
    rw [exec_wait]
    exact hsame
  | backend | collect c | stale c k request => exact hsame
  | failed c k => exact grows_onLedger (s.advance e) c fun l => markFailed l k (s.advance e).now
  | entry c k r resp body =>
    exact ⟨fun m hm => mem_append_left _ hm, fun _ _ _ hf => hf⟩
  | finish c k f entry mark =>
    exact grows_onLedger (s.advance e) c fun l =>
      finish (cfg c) l k f entry mark (s.advance e).now fun i => i = c || e.locked i
  | send f done => exact grows_tell _ f done
  | answer e' outcome time way => exact hsame

/-- **One section** of a request keeps the invariant, and the request knows what it learned. -/
theorem step_section (hs : Kept cfg s) (hg : g.Valid cfg s call) (o : Op)
    (ho : Allowed cfg call o g) (e : Env) :
    let out := (machine cfg).exec o e s
    Kept cfg out.1 ∧ (learn o out.2 g).Valid cfg out.1 call := by
  have hs' := kept_advance hs e
  have hg' : g.Valid cfg (s.advance e) call := ⟨hg.entries, hg.fitting, hg.decided, hg.flight⟩
  intro out
  cases o with
  | look c k r last =>
    obtain ⟨rfl, rfl, rfl⟩ := ho
    obtain ⟨hkept, -, hvalid⟩ := step_look hs' hg' last
    exact ⟨hkept, hvalid⟩
  | wait f =>
    obtain ⟨hstate, hvalid⟩ := step_wait hs' hg' e ho
    have hout : out.1 = s.advance e := hstate
    rw [hout]
    exact ⟨hs', hvalid⟩
  | backend | collect c => exact ⟨hs', hg'⟩
  | stale c k request =>
    obtain ⟨hc, hk, hr⟩ := ho
    exact ⟨hs', step_stale hs' hg' hc hk hr⟩
  | failed c k =>
    have hchanges : (s.advance e).Changes c (fun l => markFailed l k (s.advance e).now)
        (fun _ _ => False) (fun _ _ => False) := fun _ _ => changes_markFailed _ k _
    exact ⟨hs'.onLedger hchanges fun _ _ h => h.elim,
      hg'.mono (grows_section cfg s (.failed c k) e)⟩
  | entry c k r resp body =>
    obtain ⟨hc, hk, hr, heligible⟩ := ho
    obtain ⟨hkept, -, hvalid⟩ := step_entry hs' hg' resp body e hc hk hr heligible
    exact ⟨hkept, hvalid⟩
  | finish c k f entry mark =>
    obtain ⟨rfl, rfl, hentry⟩ := ho
    have hchanges : (s.advance e).Changes call.cache
        (fun l => finish (cfg call.cache) l (key (cfg call.cache) call.request) f entry mark
          (s.advance e).now fun i => i = call.cache || e.locked i)
        (fun k' e' => k' = key (cfg call.cache) call.request ∧ entry = some e')
        (fun _ _ => False) :=
      fun _ _ => changes_finish _ _ _ f entry mark _ _ fun e' he' => ⟨rfl, he'⟩
    refine ⟨hs'.onLedger hchanges ?_, hg'.mono (grows_section cfg s (.finish _ _ f entry mark) e)⟩
    rintro k' e' ⟨rfl, he'⟩
    exact hg'.entries e' (hentry e' he')
  | send f done =>
    obtain ⟨hf, hdone⟩ := ho
    exact ⟨kept_tell hs' (hg'.flight f hf) fun e' he' => hg'.entries e' (hdone e' he'),
      hg'.mono (grows_tell _ f done)⟩
  | answer e' outcome time way => exact ⟨hs', hg'⟩

end Steps

/-! ## The programs -/

section Programs
variable {cfg : Nat → Settings} {call : Call}

abbrev SafeFrom (cfg : Nat → Settings) (call : Call) (p : Prog Op Ret Unit) (g : Knows) : Prop :=
  p.Safe (Allowed cfg call) learn g fun _ _ => True

variable {g : Knows} {entry : Option Entry}

lemma safe_finishLead (hf : g.flight = some f) (hdone : ∀ e, done.entry = some e → e ∈ g.entries)
    (hentry : ∀ e, entry = some e → e ∈ g.entries) :
    (finishLead call.cache (key (cfg call.cache) call.request) f done entry mark).Safe
      (Allowed cfg call) learn g fun _ g' => g' = g :=
  ⟨⟨rfl, rfl, hentry⟩, fun _ => ⟨⟨hf, hdone⟩, fun _ => rfl⟩⟩

lemma safe_finishLead_none (hf : g.flight = some f) (hdone : done.entry = none) :
    SafeFrom cfg call
      (finishLead call.cache (key (cfg call.cache) call.request) f done none mark) g := by
  refine (safe_finishLead hf ?_ ?_).mono fun _ _ _ => trivial
  · intro e he
    rw [hdone] at he
    cases he
  intro e he
  cases he

section
variable (heligible : eligible (cfg call.cache) call.request = true)
include heligible

lemma safe_finishLead_own (hf : g.flight = some f) (he : e ∈ g.entries) (hfit : e ∈ g.fitting)
    (hdone : ∀ e', done.entry = some e' → e' = e) (hentry : ∀ e', entry = some e' → e' = e) :
    SafeFrom cfg call (do
      finishLead call.cache (key (cfg call.cache) call.request) f done entry mark
      act (.answer e .miss e.stored .own)) g := by
  refine (safe_finishLead hf ?_ ?_).bind ?_
  · intro e' he'
    rw [hdone e' he']
    exact he
  · intro e' he'
    rw [hentry e' he']
    exact he
  rintro _ _ rfl
  refine ⟨⟨heligible, he, .inl hfit, ?_, fun _ => rfl⟩, fun _ => trivial⟩
  rintro (h | h) <;> cases h

lemma safe_keep (hf : g.flight = some f) (resp : Response) :
    SafeFrom cfg call (keep (cfg call.cache) call.cache (key (cfg call.cache) call.request)
      call.request f resp) g := by
  refine ⟨trivial, fun body => ?_⟩
  rcases body with _ | stop | body
  · exact safe_finishLead_none hf rfl
  · cases stop <;> exact safe_finishLead_none hf rfl
  refine ⟨⟨rfl, rfl, rfl, heligible⟩, fun e => ?_⟩
  have he : e ∈ (learn (.entry call.cache (key (cfg call.cache) call.request) call.request resp
      body) e g).entries := mem_cons_self
  have hfit : e ∈ (learn (.entry call.cache (key (cfg call.cache) call.request) call.request resp
      body) e g).fitting := mem_cons_self
  change SafeFrom cfg call (if e.size ≤ (cfg call.cache).maxMemory then _ else _) _
  split
  · refine safe_finishLead_own heligible hf he hfit ?_ ?_
    · rintro e' ⟨⟩
      rfl
    rintro e' ⟨⟩
    rfl
  refine safe_finishLead_own heligible hf he hfit ?_ ?_
  · rintro e' ⟨⟩
  · rintro e' ⟨⟩

lemma safe_shareError (hf : g.flight = some f) (resp : Response) :
    SafeFrom cfg call (shareError call.cache (key (cfg call.cache) call.request) call.request f
      resp) g := by
  unfold shareError
  split
  · exact safe_finishLead_none hf rfl
  refine ⟨trivial, fun body => ?_⟩
  rcases body with _ | stop | body
  · exact safe_finishLead_none hf rfl
  · exact safe_finishLead_none hf rfl
  refine ⟨⟨rfl, rfl, rfl, heligible⟩, fun e => ?_⟩
  refine safe_finishLead_own heligible hf mem_cons_self mem_cons_self ?_ ?_
  · rintro e' ⟨⟩
    rfl
  · rintro e' ⟨⟩

variable {lead : Option Nat}

lemma safe_response (hlead : ∀ f, lead = some f → g.flight = some f) (resp : Response) :
    SafeFrom cfg call (response (cfg call.cache) call.cache (key (cfg call.cache) call.request)
      call.request lead resp) g := by
  unfold response
  split
  · refine ⟨⟨rfl, rfl, rfl⟩, fun found => ?_⟩
    rcases found with _ | ⟨e, time⟩
    · rcases lead with _ | f
      · trivial
      · exact safe_shareError heligible (hlead f rfl) resp
    -- an old answer is there: the lead tells of it, and the request gets it
    have hanswer : ∀ g' : Knows, g' = learn (.stale call.cache
        (key (cfg call.cache) call.request) call.request.headers) (some (e, time)) g →
        SafeFrom cfg call (act (.answer e .stale time .response)) g' := by
      rintro g' rfl
      refine ⟨⟨heligible, mem_cons_self, .inl mem_cons_self, ?_, nofun⟩, fun _ => trivial⟩
      exact fun _ => mem_cons_self
    rcases lead with _ | f
    · exact ⟨trivial, fun _ => hanswer _ rfl⟩
    have hlead' : (learn (.stale call.cache (key (cfg call.cache) call.request)
        call.request.headers) (some (e, time)) g).flight = some f := hlead f rfl
    refine (safe_finishLead hlead' ?_ ?_).bind fun _ g' hg' => hanswer g' hg'
    · rintro e' ⟨⟩
      exact mem_cons_self
    · rintro e' ⟨⟩
  rcases lead with _ | f
  · trivial
  dsimp only
  split
  · exact safe_keep heligible (hlead f rfl) resp
  · exact safe_finishLead_none (hlead f rfl) rfl
  · exact safe_finishLead_none (hlead f rfl) rfl

lemma safe_goOn (hlead : ∀ f, lead = some f → g.flight = some f) :
    SafeFrom cfg call (goOn (cfg call.cache) call.cache (key (cfg call.cache) call.request)
      call.request lead) g := by
  refine ⟨trivial, fun resp => ?_⟩
  rcases resp with _ | resp
  · rcases lead with _ | f
    · trivial
    · exact safe_finishLead_none (hlead f rfl) rfl
  · exact safe_response heligible hlead resp

lemma safe_goOn_alone :
    SafeFrom cfg call (goOn (cfg call.cache) call.cache (key (cfg call.cache) call.request)
      call.request none) g := by
  refine safe_goOn heligible ?_
  rintro f ⟨⟩

lemma safe_round {last : Bool} {again : Prog Op Ret Unit}
    (hagain : ∀ g, SafeFrom cfg call again g) (g : Knows) :
    SafeFrom cfg call (round (cfg call.cache) call.cache (key (cfg call.cache) call.request)
      call.request last again) g := by
  have halone : ∀ g, SafeFrom cfg call (goOn (cfg call.cache) call.cache
      (key (cfg call.cache) call.request) call.request none) g := fun _ =>
    safe_goOn_alone heligible
  refine ⟨⟨rfl, rfl, rfl⟩, fun looked => ?_⟩
  cases looked with
  | answer e outcome time =>
    refine ⟨⟨heligible, mem_cons_self, .inl mem_cons_self,
      fun _ => mem_cons_self, nofun⟩, fun _ => trivial⟩
  | alone => exact halone _
  | lead f =>
    refine safe_goOn heligible ?_
    rintro f' ⟨⟩
    rfl
  | wait f =>
    refine ⟨rfl, fun heard => ?_⟩
    -- an entry the flight tells of is compared before it is given
    have hgive : ∀ (e : Entry) (outcome : Outcome) (time : Nat) (g : Knows), e ∈ g.entries →
        SafeFrom cfg call (if e.fits call.request.headers then
            act (.answer e outcome time .flight)
          else goOn (cfg call.cache) call.cache (key (cfg call.cache) call.request) call.request
            none) g := by
      intro e outcome time g he
      split
      next hfits =>
        refine ⟨⟨heligible, he, .inr hfits, ?_, nofun⟩, fun _ => trivial⟩
        rintro (h | h) <;> cases h
      · exact halone g
    obtain ⟨done, time⟩ := heard
    rcases done with _ | done
    · exact halone _
    cases done with
    | pending => exact halone _
    | fresh e => exact hgive e .hit time _ (mem_append_left _ (by simp [Done.entry]))
    | stale e => exact hgive e .stale time _ (mem_append_left _ (by simp [Done.entry]))
    | error e => exact hgive e .miss time _ (mem_append_left _ (by simp [Done.entry]))
    | uncacheable => exact halone _
    | abandoned => exact hagain _

lemma safe_rounds (n : Nat) (g : Knows) :
    SafeFrom cfg call (rounds (cfg call.cache) call.cache (key (cfg call.cache) call.request)
      call.request n) g := by
  induction n generalizing g with
  | zero => exact safe_round heligible (fun _ => safe_goOn_alone heligible) g
  | succ n ih => exact safe_round heligible ih g

end

lemma safe_program (g : Knows) : SafeFrom cfg call (program cfg call) g := by
  simp only [program]
  split
  next heligible => exact safe_rounds heligible retries g
  · exact ⟨trivial, fun _ => trivial⟩

end Programs

/-! ## Every run -/

def Going (cfg : Nat → Settings) (s : State) (call : Call) (p : Prog Op Ret Unit) : Prop :=
  ∃ g : Knows, g.Valid cfg s call ∧ SafeFrom cfg call p g

lemma kept_initial (cfg : Nat → Settings) (caches limit : Nat) :
    Kept cfg (State.initial caches limit) := by
  have hempty : ∀ (c : Nat) (store : Store),
      (State.initial caches limit).stores[c]? = some store → store = .empty := by
    intro c store hstore
    exact (mem_replicate.mp (mem_of_getElem? hstore)).2
  refine ⟨fun c store k e hstore he => ?_, fun c store k f hstore hf => ?_, by simp [State.initial]⟩
  · rw [hempty c store hstore] at he
    cases he
  rw [hempty c store hstore] at hf
  cases hf

lemma going_program (cfg : Nat → Settings) (s : State) (call : Call) :
    Going cfg s call (program cfg call) :=
  ⟨⟨[], [], [], none⟩, ⟨by simp, by simp, by simp, by simp⟩, safe_program _⟩

variable {x : Configuration Op Ret State Call}

/-- **In every state of every run** the stores and the flights are right, and each request goes on
with what it knows. -/
theorem reach_kept {caches limit : Nat}
    (hx : (system cfg).Reach (fun _ _ => True) ⟨.initial caches limit, []⟩ x) :
    Kept cfg x.state ∧ ∀ t ∈ x.threads, Going cfg x.state t.call t.rest := by
  refine hx.each (J := Going cfg) (kept_initial cfg caches limit) ?_ ?_ ?_
  · intro x call s' hs _ hbegins
    have hs' : s' = x.state := by
      simp only [system] at hbegins
      split at hbegins
      · exact (Option.some.inj hbegins).symm
      · cases hbegins
    subst hs'
    exact ⟨hs, going_program cfg x.state call, fun _ _ h => h⟩
  · rintro s call o k e hs ⟨g, hg, hsafe⟩
    obtain ⟨hs', hg'⟩ := step_section hs hg o hsafe.1 e
    exact ⟨hs', _, hg', hsafe.2 _⟩
  rintro x i e call o k t hs _ _ _ ⟨g, hg, hsafe⟩
  exact ⟨g, hg.mono ⟨(grows_section cfg x.state o e).made, (grows_section cfg x.state o e).flight⟩,
    hsafe⟩

lemma joined_eq_of_fits {lead : HeaderMap} (hvaries : e.varies = variesOf e.headers lead)
    (hfits : e.fits request) :
    ∀ name ∈ variesNames e.headers, joined request name = joined lead name := by
  intro name hname
  rw [Entry.fits, hvaries, sameValues, List.all_eq_true] at hfits
  exact beq_iff_eq.mp (hfits (name, joined lead name) (List.mem_map.mpr ⟨name, hname, rfl⟩))

lemma credentials_of_eligible {cfg : Settings} {r : Request} (h : eligible cfg r)
    (hshare : cfg.shareCredentials = false) : credentials r = false := by
  simp only [eligible, admits, Bool.and_eq_true, hshare, Bool.false_or, Bool.not_eq_true'] at h
  exact h.2.2

/-- **Answers never cross requests that differ.** An entry that answers a request was made for a
request of the same cache that led for it and agrees with it in the key and in every header the
answer varies by; neither carries credentials unless they are shared, and what comes from the store
was fresh when that was decided, or not yet too old. -/
theorem answers_never_cross (cfg : Nat → Settings) (caches limit : Nat)
    (x : Configuration Op Ret State Call)
    (hx : (system cfg).Reach (fun _ _ => True) ⟨.initial caches limit, []⟩ x)
    (t : Thread Op Ret Call) (ht : t ∈ x.threads) (e : Entry) (outcome : Outcome) (time : Nat)
    (way : Way) (hnext : t.rest.next? = some (.answer e outcome time way)) :
    ∃ lead : Request, (t.call.cache, e, lead) ∈ x.state.made ∧
      Same (cfg t.call.cache) t.call.request lead ∧
      (∀ name ∈ variesNames e.headers,
        joined t.call.request.headers name = joined lead.headers name) ∧
      ((cfg t.call.cache).shareCredentials = false →
        credentials t.call.request = false ∧ credentials lead = false) ∧
      (way ≠ .flight →
        (outcome = .hit → time < e.freshUntil) ∧ (outcome = .stale → time < e.staleUntil)) := by
  obtain ⟨-, hgoing⟩ := reach_kept hx
  obtain ⟨g, hg, hsafe⟩ := hgoing t ht
  cases hrest : t.rest with
  | ret a =>
    rw [hrest] at hnext
    cases hnext
  | op o k =>
    rw [hrest] at hnext hsafe
    cases hnext
    obtain ⟨heligible, hentry, hfit, hdecided, hown⟩ := hsafe.1
    obtain ⟨lead, hmade, hkey, hlead, hvaries⟩ := hg.entries e hentry
    have hfits : e.fits t.call.request.headers = true := by
      rcases hfit with hfit | hfit
      · exact hg.fitting e hfit
      · exact hfit
    refine ⟨lead, hmade, same_of_key_eq hkey.symm, joined_eq_of_fits hvaries hfits, ?_, ?_⟩
    · intro hshare
      exact ⟨credentials_of_eligible heligible hshare, credentials_of_eligible hlead hshare⟩
    intro hway
    cases way with
    | store => exact hg.decided e outcome time (hdecided (.inl rfl))
    | response => exact hg.decided e outcome time (hdecided (.inr rfl))
    | flight => exact absurd rfl hway
    | own =>
      rw [hown rfl]
      exact ⟨nofun, nofun⟩

/-! ## Two requests at one cache -/

def shortLived : Settings where
  ttl := 100000000
  stale := 0
  maxBody := 1000
  maxEntries := 10
  maxMemory := 100000
  vary := []
  status := [200]
  shareCredentials := false
  ttl_min := by decide
  max_entries := by decide
  max_memory := by decide

def plainGet : Request where
  method := .get
  headers := []
  pathAndQuery := some [0x2F]
  host := [0x61]
  route := [0x72]
  https := false
  port := 80
  cert := none
  bodyEmpty := true
  path_line := by
    rintro pq ⟨⟩
    decide
  host_nul := by decide
  route_nul := by decide

def calm : Env where
  elapsed := 1
  locked _ := false
  limit := none
  response := some ⟨200, []⟩
  body := some (.ok [])

def handedOver (later : Nat) : List (Event Env Call) :=
  [.start ⟨0, plainGet⟩, .start ⟨0, plainGet⟩, .step 0 calm, .step 1 calm, .step 0 calm,
    .step 0 calm, .step 0 calm, .step 0 calm, .step 0 calm, .step 1 { calm with elapsed := later }]

def answering (x : Configuration Op Ret State Call) (i : Nat) : Option (Entry × Outcome × Nat) :=
  match x.threads[i]? with
  | some ⟨_, .op (.answer e outcome time _) _⟩ => some (e, outcome, time)
  | _ => none

lemma answering_eq {i : Nat} {time : Nat} (h : answering x i = some (e, outcome, time)) :
    ∃ t ∈ x.threads, ∃ way, t.rest.next? = some (.answer e outcome time way) := by
  unfold answering at h
  split at h
  next call e' outcome' time' way k ht =>
    cases h
    exact ⟨_, mem_of_getElem? ht, way, rfl⟩
  · cases h

lemma reach_handedOver (later : Nat) (p : Configuration Op Ret State Call → Bool)
    (h : (((system fun _ => shortLived).trace (fun _ _ => true) (fun _ _ _ => id) (handedOver later)
      ⟨.initial 1 0, []⟩ ()).any fun x => p x.1) = true) :
    ∃ x, (system fun _ => shortLived).Reach (fun _ _ => True) ⟨.initial 1 0, []⟩ x ∧ p x = true :=
  System.exists_reach_of_trace (fun _ _ _ _ => trivial) h

theorem waiting_answered :
    ∃ x, (system fun _ => shortLived).Reach (fun _ _ => True) ⟨.initial 1 0, []⟩ x ∧
      ∃ t ∈ x.threads, ∃ e time way, t.rest.next? = some (.answer e .hit time way) ∧
        ∃ lead : Request, (t.call.cache, e, lead) ∈ x.state.made ∧
          Same shortLived t.call.request lead := by
  obtain ⟨x, hx, hp⟩ := reach_handedOver 1 (fun x => (answering x 1).any fun a => a.2.1 = .hit)
    (by decide +kernel)
  obtain ⟨⟨e, outcome, time⟩, hanswer, hhit⟩ := any_eq_true _ _ |>.mp hp
  obtain ⟨t, ht, way, hnext⟩ := answering_eq hanswer
  rw [decide_eq_true_eq] at hhit
  obtain rfl : outcome = .hit := hhit
  obtain ⟨lead, hmade, hsame, -⟩ :=
    answers_never_cross (fun _ => shortLived) 1 0 x hx t ht e .hit time way hnext
  exact ⟨x, hx, t, ht, e, time, way, hnext, lead, hmade, hsame⟩

/-- A request that waited is given the answer as a HIT, also when it runs on after that went out of
date. -/
theorem hit_after_fresh :
    ¬ ∀ (cfg : Nat → Settings) (caches limit : Nat) (x : Configuration Op Ret State Call)
      (t : Thread Op Ret Call) (e : Entry) (time : Nat) (way : Way),
      (system cfg).Reach (fun _ _ => True) ⟨.initial caches limit, []⟩ x → t ∈ x.threads →
      t.rest.next? = some (.answer e .hit time way) → time < e.freshUntil := by
  intro hall
  obtain ⟨x, hx, hp⟩ := reach_handedOver 1000000000 (fun x => (answering x 1).any fun a =>
    a.2.1 = .hit && a.1.freshUntil ≤ a.2.2) (by decide +kernel)
  obtain ⟨⟨e, outcome, time⟩, hanswer, hlate⟩ := any_eq_true _ _ |>.mp hp
  obtain ⟨t, ht, way, hnext⟩ := answering_eq hanswer
  simp only [Bool.and_eq_true, decide_eq_true_eq] at hlate
  obtain ⟨rfl, hlate⟩ := hlate
  exact absurd (hall _ 1 0 x t e time way hx ht hnext) (Nat.not_lt.mpr hlate)

end Rproxy.Cache
