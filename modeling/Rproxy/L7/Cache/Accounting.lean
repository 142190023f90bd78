import Rproxy.Data.Holders
import Rproxy.L7.Cache.Checked
import Rproxy.L7.Cache.Sharing

/-!
# The accounts of the caches

All caches count what they keep in one budget.
-/

namespace Rproxy.Cache
open List Ledger Function

inductive Work where
  | request (call : Call)
  | usage (cache elapsed : Nat)

def State.usage (s : State) (c elapsed : Nat) : State :=
  State.onLedger { s with now := s.now + elapsed } c fun l => l.purge (s.now + elapsed)

def accounted (cfg : Nat → Settings) : System Op Ret Env State Work where
  toMachine := machine cfg
  program
    | .request call => program cfg call
    | .usage _ _ => .ret ()
  begins
    | .request call, s => (system cfg).begins call s
    | .usage c elapsed, s => some (s.usage c elapsed)

def SameLimit (_ : Configuration Op Ret State Work) (ev : Event Env Work) : Prop :=
  ∀ i e, ev = .step i e → e.limit = none

/-! ## The accounts -/

structure State.Accounted (cfg : Nat → Settings) (limit : Nat) (s : State) : Prop where
  stores : ∀ (c : Nat) (store : Store), s.stores[c]? = some store → store.Exact (cfg c)
  used : s.budget.used = (s.stores.map Store.memory).sum
  bounded : s.budget.used ≤ limit
  limit : s.budget.limit = limit

lemma accounted_initial (cfg : Nat → Settings) (caches limit : Nat) :
    (State.initial caches limit).Accounted cfg limit := by
  refine ⟨fun c store hstore => ?_, ?_, Nat.zero_le _, rfl⟩
  · rw [(mem_replicate.mp (mem_of_getElem? hstore)).2]
    exact Store.exact_empty (cfg c)
  show 0 = ((List.replicate caches Store.empty).map Store.memory).sum
  rw [map_replicate]
  induction caches with
  | zero => rfl
  | succ n ih =>
    rw [replicate_succ, sum_cons, ← ih]
    rfl

variable {cfg : Nat → Settings} {limit c : Nat} {s : State}

lemma othersMemory_of_lt {l : List Store} {i : Nat} (h : c < i) :
    othersMemory c i l = (l.map Store.memory).sum := by
  induction l generalizing i with
  | nil => rfl
  | cons store l ih =>
    rw [othersMemory, if_neg (by omega), ih (by omega), map_cons, sum_cons]

lemma othersMemory_add {l : List Store} {store : Store} (i : Nat) {j : Nat}
    (h : l[j]? = some store) :
    othersMemory (i + j) i l + store.memory = (l.map Store.memory).sum := by
  induction l generalizing i j with
  | nil => cases h
  | cons first l ih =>
    rw [othersMemory, map_cons, sum_cons]
    cases j with
    | zero =>
      cases h
      rw [Nat.add_zero, if_pos rfl, othersMemory_of_lt (Nat.lt_succ_self i)]
      omega
    | succ j =>
      have hrest := ih (i + 1) (j := j) h
      rw [Nat.add_right_comm, Nat.add_assoc] at hrest
      rw [if_neg (by omega)]
      omega

lemma othersMemory_set {l : List Store} (store : Store) (i : Nat) {j : Nat} (hj : j < l.length) :
    othersMemory (i + j) i (l.set j store) = othersMemory (i + j) i l := by
  have hold := getElem?_eq_getElem hj
  have hset := othersMemory_add i (getElem?_set_self (a := store) hj)
  have hsum := Holders.sum_set_add Store.memory store hold
  have hadd := othersMemory_add i hold
  omega

section
variable (h : s.Accounted cfg limit)
include h

lemma State.Accounted.exact {store : Store} (hstore : s.stores[c]? = some store) :
    Ledger.Exact cfg limit c 0 ⟨store, s.budget, s.stores⟩ := by
  refine ⟨h.stores c store hstore, fun i s' _ hs' => h.stores i s' hs', ?_, h.bounded, h.limit⟩
  have hsum := othersMemory_add 0 hstore
  rw [Nat.zero_add] at hsum
  show s.budget.used = store.memory + othersMemory c 0 s.stores + 0
  rw [h.used]
  omega

lemma State.Accounted.onLedger {f : Ledger → Ledger} (hf : ∀ store, s.stores[c]? = some store →
      (f ⟨store, s.budget, s.stores⟩).Exact cfg limit c 0 ∧
        (f ⟨store, s.budget, s.stores⟩).others.length = s.stores.length) :
    (s.onLedger c f).Accounted cfg limit := by
  rw [State.onLedger]
  split
  · exact h
  rename_i store hstore
  obtain ⟨hexact, hlength⟩ := hf store hstore
  generalize f ⟨store, s.budget, s.stores⟩ = l at hexact hlength
  have hlt : c < l.others.length := hlength ▸ (lt_of_getElem? hstore)
  refine ⟨fun i s' hs' => ?_, ?_, hexact.bounded, hexact.limit⟩
  · rcases getElem?_set_cases hs' with ⟨rfl, rfl⟩ | ⟨hi, hs'⟩
    · exact hexact.store
    · exact hexact.others i s' hi hs'
  have hsum := othersMemory_add (l := l.others.set c l.store) 0 (getElem?_set_self hlt)
  rw [othersMemory_set _ _ hlt, Nat.zero_add] at hsum
  rw [← hsum, hexact.used]
  omega

lemma accounted_usage (c elapsed : Nat) : (s.usage c elapsed).Accounted cfg limit := by
  have h' : State.Accounted cfg limit { s with now := s.now + elapsed } :=
    ⟨h.stores, h.used, h.bounded, h.limit⟩
  refine h'.onLedger fun store hstore => ?_
  obtain ⟨-, hgo⟩ := purge_spec (h.exact hstore).held (s.now + elapsed)
  exact ⟨(h.exact hstore).letsGo hgo, congrArg List.length hgo.others⟩

lemma accounted_look (cfg' : Settings) (c : Nat) (key : Key) (r : Request) (last : Bool) :
    (look cfg' s c key r last).1.Accounted cfg limit := by
  rcases look_spec cfg' s c key r last with ⟨a, hlook, -⟩ | ⟨-, slot, hentry, -, hlook⟩
  · rw [hlook]
    exact h
  have hlead : (s.onLedger c fun l => { l with store := { l.store with
      map := l.store.map.insert key slot } }).Accounted cfg limit := by
    refine h.onLedger fun store hstore => ⟨(h.exact hstore).alike (Store.alike_insert ?_), rfl⟩
    rw [hentry, State.store, hstore, Option.getD_some]
  rw [hlook]
  exact ⟨hlead.stores, hlead.used, hlead.bounded, hlead.limit⟩

end

def MayPut (cfg : Nat → Settings) (s : State) (o : Op) : Prop :=
  ∀ c key f e mark, o = .finish c key f (some e) mark → ∀ store, s.stores[c]? = some store →
    Ledger.Fits (cfg c) store key e

lemma accounted_section (hlimit : limit ≠ 0) (h : s.Accounted cfg limit) (o : Op) (e : Env)
    (he : e.limit = none) (hput : MayPut cfg s o) :
    ((machine cfg).exec o e s).1.Accounted cfg limit := by
  have h' : (s.advance e).Accounted cfg limit := by
    refine ⟨h.stores, h.used, h.bounded, ?_⟩
    show e.limit.getD s.budget.limit = limit
    rw [he]
    exact h.limit
  cases o with
  | look c k r last => exact accounted_look h' (cfg c) c k r last
  | wait f =>
    rw [exec_wait]
    exact h'
  | backend | collect c | stale c k request => exact h'
  | failed c k =>
    refine h'.onLedger (f := fun l => markFailed l k (s.advance e).now) fun store hstore =>
      ⟨exact_markFailed (h'.exact hstore) k _, ?_⟩
    have hchanges : Ledger.Changes _ _ (fun _ _ => False) (fun _ _ => False) :=
      changes_markFailed ⟨store, (s.advance e).budget, (s.advance e).stores⟩ k (s.advance e).now
    exact hchanges.others.length_eq.symm
  | entry c k r resp body => exact ⟨h'.stores, h'.used, h'.bounded, h'.limit⟩
  | finish c k f entry mark =>
    refine h'.onLedger (f := fun l => finish (cfg c) l k f entry mark (s.advance e).now fun i =>
      i = c || e.locked i) fun store hstore =>
        ⟨(finish_spec hlimit (h'.exact hstore) f mark _ ?_ ?_).2, ?_⟩
    · simp
    · rintro e' rfl
      exact hput c k f e' mark rfl store hstore
    have hchanges : Ledger.Changes _ _ (fun _ _ => True) (fun _ _ => False) :=
      changes_finish (cfg c) ⟨store, (s.advance e).budget, (s.advance e).stores⟩ k f entry mark
        (s.advance e).now (fun i => i = c || e.locked i) fun _ _ => trivial
    exact hchanges.others.length_eq.symm
  | send f done => exact ⟨h'.stores, h'.used, h'.bounded, h'.limit⟩
  | answer e' outcome time way => exact h'

structure Numbered (s : State) : Prop where
  below : ∀ c e r, (c, e, r) ∈ s.made → e.seq < s.next c
  unique : ∀ c e r e' r', (c, e, r) ∈ s.made → (c, e', r') ∈ s.made → e.seq = e'.seq →
    e = e' ∧ r = r'
  positive : ∀ c e r, (c, e, r) ∈ s.made → 0 < e.size

lemma Numbered.of_eq {s' : State} (h : Numbered s) (hmade : s'.made = s.made)
    (hnext : s'.next = s.next) : Numbered s' := by
  refine ⟨?_, ?_, ?_⟩
  · rw [hmade, hnext]
    exact h.below
  · rw [hmade]
    exact h.unique
  rw [hmade]
  exact h.positive

lemma onLedger_next (s : State) (c : Nat) (f : Ledger → Ledger) :
    (s.onLedger c f).next = s.next := by
  unfold State.onLedger
  split <;> rfl

lemma numbered_onLedger (h : Numbered s) (c : Nat) (f : Ledger → Ledger) :
    Numbered (s.onLedger c f) :=
  h.of_eq (onLedger_made s c f) (onLedger_next s c f)

lemma numbered_entry (h : Numbered s) (c : Nat) (r : Request) {entry : Entry}
    (hseq : entry.seq = s.next c) (hsize : 0 < entry.size) :
    Numbered { s with
      next := update s.next c (s.next c + 1)
      made := s.made ++ [(c, entry, r)] } := by
  have hcases : ∀ {c' e r'}, (c', e, r') ∈ s.made ++ [(c, entry, r)] →
      (c', e, r') ∈ s.made ∨ c' = c ∧ e = entry ∧ r' = r := by
    intro c' e r' hmem
    rcases mem_append.mp hmem with hmem | hmem
    · exact .inl hmem
    cases mem_singleton.mp hmem
    exact .inr ⟨rfl, rfl, rfl⟩
  refine ⟨fun c' e r' hmem => ?_, fun c' e r' e' r'' hmem hmem' heq => ?_, fun c' e r' hmem => ?_⟩
  · show e.seq < update s.next c (s.next c + 1) c'
    rcases hcases hmem with hold | ⟨rfl, rfl, -⟩
    · have hlt := h.below c' e r' hold
      rcases eq_or_ne c' c with rfl | hne
      · rw [update_self]
        omega
      rw [update_of_ne hne]
      exact hlt
    rw [update_self]
    omega
  · rcases hcases hmem with hold | ⟨rfl, rfl, rfl⟩
    · rcases hcases hmem' with hold' | ⟨rfl, rfl, rfl⟩
      · exact h.unique c' e r' e' r'' hold hold' heq
      have hlt := h.below c' e r' hold
      omega
    rcases hcases hmem' with hold' | ⟨-, rfl, rfl⟩
    · have hlt := h.below c' e' r'' hold'
      omega
    · exact ⟨rfl, rfl⟩
  rcases hcases hmem with hold | ⟨-, rfl, -⟩
  · exact h.positive c' e r' hold
  · exact hsize

lemma numbered_section (h : Numbered s) (o : Op) (e : Env) :
    Numbered ((machine cfg).exec o e s).1 := by
  have h' : Numbered (s.advance e) := h.of_eq rfl rfl
  cases o with
  | look c k r last =>
    change Numbered (look (cfg c) (s.advance e) c k r last).1
    rcases look_spec (cfg c) (s.advance e) c k r last with ⟨a, hlook, -⟩ | ⟨-, slot, -, -, hlook⟩
    · rw [hlook]
      exact h'
    rw [hlook]
    exact (numbered_onLedger h' c _).of_eq rfl rfl
  | wait f =>
    rw [exec_wait]
    exact h'
  | backend | collect c | stale c k request => exact h'
  | failed c k => exact numbered_onLedger h' c fun l => markFailed l k (s.advance e).now
  | entry c k r resp body => exact numbered_entry h' c r rfl (Nat.succ_pos _)
  | finish c k f entry mark =>
    exact numbered_onLedger h' c fun l =>
      finish (cfg c) l k f entry mark (s.advance e).now fun i => i = c || e.locked i
  | send f done => exact h'.of_eq rfl rfl
  | answer e' outcome time way => exact h'

/-! ## The programs -/

def Sized (cfg : Nat → Settings) : Op → Prop
  | .finish c _ _ (some e) _ => e.size ≤ (cfg c).maxMemory
  | _ => True

lemma sized_finishLead (c : Nat) (key : Key) (f : Nat) (done : Done) (mark : Mark) :
    (finishLead c key f done none mark).All (Sized cfg) :=
  ⟨trivial, fun _ => ⟨trivial, fun _ => trivial⟩⟩

lemma sized_keep (c : Nat) (key : Key) (r : Request) (f : Nat) (resp : Response) :
    (keep (cfg c) c key r f resp).All (Sized cfg) := by
  refine ⟨trivial, fun body => ?_⟩
  rcases body with _ | stop | body
  · exact sized_finishLead c key f _ _
  · cases stop <;> exact sized_finishLead c key f _ _
  refine ⟨trivial, fun e => ?_⟩
  change Prog.All (Sized cfg) (if e.size ≤ (cfg c).maxMemory then _ else _)
  have hanswer : (act (.answer e .miss e.stored .own)).All (Sized cfg) :=
    ⟨trivial, fun _ => trivial⟩
  split
  next hsize => exact ⟨hsize, fun _ => ⟨trivial, fun _ => hanswer⟩⟩
  · exact Prog.All.bind (sized_finishLead c key f _ _) fun _ => hanswer

lemma sized_shareError (c : Nat) (key : Key) (r : Request) (f : Nat) (resp : Response) :
    (shareError c key r f resp).All (Sized cfg) := by
  unfold shareError
  split
  · exact sized_finishLead c key f _ _
  refine ⟨trivial, fun body => ?_⟩
  rcases body with _ | stop | body
  · exact sized_finishLead c key f _ _
  · exact sized_finishLead c key f _ _
  · exact ⟨trivial, fun e => ⟨trivial, fun _ => ⟨trivial, fun _ => ⟨trivial, fun _ => trivial⟩⟩⟩⟩

lemma sized_response (c : Nat) (key : Key) (r : Request) (lead : Option Nat) (resp : Response) :
    (response (cfg c) c key r lead resp).All (Sized cfg) := by
  unfold response
  split
  · refine ⟨trivial, fun found => ?_⟩
    rcases found with _ | ⟨e, time⟩
    · cases lead with
      | none => trivial
      | some f => exact sized_shareError c key r f resp
    have hanswer : (act (.answer e .stale time .response)).All (Sized cfg) :=
      ⟨trivial, fun _ => trivial⟩
    cases lead with
    | none => exact ⟨trivial, fun _ => hanswer⟩
    | some f =>
      have hlead : (finishLead c key f (.stale e) none .failed).All (Sized cfg) :=
        sized_finishLead c key f _ _
      exact hlead.bind fun _ => hanswer
  cases lead with
  | none => trivial
  | some f =>
    dsimp only
    split
    · exact sized_keep c key r f resp
    · exact sized_finishLead c key f _ _
    · exact sized_finishLead c key f _ _

lemma sized_goOn (c : Nat) (key : Key) (r : Request) (lead : Option Nat) :
    (goOn (cfg c) c key r lead).All (Sized cfg) := by
  refine ⟨trivial, fun resp => ?_⟩
  rcases resp with _ | resp
  · cases lead with
    | none => trivial
    | some f => exact sized_finishLead c key f _ _
  · exact sized_response c key r lead resp

lemma sized_round (c : Nat) (key : Key) (r : Request) (last : Bool) {again : Prog Op Ret Unit}
    (hagain : again.All (Sized cfg)) : (round (cfg c) c key r last again).All (Sized cfg) := by
  have halone : (goOn (cfg c) c key r none).All (Sized cfg) := sized_goOn c key r none
  refine ⟨trivial, fun looked => ?_⟩
  cases looked with
  | answer e outcome time => exact ⟨trivial, fun _ => trivial⟩
  | alone => exact halone
  | lead f => exact sized_goOn c key r (some f)
  | wait f =>
    refine ⟨trivial, fun told => ?_⟩
    have hgive : ∀ (e : Entry) (outcome : Outcome) (time : Nat), Prog.All (Sized cfg)
        (if e.fits r.headers then act (.answer e outcome time .flight)
          else goOn (cfg c) c key r none) := by
      intro e outcome time
      split
      · exact ⟨trivial, fun _ => trivial⟩
      · exact halone
    obtain ⟨done, time⟩ := told
    rcases done with _ | done
    · exact halone
    cases done with
    | pending => exact halone
    | fresh e => exact hgive e .hit time
    | stale e => exact hgive e .stale time
    | error e => exact hgive e .miss time
    | uncacheable => exact halone
    | abandoned => exact hagain

lemma sized_rounds (c : Nat) (key : Key) (r : Request) (n : Nat) :
    (rounds (cfg c) c key r n).All (Sized cfg) := by
  induction n with
  | zero => exact sized_round c key r true (sized_goOn c key r none)
  | succ n ih => exact sized_round c key r false ih

lemma sized_program (call : Call) : (program cfg call).All (Sized cfg) := by
  simp only [program]
  split
  · exact sized_rounds call.cache _ call.request retries
  · exact ⟨trivial, fun _ => trivial⟩

/-! ## Every run -/

def Goes (cfg : Nat → Settings) (s : State) : Work → Prog Op Ret Unit → Prop
  | .request call, p => Going cfg s call p ∧ p.All (Sized cfg)
  | .usage _ _, p => p.All fun _ => False

lemma Goes.mono {s' : State} (hs : Grows s s') {w : Work} {p : Prog Op Ret Unit}
    (h : Goes cfg s w p) : Goes cfg s' w p := by
  cases w with
  | request call =>
    obtain ⟨⟨g, hg, hsafe⟩, hsized⟩ := h
    exact ⟨⟨g, hg.mono hs, hsafe⟩, hsized⟩
  | usage c elapsed => exact h

lemma kept_usage (h : Kept cfg s) (c elapsed : Nat) : Kept cfg (s.usage c elapsed) := by
  have h' : Kept cfg { s with now := s.now + elapsed } := ⟨h.entry, h.flight, h.told⟩
  have hchanges : State.Changes { s with now := s.now + elapsed } c
      (fun l => l.purge (s.now + elapsed)) (fun _ _ => False) (fun _ _ => False) :=
    fun _ _ => (within_purge _ _).changes
  exact h'.onLedger hchanges fun _ _ h => h.elim

variable {x : Configuration Op Ret State Work} {caches : Nat}
  {cond : Configuration Op Ret State Work → Event Env Work → Prop}

lemma reach_goes (hx : (accounted cfg).Reach cond ⟨.initial caches limit, []⟩ x) :
    (Kept cfg x.state ∧ Numbered x.state) ∧ ∀ t ∈ x.threads, Goes cfg x.state t.call t.rest := by
  refine hx.each (I := fun s => Kept cfg s ∧ Numbered s) (J := Goes cfg) ?_ ?_ ?_ ?_
  · exact ⟨kept_initial cfg caches limit, by simp [State.initial], by simp [State.initial],
      by simp [State.initial]⟩
  · rintro x (call | ⟨c, elapsed⟩) s' ⟨hkept, hnumbered⟩ - hbegins
    · have hs' : s' = x.state := by
        simp only [accounted, system] at hbegins
        split at hbegins
        · exact (Option.some.inj hbegins).symm
        · cases hbegins
      subst hs'
      exact ⟨⟨hkept, hnumbered⟩, ⟨going_program cfg x.state call, sized_program call⟩,
        fun _ _ h => h⟩
    cases hbegins
    have hmade : (x.state.usage c elapsed).made = x.state.made := onLedger_made _ _ _
    have hnext : (x.state.usage c elapsed).next = x.state.next := onLedger_next _ _ _
    have hflights : (x.state.usage c elapsed).flights = x.state.flights := onLedger_flights _ _ _
    exact ⟨⟨kept_usage hkept c elapsed, hnumbered.of_eq hmade hnext⟩, trivial, fun w p h =>
      h.mono (.of_eq hmade hflights)⟩
  · rintro s (call | ⟨c, elapsed⟩) o k e ⟨hkept, hnumbered⟩ h
    · obtain ⟨⟨g, hg, hsafe⟩, hsized⟩ := h
      obtain ⟨hs', hg'⟩ := step_section hkept hg o hsafe.1 e
      exact ⟨⟨hs', numbered_section hnumbered o e⟩, ⟨_, hg', hsafe.2 _⟩, hsized.2 _⟩
    · exact h.1.elim
  rintro x i e w o k t - - - - h
  have hgrows : Grows x.state ((machine cfg).exec o e x.state).1 :=
    ⟨(grows_section cfg x.state o e).made, (grows_section cfg x.state o e).flight⟩
  exact h.mono hgrows

lemma mayPut_of_goes (hkept : Kept cfg s) (hnumbered : Numbered s) {w : Work} {o : Op}
    {k : Ret o → Prog Op Ret Unit} (h : Goes cfg s w (.op o k)) : MayPut cfg s o := by
  rintro c key f e mark rfl store hstore
  cases w with
  | usage c' elapsed => exact h.1.elim
  | request call =>
    obtain ⟨⟨g, hg, hsafe⟩, hsized⟩ := h
    obtain ⟨rfl, rfl, hentry⟩ := hsafe.1
    obtain ⟨r, hmade, hkey, -⟩ := hg.entries e (hentry e rfl)
    refine ⟨hsized.1, hnumbered.positive _ e r hmade, fun key' e' he' hseq => ?_⟩
    -- an entry with the number is the one made for this request, so it has this request's key
    obtain ⟨r', hmade', hkey', -⟩ := hkept.entry _ store key' e' hstore he'
    obtain ⟨-, rfl⟩ := hnumbered.unique _ e' r' e r hmade' hmade hseq
    rw [← hkey', hkey]

def State.Checked (cfg : Nat → Settings) (s : State) (o : Op) : Prop :=
  ∀ c key f entry mark, o = .finish c key f entry mark → ∀ store, s.stores[c]? = some store →
    ∀ now locked, locked c = true →
      finish? (cfg c) ⟨store, s.budget, s.stores⟩ key f entry mark now locked =
        some (finish (cfg c) ⟨store, s.budget, s.stores⟩ key f entry mark now locked)

/-- **The accounts of the caches are exact and within their limits**, in every state of every run
while the limit of the budget stays, and no subtraction that may come next goes below zero. -/
theorem accounts_exact (cfg : Nat → Settings) (caches limit : Nat) (hlimit : limit ≠ 0)
    (x : Configuration Op Ret State Work)
    (hx : (accounted cfg).Reach SameLimit ⟨.initial caches limit, []⟩ x) :
    x.state.Accounted cfg limit ∧
      (∀ t ∈ x.threads, ∀ o, t.rest.next? = some o → x.state.Checked cfg o) ∧
      ∀ (c : Nat) (store : Store), x.state.stores[c]? = some store → ∀ now,
        purge? ⟨store, x.state.budget, x.state.stores⟩ now =
          some (purge ⟨store, x.state.budget, x.state.stores⟩ now) := by
  have haccounted : x.state.Accounted cfg limit := by
    refine (hx.and fun y hy => reach_goes hy).state (accounted_initial cfg caches limit) ?_ ?_
    · rintro (call | ⟨c, elapsed⟩) s s' hs hbegins
      · simp only [accounted, system] at hbegins
        split at hbegins
        · cases hbegins
          exact hs
        · cases hbegins
      cases hbegins
      exact accounted_usage hs c elapsed
    rintro y i e w o k hs ⟨hlimits, ⟨hkept, hnumbered⟩, hgoes⟩ hi
    exact accounted_section hlimit hs o e (hlimits i e rfl)
      (mayPut_of_goes hkept hnumbered (hgoes _ (mem_of_getElem? hi)))
  obtain ⟨⟨hkept, hnumbered⟩, hgoes⟩ := reach_goes hx
  refine ⟨haccounted, ?_, ?_⟩
  · rintro ⟨w, p⟩ ht o ho c key f entry mark rfl store hstore now locked hlocked
    cases p with
    | ret a => cases ho
    | op o' k =>
      cases ho
      have hput := mayPut_of_goes hkept hnumbered (hgoes _ ht)
      refine (finish_spec hlimit (haccounted.exact hstore) f mark now hlocked ?_).1
      rintro e rfl
      exact hput c key f e mark rfl store hstore
  · intro c store hstore now
    exact (purge_spec (haccounted.exact hstore).held now).1

def keptAndPurged : List (Event Env Work) :=
  [.start (.request ⟨0, plainGet⟩), .step 0 calm, .step 0 calm, .step 0 calm, .step 0 calm,
    .step 0 calm, .start (.usage 0 1)]

def keepsLimit (_ : Configuration Op Ret State Work) : Event Env Work → Bool
  | .start _ => true
  | .step _ e => e.limit.isNone

theorem keptAndPurged_accounted : ∃ x : Configuration Op Ret State Work,
    (accounted fun _ => shortLived).Reach SameLimit ⟨.initial 1 100000, []⟩ x ∧
      x.state.stores.map Store.entryCount = [1] ∧
      x.state.Accounted (fun _ => shortLived) 100000 := by
  have hok : ∀ ev ∈ keptAndPurged, ∀ x, keepsLimit x ev = true → SameLimit x ev := by
    rintro ev - x hok i e rfl
    exact Option.isNone_iff_eq_none.mp hok
  obtain ⟨x, hx, hp⟩ : ∃ x, (accounted fun _ => shortLived).Reach SameLimit
      ⟨.initial 1 100000, []⟩ x ∧ decide (x.state.stores.map Store.entryCount = [1]) = true :=
    System.exists_reach_of_trace hok (by decide +kernel)
  exact ⟨x, hx, of_decide_eq_true hp, (accounts_exact _ 1 100000 (by decide) x hx).1⟩

end Rproxy.Cache
