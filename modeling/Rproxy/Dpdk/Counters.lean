import Rproxy.Data.Holders
import Rproxy.Data.Total
import Rproxy.Dpdk.Owned

/-!
# The counters of the sessions

Each source address counts its sessions three times: in `held`, for each prefix, and so in the sum
over the prefixes.
-/

namespace Rproxy.Dpdk
open Bool Table List Option

lemma Sheet.prefixes_down (s : Sheet) {net : UInt32} {ports : PrefixPorts}
    (h : s.prefixes.lookup net = some ports) : (s.down net).prefixes =
      if ports.held - 1 = 0 then s.prefixes.erase net
      else s.prefixes.insert net ⟨ports.held - 1,
        ports.waiting.drop (ports.waiting.length - 2 * (ports.held - 1))⟩ := by
  rw [Sheet.down, h]

/-! ## The counters -/

inductive Counter where
  | held (li : ℕ)
  | prefixes (li : ℕ)
  | ofNet (li : ℕ) (net : UInt32)

namespace Counter

def li : Counter → ℕ
  | held li => li
  | prefixes li => li
  | ofNet li _ => li

def ofSheet : Counter → Sheet → ℕ
  | held _, s => s.held
  | prefixes _, s => s.prefixes.total PrefixPorts.held
  | ofNet _ net, s => s.ofNet net

def covers : Counter → FwdKey → Bool
  | held _, _ => true
  | prefixes _, _ => true
  | ofNet _ net, k => prefixOf k.client.ip = net

def value (c : Counter) (b : Book) : ℕ := (b.sheets[c.li]?).elim 0 c.ofSheet

def taken (c : Counter) (b : Book) : ℕ :=
  (b.sheets[c.li]?).elim 0 fun s => s.seats.countP fun x => x.any fun w => c.covers w.1

def up : Counter → Due → Bool
  | held li, .heldUp li' => li = li'
  | prefixes li, .prefixUp li' _ _ _ => li = li'
  | ofNet li net, .prefixUp li' net' _ _ => li = li' && net' = net
  | _, _ => false

def down : Counter → Due → Bool
  | held li, .heldDown li' => li = li'
  | prefixes li, .prefixDown li' _ => li = li'
  | ofNet li net, .prefixDown li' net' => li = li' && net' = net
  | _, _ => false

def counted (c : Counter) (p : Place) (x : Option (FwdKey × ℕ)) : ℕ :=
  if c.li = p.1 ∧ x.any (fun w => c.covers w.1) = true then 1 else 0

variable {c : Counter} {b : Book} {p : Place}

lemma value_onSheet (c : Counter) (b : Book) (li : ℕ) (f : Sheet → Sheet) :
    c.value (b.onSheet li f) =
      if li = c.li then (b.sheets[c.li]?).elim 0 fun s => c.ofSheet (f s) else c.value b := by
  rw [value, Book.getElem?_onSheet]
  split
  · cases b.sheets[c.li]? <;> rfl
  · rfl

lemma taken_onSheet {li : ℕ} {f : Sheet → Sheet} (hf : ∀ s, (f s).seats = s.seats) :
    c.taken (b.onSheet li f) = c.taken b := by
  rw [taken, taken, Book.getElem?_onSheet]
  split
  · cases b.sheets[c.li]? with
    | none => rfl
    | some s =>
      show (f s).seats.countP _ = s.seats.countP _
      rw [hf]
  · rfl

lemma value_put (c : Counter) (b : Book) (p : Place) (x : Option (FwdKey × ℕ)) :
    c.value (b.put p x) = c.value b := by
  rw [Book.put, value_onSheet]
  split
  · rw [value]
    cases b.sheets[c.li]? with
    | none => rfl
    | some s => cases c <;> rfl
  · rfl

lemma taken_put {x y : Option (FwdKey × ℕ)} (h : b.seat p = some y) :
    c.taken (b.put p x) + c.counted p y = c.taken b + c.counted p x := by
  rw [Book.seat, bind_eq_some_iff] at h
  obtain ⟨s, hs, hy⟩ := h
  rw [taken, taken, Book.put, Book.getElem?_onSheet, counted, counted]
  by_cases hli : c.li = p.1
  · rw [hli, hs]
    have hset := Holders.countP_set_add (fun x => x.any fun w => c.covers w.1) x hy
    simpa using hset
  rw [if_neg (Ne.symm hli)]
  simp [hli]

lemma ofSheet_pop (c : Counter) (s : Sheet) (net : UInt32) : c.ofSheet
    (s.pop net) = c.ofSheet s := by
  rw [Sheet.pop]
  cases hports : s.prefixes.lookup net with
  | none => rfl
  | some ports =>
    cases c with
    | held li => rfl
    | prefixes li =>
      have htotal := total_insert_add PrefixPorts.held s.prefixes net
        { ports with waiting := ports.waiting.tail }
      rw [hports] at htotal
      exact Nat.add_right_cancel htotal
    | ofNet li net' =>
      show (((s.prefixes.insert net _).lookup net').elim 0 PrefixPorts.held) = s.ofNet net'
      rw [lookup_insert_eq, Sheet.ofNet]
      split
      next heq =>
        rw [heq, hports]
        rfl
      · rfl

lemma ofSheet_down {s : Sheet} {net : UInt32} (li : ℕ) (h : 1 ≤ s.ofNet net) (c : Counter)
    (hli : c.li = li) : c.ofSheet (s.down net) + (if c.down (.prefixDown li net) then 1 else 0) =
      c.ofSheet s := by
  obtain ⟨ports, hports, hheld⟩ : ∃ ports, s.prefixes.lookup net = some ports ∧ 1 ≤ ports.held := by
    rw [Sheet.ofNet] at h
    cases hports : s.prefixes.lookup net with
    | none =>
      rw [hports] at h
      exact absurd h (by simp)
    | some ports =>
      rw [hports] at h
      exact ⟨ports, rfl, h⟩
  have hprefixes := s.prefixes_down hports
  cases c with
  | held li' =>
    rw [Sheet.down, hports]
    rfl
  | prefixes li' =>
    have hdown : (prefixes li').down (.prefixDown li net) := by simp [down, ← hli, Counter.li]
    rw [hdown]
    show (s.down net).prefixes.total PrefixPorts.held + 1 = s.prefixes.total PrefixPorts.held
    rw [hprefixes]
    by_cases hzero : ports.held - 1 = 0
    · have herase := total_erase_add PrefixPorts.held s.prefixes net
      rw [hports, elim_some] at herase
      rw [if_pos hzero]
      omega
    have hinsert := total_insert_add PrefixPorts.held s.prefixes net ⟨ports.held - 1,
      ports.waiting.drop (ports.waiting.length - 2 * (ports.held - 1))⟩
    rw [hports, elim_some] at hinsert
    rw [if_neg hzero]
    simp only at hinsert
    omega
  | ofNet li' net' =>
    have hdown : (ofNet li' net').down (.prefixDown li net) = decide (net = net') := by
      simp [down, ← hli, Counter.li]
    rw [hdown]
    show (s.down net).ofNet net' + _ = s.ofNet net'
    rw [Sheet.ofNet, Sheet.ofNet, hprefixes]
    by_cases hnet : net' = net
    · subst hnet
      rw [hports]
      by_cases hzero : ports.held - 1 = 0
      · rw [if_pos hzero]
        simp
        omega
      rw [if_neg hzero, lookup_insert_eq]
      simp
      omega
    by_cases hzero : ports.held - 1 = 0
    · rw [if_pos hzero, lookup_erase_eq, if_neg hnet]
      simp [Ne.symm hnet]
    rw [if_neg hzero, lookup_insert_eq, if_neg hnet]
    simp [Ne.symm hnet]

lemma ofSheet_up (s : Sheet) (share : ℕ) (net : UInt32) (n id li : ℕ) (c : Counter)
    (hli : c.li = li) : c.ofSheet (s.up share net n id) =
      c.ofSheet s + (if c.up (.prefixUp li net n id) then 1 else 0) := by
  cases c with
  | held li' => rfl
  | prefixes li' =>
    have hup : (prefixes li').up (.prefixUp li net n id) := by simp [up, ← hli, Counter.li]
    rw [hup]
    show Table.total PrefixPorts.held (s.prefixes.insert net _) =
      Table.total PrefixPorts.held s.prefixes + 1
    have hinsert := total_insert_add PrefixPorts.held s.prefixes net
      ⟨((s.prefixes.lookup net).getD ⟨0, []⟩).held + 1,
        ((s.prefixes.lookup net).getD ⟨0, []⟩).waiting.drop
          (((s.prefixes.lookup net).getD ⟨0, []⟩).waiting.length + 1 -
            min share (2 * (((s.prefixes.lookup net).getD ⟨0, []⟩).held + 1))) ++ [(n, id)]⟩
    have hold : (s.prefixes.lookup net).elim 0 PrefixPorts.held =
        ((s.prefixes.lookup net).getD ⟨0, []⟩).held := by
      cases s.prefixes.lookup net <;> rfl
    rw [hold] at hinsert
    refine Nat.add_right_cancel (m := ((s.prefixes.lookup net).getD ⟨0, []⟩).held) ?_
    rw [hinsert]
    show _ + (((s.prefixes.lookup net).getD ⟨0, []⟩).held + 1) = _
    omega
  | ofNet li' net' =>
    have hup : (ofNet li' net').up (.prefixUp li net n id) = decide (net = net') := by
      simp [up, ← hli, Counter.li]
    rw [hup]
    show ((s.prefixes.insert net _).lookup net').elim 0 PrefixPorts.held = s.ofNet net' + _
    rw [lookup_insert_eq, Sheet.ofNet]
    by_cases hnet : net' = net
    · subst hnet
      cases s.prefixes.lookup net' <;> simp
    rw [if_neg hnet]
    simp [Ne.symm hnet]

end Counter

structure Balanced (b : Book) (g : Hand) : Prop where
  equal : ∀ c : Counter, c.value b + g.dues.countP c.up = c.taken b + g.dues.countP c.down
  oneWay : ∀ c : Counter, g.dues.countP c.up = 0 ∨ g.dues.countP c.down = 0

section
variable {cfg : Config} {b : Book} {g : Hand} {d : Due} {ds : List Due} {c : Counter}

lemma Balanced.value_pos (h : Balanced b g) (hdues : g.dues = d :: ds) (hdown : c.down d) :
    1 ≤ c.value b := by
  have hequal := h.equal c
  have hpos : 1 ≤ g.dues.countP c.down := by
    rw [hdues, countP_cons, if_pos hdown]
    omega
  rcases h.oneWay c with hup | hdown <;> omega

lemma Balanced.exists_sheet (h : Balanced b g) (hdues : g.dues = d :: ds) (hup : c.up d) :
    ∃ s, b.sheets[c.li]? = some s := by
  have hequal := h.equal c
  have hpos : 1 ≤ g.dues.countP c.up := by
    rw [hdues, countP_cons, if_pos hup]
    omega
  have htaken : 1 ≤ c.taken b := by
    rcases h.oneWay c with hup | hdown <;> omega
  rw [Counter.taken] at htaken
  cases hs : b.sheets[c.li]? with
  | none =>
    rw [hs] at htaken
    exact absurd htaken (by simp)
  | some s => exact ⟨s, rfl⟩

variable {p : Place} {key : FwdKey}

lemma Book.sheets_forget : (b.forget key p).sheets = b.sheets := by
  rw [Book.forget]
  split <;> rfl

lemma taken_pay (cfg : Config) (c : Counter) (b : Book) (d : Due) (r : Ret d.op) :
    c.taken (b.after cfg d.op r) = c.taken b := by
  cases d with
  | row key p =>
    show c.taken (b.forget key p) = c.taken b
    rw [Counter.taken, Counter.taken, Book.sheets_forget]
  | stale row => rfl
  | heldDown li => exact Counter.taken_onSheet (b := b.lower _) fun s => rfl
  | prefixDown li net => exact Counter.taken_onSheet (b := b.lower _) fun s => s.seats_down net
  | heldUp li | prefixUp li net n id => exact Counter.taken_onSheet fun s => rfl

variable {a : Book}

lemma Balanced.value_onSheet (h : Balanced b g) (hdues : g.dues = d :: ds) {li : ℕ}
    {f : Sheet → Sheet} (ha : a.sheets = b.sheets)
    (hapart : c.li ≠ li → c.down d = false ∧ c.up d = false)
    (hf : ∀ s, b.sheets[li]? = some s → c.li = li →
      c.ofSheet (f s) + (if c.down d then 1 else 0) = c.ofSheet s + (if c.up d then 1 else 0)) :
    c.value (a.onSheet li f) + (if c.down d then 1 else 0) =
      c.value b + (if c.up d then 1 else 0) := by
  rw [Counter.value_onSheet, ha]
  by_cases hli : li = c.li
  · rw [if_pos hli]
    cases hs : b.sheets[c.li]? with
    | some s =>
      rw [Counter.value, hs]
      exact hf s (hli ▸ hs) hli.symm
    | none =>
      -- nothing is owed on a sheet that is not there
      have hzero : c.value b = 0 := by rw [Counter.value, hs]; rfl
      have hdown : c.down d = false := by
        by_contra hne
        have := h.value_pos hdues (eq_true_of_not_eq_false hne)
        omega
      have hup : c.up d = false := by
        by_contra hne
        obtain ⟨s, hsome⟩ := h.exists_sheet hdues (eq_true_of_not_eq_false hne)
        cases hs.symm.trans hsome
      rw [hdown, hup, hzero]
      rfl
  · obtain ⟨hdown, hup⟩ := hapart (Ne.symm hli)
    rw [if_neg hli, hdown, hup, Counter.value, ha, Counter.value]

lemma Balanced.value_pay (cfg : Config) (h : Balanced b g) (hdues : g.dues = d :: ds)
    (r : Ret d.op) (c : Counter) : c.value (b.after cfg d.op r) + (if c.down d then 1 else 0) =
      c.value b + (if c.up d then 1 else 0) := by
  cases d with
  | row key p =>
    have hsame : c.value (b.forget key p) = c.value b := by
      rw [Counter.value, Counter.value, Book.sheets_forget]
    cases c <;> exact hsame
  | stale row => cases c <;> rfl
  | heldDown li =>
    refine h.value_onSheet hdues (a := b.lower _) rfl (fun hne => ?_) fun s hs hli => ?_
    · cases c with
      | held li' => exact ⟨decide_eq_false hne, rfl⟩
      | _ => exact ⟨rfl, rfl⟩
    cases c with
    | held li' =>
      have hdown : (Counter.held li').down (.heldDown li) := decide_eq_true hli
      have hpos := h.value_pos hdues hdown
      rw [Counter.value, hli, hs] at hpos
      have hheld : 1 ≤ s.held := hpos
      rw [hdown]
      show s.held - 1 + 1 = s.held
      omega
    | _ => rfl
  | prefixDown li net =>
    refine h.value_onSheet hdues (a := b.lower _) rfl (fun hne => ?_) fun s hs hli => ?_
    · cases c with
      | held li' => exact ⟨rfl, rfl⟩
      | prefixes li' => exact ⟨decide_eq_false hne, rfl⟩
      | ofNet li' net' =>
        have hli : decide (li' = li) = false := decide_eq_false hne
        exact ⟨by rw [Counter.down, hli, Bool.false_and], rfl⟩
    have hdown : (Counter.ofNet li net).down (.prefixDown li net) := by
      simp [Counter.down]
    have hpos := h.value_pos hdues hdown
    rw [Counter.value, show (Counter.ofNet li net).li = li from rfl, hs] at hpos
    have hup : c.up (.prefixDown li net) = false := by cases c <;> rfl
    rw [hup]
    exact Counter.ofSheet_down li hpos c hli
  | heldUp li =>
    refine h.value_onSheet hdues rfl (fun hne => ?_) fun s hs hli => ?_
    · cases c with
      | held li' => exact ⟨rfl, decide_eq_false hne⟩
      | _ => exact ⟨rfl, rfl⟩
    cases c with
    | held li' =>
      have hup : (Counter.held li').up (.heldUp li) := decide_eq_true hli
      rw [hup]
      rfl
    | _ => rfl
  | prefixUp li net n id =>
    refine h.value_onSheet hdues rfl (fun hne => ?_) fun s hs hli => ?_
    · cases c with
      | held li' => exact ⟨rfl, rfl⟩
      | prefixes li' => exact ⟨rfl, decide_eq_false hne⟩
      | ofNet li' net' =>
        have hli : decide (li' = li) = false := decide_eq_false hne
        exact ⟨rfl, by rw [Counter.up, hli, Bool.false_and]⟩
    have hdown : c.down (.prefixUp li net n id) = false := by cases c <;> rfl
    rw [hdown]
    exact Counter.ofSheet_up s cfg.share net n id li c hli

lemma Balanced.underflow_pay (h : Balanced b g) (hdues : g.dues = d :: ds) (r : Ret d.op)
    (hb : b.underflow = false) : (b.after cfg d.op r).underflow = false := by
  cases d with
  | row key p =>
    show (b.forget key p).underflow = false
    rw [Book.forget]
    split <;> exact hb
  | stale row => exact hb
  | heldDown li =>
    have hpos := h.value_pos (c := .held li) hdues (decide_eq_true rfl)
    have hne : (b.sheets[li]?).map Sheet.held ≠ some 0 := by
      intro hzero
      obtain ⟨s, hs, hheld⟩ := map_eq_some_iff.mp hzero
      rw [Counter.value, show (Counter.held li).li = li from rfl, hs] at hpos
      have hheld' : 1 ≤ s.held := hpos
      omega
    show (b.underflow || decide _) = false
    rw [hb]
    exact decide_eq_false hne
  | prefixDown li net =>
    have hpos := h.value_pos (c := .ofNet li net) hdues (by simp [Counter.down])
    have hne : ((b.sheets[li]?).bind fun s => (s.prefixes.lookup net).map PrefixPorts.held) ≠
        some 0 := by
      intro hzero
      obtain ⟨s, hs, hports⟩ := bind_eq_some_iff.mp hzero
      obtain ⟨ports, hlookup, hheld⟩ := map_eq_some_iff.mp hports
      rw [Counter.value, show (Counter.ofNet li net).li = li from rfl, hs] at hpos
      have hpos' : 1 ≤ s.ofNet net := hpos
      rw [Sheet.ofNet, hlookup, elim_some] at hpos'
      omega
    show (b.underflow || decide _) = false
    rw [hb]
    exact decide_eq_false hne
  | heldUp li | prefixUp li net n id => exact hb

lemma Balanced.pay (h : Balanced b g) (hdues : g.dues = d :: ds) (r : Ret d.op) :
    Balanced (b.after cfg d.op r) { g with dues := ds } := by
  constructor
  · intro c
    have hequal := h.equal c
    have hvalue := h.value_pay cfg hdues r c
    have htaken := taken_pay cfg c b d r
    rw [hdues, countP_cons, countP_cons] at hequal
    simp only
    omega
  intro c
  have honeWay := h.oneWay c
  rw [hdues, countP_cons, countP_cons] at honeWay
  simp only
  omega

variable {g' : Hand}

lemma Balanced.of_equal (hequal : ∀ c : Counter, c.value b = c.taken b)
    (hdues : ∀ c : Counter, g'.dues.countP c.up = 0 ∧ g'.dues.countP c.down = 0) :
    Balanced b g' := by
  refine ⟨fun c => ?_, fun c => .inl (hdues c).1⟩
  rw [hequal c, (hdues c).1, (hdues c).2]

lemma Balanced.equal_of_free (h : Balanced b g) (hdues : g.dues = []) (c : Counter) :
    c.value b = c.taken b := by
  have hequal := h.equal c
  rwa [hdues] at hequal

lemma countP_counts (c : Counter) (p : Place) (s : Session) (i : ℕ) :
    (Hand.counts p s).countP c.up = 0 ∧
      (Hand.counts p s).countP c.down = c.counted p (some (s.key, i)) := by
  cases c with
  | held li | prefixes li | ofNet li net => simp [Hand.counts, countP_cons, Counter.up,
      Counter.down, Counter.counted, Counter.li, Counter.covers]

variable {s : Session}

lemma Balanced.leave (h : Balanced b g) (hdues : g.dues = [])
    (hseat : b.seat p = some (some (s.key, s.id))) (ha : a.sheets = (b.put p none).sheets)
    (hcounts : ∀ c : Counter, g'.dues.countP c.up = (Hand.counts p s).countP c.up ∧
      g'.dues.countP c.down = (Hand.counts p s).countP c.down) : Balanced a g' := by
  constructor
  · intro c
    obtain ⟨hup, hdown⟩ := countP_counts c p s s.id
    have hvalue : c.value a = c.value b := by
      rw [Counter.value, ha]
      exact c.value_put b p none
    have htaken : c.taken a + c.counted p (some (s.key, s.id)) = c.taken b + c.counted p none := by
      rw [Counter.taken, ha]
      exact Counter.taken_put hseat
    have hnone : c.counted p none = 0 := by simp [Counter.counted]
    rw [hvalue, (hcounts c).1, (hcounts c).2, h.equal_of_free hdues c]
    omega
  · intro c
    exact .inl ((hcounts c).1.trans (countP_counts c p s s.id).1)

lemma Balanced.enter (h : Balanced b g) (hdues : g.dues = []) {i n : ℕ}
    (hseat : b.seat p = some none) (ha : a.sheets = (b.put p (some (key, i))).sheets)
    (hg : g'.dues = [.heldUp p.1, .prefixUp p.1 (prefixOf key.client.ip) n i]) : Balanced a g' := by
  have hcounts : ∀ c : Counter, g'.dues.countP c.up = c.counted p (some (key, i)) ∧
      g'.dues.countP c.down = 0 := by
    intro c
    rw [hg]
    cases c with
    | held li | prefixes li | ofNet li net => simp [countP_cons, Counter.up, Counter.down,
        Counter.counted, Counter.li, Counter.covers]
  constructor
  · intro c
    have hvalue : c.value a = c.value b := by
      rw [Counter.value, ha]
      exact c.value_put b p _
    have htaken : c.taken a + c.counted p none = c.taken b + c.counted p (some (key, i)) := by
      rw [Counter.taken, ha]
      exact Counter.taken_put hseat
    have hnone : c.counted p none = 0 := by simp [Counter.counted]
    rw [hvalue, (hcounts c).1, (hcounts c).2, h.equal_of_free hdues c]
    omega
  · intro c
    exact .inr (hcounts c).2

lemma sheets_takeOut {shard : ℕ} : (b.takeOut p s shard).sheets = (b.put p none).sheets := by
  rw [Book.takeOut]
  split
  · exact Book.sheets_forget
  · rfl

lemma countP_left (c : Counter) (p : Place) (s : Session) (shard : ℕ) :
    (Hand.left p s shard).countP c.up = (Hand.counts p s).countP c.up ∧
      (Hand.left p s shard).countP c.down = (Hand.counts p s).countP c.down := by
  rw [Hand.left]
  split
  · exact ⟨rfl, rfl⟩
  cases c <;> exact ⟨rfl, rfl⟩

lemma Balanced.take {o : Op} (h : Balanced b g) (hdues : g.dues = []) (hfree : g.Free o)
    (hslot : ∀ p, g.slot = some p → b.has p ∧ b.who p = none) {r : Ret o}
    (hsaw : b.Saw o r) : Balanced (b.after cfg o r) (g.take o r) := by
  have hsame : ∀ {a : Book} {g' : Hand}, a.sheets = b.sheets →
      (∀ c : Counter, g'.dues.countP c.up = 0 ∧ g'.dues.countP c.down = 0) → Balanced a g' := by
    intro a g' ha hcounts
    refine Balanced.of_equal (fun c => ?_) hcounts
    have hequal := h.equal_of_free hdues c
    rw [Counter.value, Counter.taken, ha]
    exact hequal
  have hnone : ∀ c : Counter, g.dues.countP c.up = 0 ∧ g.dues.countP c.down = 0 := by
    intro c
    rw [hdues]
    exact ⟨rfl, rfl⟩
  have hend : ∀ {p s shard}, b.has p ∧ b.who p = some (s.key, s.id) →
      Balanced (b.takeOut p s shard) { g with slot := some p, dues := Hand.left p s shard } :=
    fun hseat => h.leave hdues (Book.seat_of_has hseat.1 hseat.2) sheets_takeOut
      fun c => countP_left c _ _ _
  cases o with
  | forward p key u port now found =>
    cases r with
    | some verdict => exact h
    | none => exact hsame rfl fun c => by cases c <;> exact ⟨rfl, rfl⟩
  | takeStale => exact hsame rfl hnone
  | clearRow row =>
    refine hsame ?_ hnone
    show (b.clear row).sheets = b.sheets
    rw [Book.clear]
    split
    · rfl
    · exact Book.sheets_forget
  | popWaiting li net =>
    cases r with
    | room | full => exact h
    | waiting n id =>
      refine Balanced.of_equal (fun c => ?_) hnone
      show c.value (b.onSheet li _) = c.taken (b.onSheet li _)
      rw [Counter.taken_onSheet fun s => s.seats_pop net, ← h.equal_of_free hdues c,
        Counter.value_onSheet]
      split
      · simp only [Counter.ofSheet_pop]
        rfl
      · rfl
  | endWaiting p id shard =>
    cases r with
    | none => exact h
    | some s => exact hend hsaw
  | probe p shard =>
    rcases r with _ | _ | ⟨_ | s⟩
    · exact h
    · exact h
    · exact hsame rfl fun c => ⟨rfl, rfl⟩
    · exact hend hsaw
  | install p s =>
    obtain ⟨-, -, hgslot⟩ := hfree
    obtain ⟨hhas, hempty⟩ := hslot p hgslot
    have hid : r = b.nextId := hsaw
    exact h.enter hdues (Book.seat_of_has hhas hempty) rfl (by rw [← hid]; rfl)
  | sweepSlot p now =>
    cases r with
    | empty | stays => exact h
    | ended s =>
      refine h.leave hdues (Book.seat_of_has hsaw.1 hsaw.2) rfl fun c => ?_
      cases c <;> exact ⟨rfl, rfl⟩
  | lockShard key | unlockShard shard | unlockSlot p => exact hsame rfl hnone
  | forget key p | pushStale row | heldDown li | prefixDown li net | heldUp li
  | prefixUp li net n id => exact hfree.elim
  | _ => exact h

lemma underflow_take {o : Op} (hfree : g.Free o) {r : Ret o} :
    (b.after cfg o r).underflow = b.underflow := by
  have hforget : ∀ {a : Book} {key p}, (a.forget key p).underflow = a.underflow := by
    intro a key p
    rw [Book.forget]
    split <;> rfl
  have htake : ∀ {p s shard}, (b.takeOut p s shard).underflow = b.underflow := by
    intro p s shard
    rw [Book.takeOut]
    split
    · exact hforget
    · rfl
  cases o with
  | forget key p => exact hforget
  | clearRow row =>
    show (b.clear row).underflow = b.underflow
    rw [Book.clear]
    split
    · rfl
    · exact hforget
  | popWaiting li net => cases r <;> rfl
  | endWaiting p id shard =>
    cases r with
    | none => rfl
    | some s => exact htake
  | probe p shard =>
    rcases r with _ | _ | ⟨_ | s⟩
    · rfl
    · rfl
    · rfl
    · exact htake
  | sweepSlot p now => cases r <;> rfl
  | heldDown li | prefixDown li net => exact hfree.elim
  | _ => rfl

end

/-! ## The prefixes -/

namespace Sheet

def Fits (share : ℕ) (s : Sheet) : Prop := ∀ net ports, s.prefixes.lookup net = some ports →
  1 ≤ ports.held ∧ ports.waiting.length ≤ min share (2 * ports.held)

variable {share : ℕ} {s : Sheet}

lemma Fits.pop (h : s.Fits share) (net : UInt32) : (s.pop net).Fits share := by
  rw [Sheet.pop]
  cases hports : s.prefixes.lookup net with
  | none => exact h
  | some ports =>
    intro net' ports' hlookup
    obtain ⟨hheld, hwaiting⟩ := h net ports hports
    rcases lookup_insert_cases hlookup with ⟨-, rfl⟩ | hold
    · refine ⟨hheld, ?_⟩
      show ports.waiting.tail.length ≤ min share (2 * ports.held)
      rw [length_tail]
      omega
    · exact h net' ports' hold

lemma Fits.down (h : s.Fits share) (net : UInt32) : (s.down net).Fits share := by
  cases hports : s.prefixes.lookup net with
  | none =>
    rw [Sheet.down, hports]
    exact h
  | some ports =>
    obtain ⟨hheld, hwaiting⟩ := h net ports hports
    intro net' ports' hlookup
    rw [s.prefixes_down hports] at hlookup
    by_cases hzero : ports.held - 1 = 0
    · rw [if_pos hzero, lookup_erase_eq] at hlookup
      split at hlookup
      · cases hlookup
      · exact h net' ports' hlookup
    rw [if_neg hzero] at hlookup
    rcases lookup_insert_cases hlookup with ⟨-, rfl⟩ | hold
    · refine ⟨by simp only; omega, ?_⟩
      rw [length_drop]
      simp only
      omega
    · exact h net' ports' hold

lemma Fits.up (h : s.Fits share) (hshare : 1 ≤ share) (net : UInt32) (n id : ℕ) :
    (s.up share net n id).Fits share := by
  intro net' ports' hlookup
  rcases lookup_insert_cases hlookup with ⟨-, rfl⟩ | hold
  · refine ⟨Nat.le_add_left 1 _, ?_⟩
    rw [length_append, length_drop]
    simp only [length_singleton]
    omega
  · exact h net' ports' hold

end Sheet

lemma Config.share_pos (cfg : Config) : 1 ≤ cfg.share := by
  have hmin := cfg.min_pos
  have hslots : 1 ≤ cfg.slots := Nat.le_add_left 1 _
  rw [Config.share, shareOf]
  omega

section
variable {cfg : Config} {b : Book} {o : Op}

def Book.Fit (b : Book) (share : ℕ) : Prop :=
  ∀ (li : ℕ) (s : Sheet), b.sheets[li]? = some s → s.Fits share

lemma Book.Fit.onSheet {share li : ℕ} {f : Sheet → Sheet} (h : b.Fit share)
    (hf : ∀ s : Sheet, s.Fits share → (f s).Fits share) : (b.onSheet li f).Fit share := by
  intro lj s hs
  rw [Book.getElem?_onSheet] at hs
  split at hs
  · obtain ⟨s', hs', rfl⟩ := map_eq_some_iff.mp hs
    exact hf s' (h lj s' hs')
  · exact h lj s hs

lemma Book.Fit.after (h : b.Fit cfg.share) (r : Ret o) : (b.after cfg o r).Fit cfg.share := by
  have hput : ∀ {p x}, (b.put p x).Fit cfg.share := h.onSheet fun s hs => hs
  have hforget : ∀ {a : Book} {key p}, a.Fit cfg.share → (a.forget key p).Fit cfg.share := by
    intro a key p ha li s hs
    rw [Book.sheets_forget] at hs
    exact ha li s hs
  have htake : ∀ {p s shard}, (b.takeOut p s shard).Fit cfg.share := by
    intro p s shard
    rw [Book.takeOut]
    split
    · exact hforget hput
    · exact hput
  cases o with
  | forget key p => exact hforget h
  | clearRow row =>
    rw [Book.after, Book.clear]
    split
    · exact h
    · exact hforget h
  | popWaiting li net =>
    cases r with
    | room | full => exact h
    | waiting n id => exact h.onSheet fun s hs => hs.pop net
  | endWaiting p id shard =>
    cases r with
    | none => exact h
    | some s => exact htake
  | heldDown li => exact Book.Fit.onSheet (b := b.lower _) h fun s hs => hs
  | prefixDown li net => exact Book.Fit.onSheet (b := b.lower _) h fun s hs => hs.down net
  | probe p shard =>
    rcases r with _ | _ | ⟨_ | s⟩
    · exact h
    · exact h
    · exact h
    · exact htake
  | install p s => exact hput
  | heldUp li => exact h.onSheet fun s hs => hs
  | prefixUp li net n id => exact h.onSheet fun s hs => hs.up cfg.share_pos net n id
  | sweepSlot p now =>
    cases r with
    | empty | stays => exact h
    | ended s => exact hput
  | _ => exact h

end
end Rproxy.Dpdk
