import Rproxy.Data.Holders
import Rproxy.Udp.Unreplied

/-!
# Counts and evictions of sessions without a reply

The sessions that wait are counted outside the queues, and a queue takes out one that is done only
when it meets it.
-/

namespace Rproxy.Udp
open Function List Option
variable {w : World} {q : Queue} {source : IpAddr} {id : ℕ} {s : Waiting} {t : UnrepliedTable}
variable {evicted : Bool} {l rest : List ℕ} {pq : PrefixQueue} {new s' : Waiting} {c j o rule : ℕ}

def Waiting.inQueue (q : Queue) (s : Waiting) : Bool :=
  match q with
  | some rule => s.rule = rule
  | none => s.descriptor

def Waiting.waits (q : Queue) (source : IpAddr) (s : Waiting) : Bool :=
  !s.done && (s.inQueue q && s.source = source)

def Waiting.waitsIn (q : Queue) (s : Waiting) : Bool := !s.done && s.inQueue q

open Waiting

def World.waiting (w : World) (q : Queue) (source : IpAddr) : ℕ :=
  w.sessions.countP (waits q source)

def World.holders (w : World) (c : ℕ) : ℕ :=
  w.sessions.countP (fun s => !s.done && s.liveRule = c) +
    w.sessions.countP (fun s => !s.done && s.liveAll = c)

/-! ## The invariant -/

abbrev Owner := ℕ → Option (Queue × IpAddr)

variable {owner : Owner}

/-- A queue's table is right: its orders hold sessions of the queue, the oldest first, and every one
that waits. -/
structure TableOk (owner : Owner) (sessions : List Waiting) (q : Queue) (t : UnrepliedTable) :
    Prop where
  sorted : t.order.Pairwise (· < ·)
  member : ∀ id ∈ t.order, ∃ s, sessions[id]? = some s ∧ s.inQueue q = true
  queueSorted : ∀ source pq, t.byPrefix.lookup source = some pq → pq.order.Pairwise (· < ·)
  queueMember : ∀ source pq, t.byPrefix.lookup source = some pq → ∀ id ∈ pq.order,
    ∃ s, sessions[id]? = some s ∧ s.inQueue q = true ∧ s.source = source
  waiting : ∀ id s, sessions[id]? = some s → s.done = false → s.inQueue q = true →
    id ∈ t.order ∧ ∃ pq, t.byPrefix.lookup s.source = some pq ∧ id ∈ pq.order ∧ pq.live = s.live q
  entry : ∀ source pq, t.byPrefix.lookup source = some pq → owner pq.live = some (q, source)
  heaviest : ∀ source c, t.heaviest = some (source, c) → owner c = some (q, source)

structure World.Sound (cap : ℕ) (owner : Owner) (w : World) : Prop where
  counts : ∀ c, w.counts c = w.holders c
  rule : ∀ s ∈ w.sessions, owner s.liveRule = some (some s.rule, s.source)
  all : ∀ s ∈ w.sessions, owner s.liveAll = if s.descriptor then some (none, s.source) else none
  made : ∀ s ∈ w.sessions, s.liveAll < w.next
  unmade : ∀ c, w.next ≤ c → owner c = none
  tables : ∀ q, TableOk owner w.sessions q (w.tables q)
  bounded : ∀ rule source, w.waiting (some rule) source ≤ unrepliedPerPrefix cap

lemma sound_new (cap : ℕ) : World.new.Sound cap fun _ => none where
  counts _ := rfl
  rule := forall_mem_nil _
  all := forall_mem_nil _
  made := forall_mem_nil _
  unmade _ _ := rfl
  tables _ :=
    { sorted := List.Pairwise.nil
      member := forall_mem_nil _
      queueSorted := fun _ _ h => nomatch h
      queueMember := fun _ _ h => nomatch h
      waiting := fun _ _ h => nomatch h
      entry := fun _ _ h => nomatch h
      heaviest := fun _ _ h => nomatch h }
  bounded _ _ := Nat.zero_le _

variable {cap : ℕ}

lemma World.Sound.counts_entry (h : w.Sound cap owner)
    (hpq : (w.tables q).byPrefix.lookup source = some pq) :
    w.counts pq.live = w.waiting q source := by
  have howner := (h.tables q).entry source pq hpq
  -- a session that waits in the queue counts on the entry's count
  have hlive : ∀ s ∈ w.sessions, s.done = false → s.inQueue q → s.source = source →
      s.live q = pq.live := by
    intro s hs hdone hin hsource
    obtain ⟨id, hid⟩ := mem_iff_getElem?.mp hs
    obtain ⟨-, pq', hpq', -, hlive⟩ := (h.tables q).waiting id s hid hdone hin
    rw [hsource, hpq] at hpq'
    cases hpq'
    exact hlive.symm
  rw [h.counts, World.holders]
  cases q with
  | some rule =>
    have hall : w.sessions.countP (fun s => !s.done && s.liveAll = pq.live) = 0 := by
      rw [countP_eq_zero]
      intro s hs
      have hs' := h.all s hs
      rw [Bool.and_eq_true, decide_eq_true_eq]
      rintro ⟨-, heq⟩
      rw [heq, howner] at hs'
      split_ifs at hs'
      cases hs'
    rw [hall]
    refine countP_congr fun s hs => ?_
    have hs' := h.rule s hs
    simp only [waits, inQueue, Bool.and_eq_true, Bool.not_eq_true',
      decide_eq_true_eq]
    refine and_congr_right fun hdone => ⟨fun heq => ?_, fun heq => ?_⟩
    · rw [heq, howner] at hs'
      cases hs'
      exact ⟨rfl, rfl⟩
    · exact hlive s hs hdone (decide_eq_true heq.1) heq.2
  | none =>
    have hrule : w.sessions.countP (fun s => !s.done && s.liveRule = pq.live) = 0 := by
      rw [countP_eq_zero]
      intro s hs
      have hs' := h.rule s hs
      rw [Bool.and_eq_true, decide_eq_true_eq]
      rintro ⟨-, heq⟩
      rw [heq, howner] at hs'
      cases hs'
    rw [hrule, Nat.zero_add]
    refine countP_congr fun s hs => ?_
    have hs' := h.all s hs
    simp only [waits, inQueue, Bool.and_eq_true, Bool.not_eq_true',
      decide_eq_true_eq]
    refine and_congr_right fun hdone => ⟨fun heq => ?_, fun heq => ?_⟩
    · rw [heq, howner] at hs'
      split_ifs at hs' with hd
      cases hs'
      exact ⟨hd, rfl⟩
    · exact hlive s hs hdone heq.1 heq.2

lemma World.Sound.waiting_eq_zero (h : w.Sound cap owner)
    (hnone : (w.tables q).byPrefix.lookup source = none) : w.waiting q source = 0 := by
  rw [World.waiting, countP_eq_zero]
  intro s hs hwaits
  simp only [waits, Bool.and_eq_true, Bool.not_eq_true', decide_eq_true_eq] at hwaits
  obtain ⟨id, hid⟩ := mem_iff_getElem?.mp hs
  obtain ⟨-, pq, hpq, -⟩ := (h.tables q).waiting id s hid hwaits.1 hwaits.2.1
  rw [hwaits.2.2, hnone] at hpq
  cases hpq

lemma World.Sound.entry_of_counts (h : w.Sound cap owner) (howner : owner c = some (q, source))
    (hc : 0 < w.counts c) :
    ∃ pq, (w.tables q).byPrefix.lookup source = some pq ∧ pq.live = c := by
  rw [h.counts] at hc
  have hex : ∃ s ∈ w.sessions, s.done = false ∧ (s.liveRule = c ∨ s.liveAll = c) := by
    rcases Nat.add_pos_iff_pos_or_pos.mp hc with hc | hc
    · obtain ⟨s, hs, hp⟩ := countP_pos_iff.mp hc
      rw [Bool.and_eq_true, Bool.not_eq_true', decide_eq_true_eq] at hp
      exact ⟨s, hs, hp.1, .inl hp.2⟩
    obtain ⟨s, hs, hp⟩ := countP_pos_iff.mp hc
    rw [Bool.and_eq_true, Bool.not_eq_true', decide_eq_true_eq] at hp
    exact ⟨s, hs, hp.1, .inr hp.2⟩
  obtain ⟨s, hs, hdone, hlive⟩ := hex
  obtain ⟨id, hid⟩ := mem_iff_getElem?.mp hs
  rcases hlive with rfl | rfl
  · have hs' := h.rule s hs
    rw [howner] at hs'
    cases hs'
    obtain ⟨-, pq, hpq, -, hlive⟩ :=
      (h.tables (some s.rule)).waiting id s hid hdone (decide_eq_true rfl)
    exact ⟨pq, hpq, hlive⟩
  have hs' := h.all s hs
  rw [howner] at hs'
  split_ifs at hs' with hd
  cases hs'
  obtain ⟨-, pq, hpq, -, hlive⟩ := (h.tables none).waiting id s hid hdone hd
  exact ⟨pq, hpq, hlive⟩

/-! ## A session is done -/

def World.ended (w : World) (id : ℕ) (s : Waiting) (evicted : Bool) : World :=
  let counts := Function.update w.counts s.liveRule (w.counts s.liveRule - 1)
  { w with
    sessions := w.sessions.set id { s with done := true, evicted := evicted }
    counts := Function.update counts s.liveAll (counts s.liveAll - 1) }

lemma isDone_eq (hid : w.sessions[id]? = some s) : w.isDone id = s.done := by
  rw [World.isDone, hid, all_some]

lemma exists_of_not_isDone (h : w.isDone id = false) :
    ∃ s, w.sessions[id]? = some s ∧ s.done = false := by
  cases hid : w.sessions[id]? with
  | none =>
    rw [World.isDone, hid] at h
    cases h
  | some s =>
    rw [isDone_eq hid] at h
    exact ⟨s, rfl, h⟩

lemma finish_of_isDone (h : w.isDone id) : w.finish id = (w, false) := by
  rw [World.finish]
  split
  next s hid =>
    rw [isDone_eq hid] at h
    rw [if_pos h]
  · rfl

lemma finish_eq (hid : w.sessions[id]? = some s) (hdone : s.done = false) :
    w.finish id = (w.ended id s s.evicted, true) := by
  simp only [World.finish, hid, hdone, Bool.false_eq_true, if_false]
  rfl

lemma evict_of_isDone (h : w.isDone id) : w.evict id = (w, false) := by
  rw [World.evict, finish_of_isDone h]

lemma evict_eq (hid : w.sessions[id]? = some s) (hdone : s.done = false) :
    w.evict id = (w.ended id s true, true) := by
  have hlt := lt_of_getElem? hid
  rw [World.evict, finish_eq hid hdone]
  simp only [World.ended, Prod.mk.injEq, and_true, World.mk.injEq]
  rw [modify_eq_set_getElem?, getElem?_set_self hlt]
  exact set_set _

lemma getElem?_ended (hid : w.sessions[id]? = some s) (j : ℕ) :
    (w.ended id s evicted).sessions[j]? =
      if j = id then some { s with done := true, evicted := evicted } else w.sessions[j]? := by
  have hlt := lt_of_getElem? hid
  show (w.sessions.set id _)[j]? = _
  split_ifs with h
  · rw [h, getElem?_set_self hlt]
  · rw [getElem?_set_ne (Ne.symm h)]

open Holders

lemma waiting_ended (evicted : Bool) (hid : w.sessions[id]? = some s) (hdone : s.done = false)
    (q : Queue) (source : IpAddr) : (w.ended id s evicted).waiting q source +
      (if s.inQueue q && s.source = source then 1 else 0) = w.waiting q source := by
  have hset := countP_set_add (waits q source)
    { s with done := true, evicted := evicted } hid
  have hbefore : s.waits q source = (s.inQueue q && decide (s.source = source)) := by
    rw [waits, hdone, Bool.not_false, Bool.true_and]
  rw [hbefore] at hset
  exact hset

lemma live_ne (h : w.Sound cap owner) (hs : s ∈ w.sessions) : s.liveRule ≠ s.liveAll := by
  intro heq
  have hrule := h.rule s hs
  have hall := h.all s hs
  rw [heq, hall] at hrule
  split_ifs at hrule
  cases hrule

lemma update_twice (f : ℕ → ℕ) (g : ℕ → ℕ) {a b : ℕ} (hne : a ≠ b) (c : ℕ) :
    Function.update (Function.update f a (g (f a))) b (g (Function.update f a (g (f a)) b)) c =
      if a = c ∨ b = c then g (f c) else f c := by
  simp only [update_apply, eq_comm (b := c)]
  split_ifs <;> simp_all

lemma counts_ended (hne : s.liveRule ≠ s.liveAll) (c : ℕ) : (w.ended id s evicted).counts c =
      w.counts c - (if s.liveRule = c then 1 else 0) - if s.liveAll = c then 1 else 0 := by
  refine (update_twice w.counts (· - 1) hne c).trans ?_
  split_ifs <;> omega

lemma tableOk_ended (h : TableOk owner w.sessions q t) (hid : w.sessions[id]? = some s) :
    TableOk owner (w.ended id s evicted).sessions q t := by
  -- the session at each place is of the same queue and prefix
  have hsame : ∀ (j : ℕ) (s' : Waiting), w.sessions[j]? = some s' →
      ∃ s'' : Waiting, (w.ended id s evicted).sessions[j]? = some s'' ∧
        s''.inQueue q = s'.inQueue q ∧ s''.source = s'.source := by
    intro j s' hj
    rw [getElem?_ended hid]
    split_ifs with heq
    · subst heq
      cases hid.symm.trans hj
      exact ⟨_, rfl, by cases q <;> rfl, rfl⟩
    · exact ⟨s', hj, rfl, rfl⟩
  refine ⟨h.sorted, fun j hj => ?_, h.queueSorted, fun source pq hpq j hj => ?_,
    fun j s' hj hdone hin => ?_, h.entry, h.heaviest⟩
  · obtain ⟨s', hs', hin⟩ := h.member j hj
    obtain ⟨s'', hs'', hin', -⟩ := hsame j s' hs'
    exact ⟨s'', hs'', hin' ▸ hin⟩
  · obtain ⟨s', hs', hin, hsource⟩ := h.queueMember source pq hpq j hj
    obtain ⟨s'', hs'', hin', hsource'⟩ := hsame j s' hs'
    exact ⟨s'', hs'', hin' ▸ hin, hsource'.trans hsource⟩
  rw [getElem?_ended hid] at hj
  split_ifs at hj with heq
  · cases hj
    cases hdone
  · exact h.waiting j s' hj hdone hin

lemma mem_ended (hid : w.sessions[id]? = some s) (h : s' ∈ (w.ended id s evicted).sessions) :
    ∃ s'' ∈ w.sessions, s'.rule = s''.rule ∧ s'.source = s''.source ∧
      s'.descriptor = s''.descriptor ∧ s'.liveRule = s''.liveRule ∧ s'.liveAll = s''.liveAll := by
  rcases mem_or_eq_of_mem_set h with h | rfl
  · exact ⟨s', h, rfl, rfl, rfl, rfl, rfl⟩
  · exact ⟨s, mem_of_getElem? hid, rfl, rfl, rfl, rfl, rfl⟩

lemma sound_ended (h : w.Sound cap owner) (hid : w.sessions[id]? = some s)
    (hdone : s.done = false) : (w.ended id s evicted).Sound cap owner := by
  have hs := mem_of_getElem? hid
  refine ⟨fun c => ?_, fun s' hs' => ?_, fun s' hs' => ?_, fun s' hs' => ?_, h.unmade,
    fun q => tableOk_ended (h.tables q) hid, fun rule source => ?_⟩
  · have hc := h.counts c
    have hrule := countP_set_add (fun s' => !s'.done && decide (s'.liveRule = c))
      { s with done := true, evicted := evicted } hid
    have hall := countP_set_add (fun s' => !s'.done && decide (s'.liveAll = c))
      { s with done := true, evicted := evicted } hid
    simp only [hdone, Bool.not_false, Bool.not_true, Bool.true_and, Bool.false_and,
      decide_eq_true_eq, Bool.false_eq_true, if_false, Nat.add_zero] at hrule hall
    rw [counts_ended (live_ne h hs)]
    show _ = (w.sessions.set id _).countP _ + (w.sessions.set id _).countP _
    rw [World.holders] at hc
    omega
  · obtain ⟨s'', hs'', hrule, hsource, -, hlive, -⟩ := mem_ended hid hs'
    rw [hlive, hrule, hsource, h.rule s'' hs'']
  · obtain ⟨s'', hs'', -, hsource, hdesc, -, hlive⟩ := mem_ended hid hs'
    rw [hlive, hsource, hdesc, h.all s'' hs'']
  · obtain ⟨s'', hs'', -, -, -, -, hlive⟩ := mem_ended hid hs'
    rw [hlive]
    exact h.made s'' hs''
  have hended := waiting_ended evicted hid hdone (some rule) source
  have hbound := h.bounded rule source
  omega

lemma World.Sound.setTable (h : w.Sound cap owner) (ht : TableOk owner w.sessions q t) :
    (w.setTable q t).Sound cap owner := by
  refine ⟨h.counts, h.rule, h.all, h.made, h.unmade, fun q' => ?_, h.bounded⟩
  show TableOk owner w.sessions q' (Function.update w.tables q t q')
  by_cases hq : q' = q
  · subst hq
    rwa [update_self]
  rw [update_of_ne hq]
  exact h.tables q'

variable {sessions : List Waiting}

lemma TableOk.setOrder (h : TableOk owner sessions q t) (hl : l.Sublist t.order)
    (hwaits : ∀ id s, sessions[id]? = some s → s.done = false → s.inQueue q → id ∈ l) :
    TableOk owner sessions q { t with order := l } where
  sorted := h.sorted.sublist hl
  member id hid := h.member id (hl.subset hid)
  queueSorted := h.queueSorted
  queueMember := h.queueMember
  waiting id s hid hdone hin := ⟨hwaits id s hid hdone hin, (h.waiting id s hid hdone hin).2⟩
  entry := h.entry
  heaviest := h.heaviest

open Table

lemma TableOk.setQueue (h : TableOk owner sessions q t) {pq : PrefixQueue} {l : List ℕ}
    (hpq : t.byPrefix.lookup source = some pq) (hl : l.Sublist pq.order)
    (hwaits : ∀ id s, sessions[id]? = some s → s.done = false → s.inQueue q →
      s.source = source → id ∈ l) :
    TableOk owner sessions q
      { t with byPrefix := t.byPrefix.insert source { pq with order := l } } := by
  refine ⟨h.sorted, h.member, fun source' pq' hpq' => ?_, fun source' pq' hpq' id hid => ?_,
    fun id s hid hdone hin => ?_, fun source' pq' hpq' => ?_, h.heaviest⟩
  · rcases lookup_insert_cases hpq' with ⟨rfl, rfl⟩ | hold
    · exact (h.queueSorted source' pq hpq).sublist hl
    · exact h.queueSorted source' pq' hold
  · rcases lookup_insert_cases hpq' with ⟨rfl, rfl⟩ | hold
    · exact h.queueMember source' pq hpq id (hl.subset hid)
    · exact h.queueMember source' pq' hold id hid
  · obtain ⟨horder, pq', hpq', hmem, hlive⟩ := h.waiting id s hid hdone hin
    refine ⟨horder, ?_⟩
    rw [lookup_insert_eq]
    split_ifs with heq
    · rw [heq, hpq] at hpq'
      cases hpq'
      exact ⟨_, rfl, hwaits id s hid hdone hin heq, hlive⟩
    · exact ⟨pq', hpq', hmem, hlive⟩
  rcases lookup_insert_cases hpq' with ⟨rfl, rfl⟩ | hold
  · exact h.entry source' pq hpq
  · exact h.entry source' pq' hold

lemma mem_dropWhile_isDone (hid : id ∈ l) (hdone : w.isDone id = false) :
    id ∈ l.dropWhile w.isDone := by
  rw [← takeWhile_append_dropWhile (p := w.isDone) (l := l), mem_append] at hid
  refine hid.resolve_left fun h => ?_
  have := mem_takeWhile_imp h
  rw [hdone] at this
  cases this

lemma sound_oldest (h : w.Sound cap owner) (q : Queue) : (w.oldest q).1.Sound cap owner := by
  refine h.setTable ((h.tables q).setOrder (dropWhile_sublist _) fun id s hid hdone hin => ?_)
  refine mem_dropWhile_isDone ((h.tables q).waiting id s hid hdone hin).1 ?_
  rw [isDone_eq hid, hdone]

/-! ## Eviction -/

lemma evictFrom_eq (w : World) (l : List ℕ) : w.evictFrom l = match l.dropWhile w.isDone with
    | [] => (w, [], false)
    | id :: rest => ((w.evict id).1, rest, true) := by
  induction l with
  | nil => rfl
  | cons id rest ih =>
    cases hdone : w.isDone id with
    | true =>
      rw [World.evictFrom, evict_of_isDone hdone, dropWhile_cons_of_pos hdone]
      exact ih
    | false =>
      obtain ⟨s, hid, hs⟩ := exists_of_not_isDone hdone
      rw [World.evictFrom, dropWhile_cons_of_neg (by rw [hdone]; decide)]
      dsimp only
      rw [evict_eq hid hs]

structure Oldest (w : World) (p : Waiting → Bool) (id : ℕ) (s : Waiting) : Prop where
  session : w.sessions[id]? = some s
  holds : p s = true
  first : ∀ (j : ℕ) (s' : Waiting), w.sessions[j]? = some s' → p s' = true → id ≤ j

lemma waits_iff : s.waits q source ↔
    s.done = false ∧ s.inQueue q ∧ s.source = source := by
  rw [waits, Bool.and_eq_true, Bool.and_eq_true, Bool.not_eq_true', decide_eq_true_eq]

lemma head_le (hl : l.Pairwise (· < ·)) (hd : l.dropWhile w.isDone = id :: rest) (hj : j ∈ l)
    (hdone : w.isDone j = false) : id ≤ j := by
  have hmem := mem_dropWhile_isDone hj hdone
  have hsorted := hl.sublist (dropWhile_sublist w.isDone)
  rw [hd] at hmem hsorted
  rcases mem_cons.mp hmem with rfl | hmem
  · exact le_rfl
  · exact (rel_of_pairwise_cons hsorted hmem).le

lemma not_isDone_head (hd : l.dropWhile w.isDone = id :: rest) : w.isDone id = false := by
  have h := head_dropWhile_not w.isDone (l := l) (by rw [hd]; exact cons_ne_nil _ _)
  simpa [hd] using h

lemma evictIn_eq (h : w.Sound cap owner) (hpos : 0 < w.waiting q source) :
    ∃ id s pq rest, Oldest w (waits q source) id s ∧
      (w.tables q).byPrefix.lookup source = some pq ∧ pq.order.dropWhile w.isDone = id :: rest ∧
      w.evictIn q source = ((w.ended id s true).setTable q
        { w.tables q with
          byPrefix := (w.tables q).byPrefix.insert source { pq with order := rest } }, true) := by
  obtain ⟨s₀, hs₀, hwaits₀⟩ := countP_pos_iff.mp hpos
  obtain ⟨j, hj⟩ := mem_iff_getElem?.mp hs₀
  obtain ⟨hdone₀, hin₀, hsource₀⟩ := waits_iff.mp hwaits₀
  have ht := h.tables q
  obtain ⟨-, pq, hpq, hmem, -⟩ := ht.waiting j s₀ hj hdone₀ hin₀
  rw [hsource₀] at hpq
  have hmem' := mem_dropWhile_isDone (w := w) hmem (by rw [isDone_eq hj, hdone₀])
  cases hd : pq.order.dropWhile w.isDone with
  | nil =>
    rw [hd] at hmem'
    cases hmem'
  | cons id rest =>
    have hid : id ∈ pq.order := by
      refine (dropWhile_sublist w.isDone).subset ?_
      rw [hd]
      exact mem_cons_self
    obtain ⟨s, hs, hin, hsource⟩ := ht.queueMember source pq hpq id hid
    have hdone : s.done = false := by rw [← isDone_eq hs, not_isDone_head hd]
    refine ⟨id, s, pq, rest, ⟨hs, waits_iff.mpr ⟨hdone, hin, hsource⟩, ?_⟩, hpq, hd, ?_⟩
    · intro j s' hj hwaits
      obtain ⟨hdone', hin', hsource'⟩ := waits_iff.mp hwaits
      obtain ⟨-, pq', hpq', hmem, -⟩ := ht.waiting j s' hj hdone' hin'
      rw [hsource', hpq] at hpq'
      cases hpq'
      exact head_le (ht.queueSorted source pq hpq) hd hmem (by rw [isDone_eq hj, hdone'])
    simp only [World.evictIn, hpq, evictFrom_eq, hd, evict_eq hs hdone]
    rfl

lemma sound_evictIn (h : w.Sound cap owner) (hpos : 0 < w.waiting q source) :
    (w.evictIn q source).1.Sound cap owner := by
  obtain ⟨id, s, pq, rest, hold, hpq, hd, heq⟩ := evictIn_eq h hpos
  obtain ⟨hdone, -, -⟩ := waits_iff.mp hold.holds
  rw [heq]
  have hrest : rest.Sublist pq.order := by
    have hsub := dropWhile_sublist w.isDone (l := pq.order)
    rw [hd] at hsub
    exact (sublist_cons_self id rest).trans hsub
  refine (sound_ended h hold.session hdone).setTable
    ((tableOk_ended (h.tables q) hold.session).setQueue hpq hrest fun j s' hj hdone' hin
      hsource => ?_)
  -- whoever still waits stood behind the one that was evicted
  rw [getElem?_ended hold.session] at hj
  split_ifs at hj with hne
  · cases hj
    cases hdone'
  obtain ⟨-, pq', hpq', hmem, -⟩ := (h.tables q).waiting j s' hj hdone' hin
  rw [hsource, hpq] at hpq'
  cases hpq'
  have hmem' := mem_dropWhile_isDone (w := w) hmem (by rw [isDone_eq hj, hdone'])
  rw [hd] at hmem'
  exact (mem_cons.mp hmem').resolve_left hne

lemma counts_live (h : w.Sound cap owner) (hid : w.sessions[id]? = some s)
    (hdone : s.done = false)
    (hin : s.inQueue q) : w.counts (s.live q) = w.waiting q s.source := by
  obtain ⟨-, pq, hpq, -, hlive⟩ := (h.tables q).waiting id s hid hdone hin
  rw [← hlive, h.counts_entry hpq]

/-- `evict_for` ends the session `id` only: the oldest of its prefix in the queue, which holds as
many as the newcomer's and as that of the oldest session of all. -/
structure Makes (w w' : World) (q : Queue) (client : IpAddr) (id : ℕ) (s : Waiting) : Prop where
  oldest : Oldest w (waits q s.source) id s
  own : w.waiting q (prefixOf client) ≤ w.waiting q s.source
  first : ∀ j s', Oldest w (waitsIn q) j s' → w.waiting q s'.source ≤ w.waiting q s.source
  sessions : w'.sessions = w.sessions.set id { s with done := true, evicted := true }

lemma evictFor_none {client : IpAddr} (hd : (w.tables q).order.dropWhile w.isDone = []) :
    w.evictFor q client = ((w.oldest q).1, false) := by
  have hnone : (w.oldest q).2 = none := by
    show ((w.tables q).order.dropWhile w.isDone).head? = none
    rw [hd, head?_nil]
  rw [World.evictFor]
  split
  next heq => rw [heq]
  next heq =>
    rw [heq] at hnone
    cases hnone

lemma waitsIn_iff : s.waitsIn q ↔ s.done = false ∧ s.inQueue q := by
  rw [waitsIn, Bool.and_eq_true, Bool.not_eq_true']

lemma oldest_of_head (h : w.Sound cap owner)
    (hd : (w.tables q).order.dropWhile w.isDone = id :: rest) :
    ∃ s, Oldest w (waitsIn q) id s := by
  have ht := h.tables q
  have hmem : id ∈ (w.tables q).order := by
    refine (dropWhile_sublist w.isDone).subset ?_
    rw [hd]
    exact mem_cons_self
  obtain ⟨s, hs, hin⟩ := ht.member id hmem
  have hdone : s.done = false := by rw [← isDone_eq hs, not_isDone_head hd]
  refine ⟨s, hs, waitsIn_iff.mpr ⟨hdone, hin⟩, fun j s' hj hwaits => ?_⟩
  obtain ⟨hdone', hin'⟩ := waitsIn_iff.mp hwaits
  exact head_le ht.sorted hd (ht.waiting j s' hj hdone' hin').1 (by rw [isDone_eq hj, hdone'])

lemma Oldest.unique {p : Waiting → Bool} (h : Oldest w p id s) (h' : Oldest w p j s') :
    id = j ∧ s = s' := by
  have hid : id = j :=
    le_antisymm (h.first j s' h'.session h'.holds) (h'.first id s h.session h.holds)
  subst hid
  exact ⟨rfl, Option.some.inj (h.session.symm.trans h'.session)⟩

lemma makes_evictIn (client : IpAddr) {so : Waiting} (h : w.Sound cap owner)
    (ho : Oldest w (waitsIn q) o so) (hpos : 0 < w.waiting q source)
    (hown : w.waiting q (prefixOf client) ≤ w.waiting q source)
    (hfirst : w.waiting q so.source ≤ w.waiting q source) :
    (w.evictIn q source).2 = true ∧ ∃ id s, Makes w (w.evictIn q source).1 q client id s := by
  obtain ⟨id, s, pq, rest, hold, -, -, heq⟩ := evictIn_eq h hpos
  obtain ⟨-, -, hsource⟩ := waits_iff.mp hold.holds
  rw [heq]
  refine ⟨rfl, id, s, hsource ▸ hold, hsource ▸ hown, fun j s' hj => ?_, rfl⟩
  rw [hsource, ← (ho.unique hj).2]
  exact hfirst

lemma waiting_heaviest (h : w.Sound cap owner)
    (hheaviest : (w.tables q).heaviest = some (source, c)) (hc : 0 < w.counts c) :
    w.counts c = w.waiting q source := by
  obtain ⟨pq, hpq, rfl⟩ := h.entry_of_counts ((h.tables q).heaviest source c hheaviest) hc
  exact h.counts_entry hpq

lemma own_eq (h : w.Sound cap owner) (source : IpAddr) :
    ((w.tables q).byPrefix.lookup source).elim 0 (fun pq => w.counts pq.live) =
      w.waiting q source := by
  cases hpq : (w.tables q).byPrefix.lookup source with
  | none => exact (h.waiting_eq_zero hpq).symm
  | some pq => exact h.counts_entry hpq

lemma evictAt_spec (client : IpAddr) {so : Waiting} (h : w.Sound cap owner)
    (ho : Oldest w (waitsIn q) o so) :
    (w.evictAt q (prefixOf client) o).2 ∧
      (w.evictAt q (prefixOf client) o).1.Sound cap owner ∧
      ∃ id s, Makes w (w.evictAt q (prefixOf client) o).1 q client id s := by
  obtain ⟨hdone, hin⟩ := waitsIn_iff.mp ho.holds
  have hfirst := counts_live h ho.session hdone hin
  simp only [World.evictAt, ho.session, elim_some, hfirst, own_eq h]
  by_cases hown : 0 < w.waiting q (prefixOf client) ∧
      (w.tables q).heaviest.elim 0 (fun h => w.counts h.2) ≤ w.waiting q (prefixOf client) ∧
      w.waiting q so.source ≤ w.waiting q (prefixOf client)
  · obtain ⟨htrue, hmakes⟩ := makes_evictIn client h ho hown.1 le_rfl hown.2.2
    simp only [if_pos hown, htrue, if_true]
    exact ⟨trivial, sound_evictIn h hown.1, hmakes⟩
  simp only [if_neg hown]
  by_cases hmost : w.waiting q so.source < (w.tables q).heaviest.elim 0 fun h => w.counts h.2
  · cases hheaviest : (w.tables q).heaviest with
    | none =>
      rw [hheaviest] at hmost
      exact absurd hmost (Nat.not_lt_zero _)
    | some hint =>
      obtain ⟨source, c⟩ := hint
      rw [hheaviest, elim_some] at hmost hown
      have hc := waiting_heaviest h hheaviest (Nat.zero_lt_of_lt hmost)
      rw [hc] at hmost hown
      have hsource : 0 < w.waiting q source := Nat.zero_lt_of_lt hmost
      obtain ⟨htrue, hmakes⟩ := makes_evictIn client h ho hsource (by omega) hmost.le
      simp only [elim_some, hc, if_pos hmost, htrue, if_true]
      exact ⟨trivial, sound_evictIn h hsource, hmakes⟩
  simp only [if_neg hmost, Bool.false_eq_true, if_false, evict_eq ho.session hdone]
  refine ⟨trivial, sound_ended h ho.session hdone, o, so, ⟨ho.session, ?_, ?_⟩, ?_, ?_, rfl⟩
  · exact waits_iff.mpr ⟨hdone, hin, rfl⟩
  · intro j s' hj hwaits
    obtain ⟨hdone', hin', -⟩ := waits_iff.mp hwaits
    exact ho.first j s' hj (waitsIn_iff.mpr ⟨hdone', hin'⟩)
  · omega
  intro j s' hj
  rw [(ho.unique hj).2]

lemma evictFor_some (client : IpAddr) (h : w.Sound cap owner)
    (hd : (w.tables q).order.dropWhile w.isDone = o :: rest) :
    (w.evictFor q client).2 ∧ (w.evictFor q client).1.Sound cap owner ∧
      ∃ id s, Makes w (w.evictFor q client).1 q client id s := by
  obtain ⟨so, ho⟩ := oldest_of_head h hd
  have hhead : (w.oldest q).2 = some o := by
    show ((w.tables q).order.dropWhile w.isDone).head? = some o
    rw [hd, head?_cons]
  have heq : w.evictFor q client = (w.oldest q).1.evictAt q (prefixOf client) o := by
    rw [World.evictFor]
    split
    next hnone =>
      rw [hnone] at hhead
      cases hhead
    next hsome =>
      rw [hsome] at hhead ⊢
      cases hhead
      rfl
  -- looking for the oldest changes no session
  have ho' : Oldest (w.oldest q).1 (waitsIn q) o so := ⟨ho.session, ho.holds, ho.first⟩
  obtain ⟨htrue, hsound, id, s, hmakes⟩ := evictAt_spec client (sound_oldest h q) ho'
  rw [heq]
  refine ⟨htrue, hsound, id, s, ⟨?_, hmakes.own, ?_, hmakes.sessions⟩⟩
  · exact ⟨hmakes.oldest.session, hmakes.oldest.holds, hmakes.oldest.first⟩
  · exact fun j s' hj => hmakes.first j s' ⟨hj.session, hj.holds, hj.first⟩

/-! ## Counts for a new session -/

def Extends (owner owner' : Owner) : Prop := ∀ c x, owner c = some x → owner' c = some x

variable {owner' : Owner}

lemma TableOk.extend (h : TableOk owner sessions q t) (he : Extends owner owner') :
    TableOk owner' sessions q t where
  sorted := h.sorted
  member := h.member
  queueSorted := h.queueSorted
  queueMember := h.queueMember
  waiting := h.waiting
  entry source pq hpq := he _ _ (h.entry source pq hpq)
  heaviest source c hc := he _ _ (h.heaviest source c hc)

lemma counts_next (h : w.Sound cap owner) : w.counts w.next = 0 := by
  rw [h.counts, World.holders]
  have hrule : w.sessions.countP (fun s => !s.done && s.liveRule = w.next) = 0 := by
    rw [countP_eq_zero]
    intro s hs
    have hs' := h.rule s hs
    rw [Bool.and_eq_true, decide_eq_true_eq]
    rintro ⟨-, heq⟩
    rw [heq, h.unmade _ le_rfl] at hs'
    cases hs'
  have hall : w.sessions.countP (fun s => !s.done && s.liveAll = w.next) = 0 := by
    rw [countP_eq_zero]
    intro s hs
    have hs' := h.made s hs
    rw [Bool.and_eq_true, decide_eq_true_eq]
    omega
  rw [hrule, hall]

lemma counts_made (h : w.Sound cap owner) : Function.update w.counts w.next 0 = w.counts := by
  rw [← counts_next h, update_eq_self]

lemma sound_ownCount (h : w.Sound cap owner) : w.ownCount.1.Sound cap owner := by
  refine ⟨fun c => ?_, h.rule, h.all, fun s hs => Nat.lt_succ_of_lt (h.made s hs),
    fun c hc => h.unmade c (Nat.le_of_succ_le hc), h.tables, h.bounded⟩
  show Function.update w.counts w.next 0 c = w.holders c
  rw [counts_made h, h.counts]

lemma sound_entry (h : w.Sound cap owner) (q : Queue) (source : IpAddr) :
    ∃ owner', Extends owner owner' ∧ (w.entry q source).1.Sound cap owner' := by
  cases hpq : (w.tables q).byPrefix.lookup source with
  | some pq =>
    refine ⟨owner, fun _ _ hc => hc, ?_⟩
    simpa only [World.entry, hpq] using h
  | none =>
    have hne : ∀ c x, owner c = some x → c ≠ w.next := by
      rintro c x hc rfl
      rw [h.unmade _ le_rfl] at hc
      cases hc
    have he : Extends owner (Function.update owner w.next (some (q, source))) := by
      intro c x hc
      rw [update_of_ne (hne c x hc), hc]
    refine ⟨Function.update owner w.next (some (q, source)), he, ?_⟩
    simp only [World.entry, hpq, counts_made h]
    have hmade : World.Sound cap (Function.update owner w.next (some (q, source)))
        { w with next := w.next + 1 } := by
      refine ⟨h.counts, fun s hs => he _ _ (h.rule s hs), fun s hs => ?_,
        fun s hs => Nat.lt_succ_of_lt (h.made s hs), fun c hc => ?_,
        fun q' => (h.tables q').extend he, h.bounded⟩
      · rw [update_of_ne (h.made s hs).ne, h.all s hs]
      have hc' : w.next + 1 ≤ c := hc
      rw [update_of_ne (by omega), h.unmade c (by omega)]
    refine hmade.setTable ?_
    have ht := hmade.tables q
    refine ⟨ht.sorted, ht.member, fun source' pq' hpq' => ?_, fun source' pq' hpq' id hid => ?_,
      fun id s hid hdone hin => ?_, fun source' pq' hpq' => ?_, ht.heaviest⟩
    · rcases lookup_insert_cases hpq' with ⟨rfl, rfl⟩ | hold
      · exact List.Pairwise.nil
      · exact ht.queueSorted source' pq' hold
    · rcases lookup_insert_cases hpq' with ⟨rfl, rfl⟩ | hold
      · cases hid
      · exact ht.queueMember source' pq' hold id hid
    · obtain ⟨horder, pq', hpq', hmem, hlive⟩ := ht.waiting id s hid hdone hin
      refine ⟨horder, pq', ?_, hmem, hlive⟩
      rw [lookup_insert_eq, if_neg, hpq']
      intro heq
      rw [heq] at hpq'
      exact absurd (hpq.symm.trans hpq') (by simp)
    rcases lookup_insert_cases hpq' with ⟨rfl, rfl⟩ | hold
    · rw [update_self]
    · exact ht.entry source' pq' hold

lemma lookup_retain (t : UnrepliedTable) (counts : ℕ → ℕ) (source : IpAddr) :
    (t.retain counts).byPrefix.lookup source =
      (t.byPrefix.lookup source).filter fun pq => counts pq.live ≠ 0 := by
  simp only [ne_eq, decide_not]
  exact t.byPrefix.lookup_eraseAll_filter (fun e => counts e.2.live = 0) source

lemma sound_retain (h : w.Sound cap owner) (q : Queue) :
    (w.setTable q ((w.tables q).retain w.counts)).Sound cap owner := by
  have ht := h.tables q
  have hlookup : ∀ {source pq}, ((w.tables q).retain w.counts).byPrefix.lookup source = some pq →
      (w.tables q).byPrefix.lookup source = some pq := by
    intro source pq hpq
    rw [lookup_retain] at hpq
    exact (filter_eq_some_iff.mp hpq).1
  refine h.setTable ⟨ht.sorted, ht.member,
    fun source pq hpq => ht.queueSorted source pq (hlookup hpq),
    fun source pq hpq => ht.queueMember source pq (hlookup hpq), fun id s hid hdone hin => ?_,
    fun source pq hpq => ht.entry source pq (hlookup hpq), ht.heaviest⟩
  obtain ⟨horder, pq, hpq, hmem, hlive⟩ := ht.waiting id s hid hdone hin
  refine ⟨horder, pq, ?_, hmem, hlive⟩
  -- the session itself is left
  have hpos : 0 < w.waiting q s.source :=
    countP_pos_iff.mpr ⟨s, mem_of_getElem? hid, waits_iff.mpr ⟨hdone, hin, rfl⟩⟩
  rw [lookup_retain, hpq, filter_some, if_pos]
  rw [decide_eq_true_eq, h.counts_entry hpq]
  exact hpos.ne'

def World.Has (w : World) (q : Queue) (source : IpAddr) (c : ℕ) : Prop :=
  ∃ pq, (w.tables q).byPrefix.lookup source = some pq ∧ pq.live = c

lemma has_entry (w : World) (q : Queue) (source : IpAddr) :
    (w.entry q source).1.Has q source (w.entry q source).2.live := by
  cases hpq : (w.tables q).byPrefix.lookup source with
  | some pq =>
    simp only [World.entry, hpq]
    exact ⟨pq, hpq, rfl⟩
  | none =>
    simp only [World.entry, hpq, World.Has, World.setTable, update_self]
    exact ⟨_, by rw [lookup_insert_eq, if_pos rfl], rfl⟩

/-- What `live` and its parts leave alone: the sessions, and the other queues. -/
structure World.Beside (w w' : World) (q : Queue) : Prop where
  sessions : w'.sessions = w.sessions
  others : ∀ q', q' ≠ q → w'.tables q' = w.tables q'

lemma beside_setTable (w : World) (q : Queue) (t : UnrepliedTable) :
    w.Beside (w.setTable q t) q :=
  ⟨rfl, fun _ hq => update_of_ne hq _ _⟩

lemma beside_entry (w : World) (q : Queue) (source : IpAddr) :
    w.Beside (w.entry q source).1 q := by
  rw [World.entry]
  split
  · exact ⟨rfl, fun _ _ => rfl⟩
  · exact ⟨rfl, fun _ hq => update_of_ne hq _ _⟩

lemma live_spec (h : w.Sound cap owner) (q : Queue) (source : IpAddr) :
    ∃ owner', Extends owner owner' ∧ (w.live q source).1.Sound cap owner' ∧
      (w.live q source).1.Has q source (w.live q source).2 ∧ w.Beside (w.live q source).1 q := by
  rw [World.live]
  split_ifs
  · obtain ⟨owner', he, hs⟩ := sound_entry (sound_retain h q) q source
    refine ⟨owner', he, hs, has_entry _ q source, ?_⟩
    have hbeside := beside_entry (w.setTable q ((w.tables q).retain w.counts)) q source
    exact ⟨hbeside.sessions, fun q' hq => (hbeside.others q' hq).trans
      ((beside_setTable w q _).others q' hq)⟩
  obtain ⟨owner', he, hs⟩ := sound_entry h q source
  exact ⟨owner', he, hs, has_entry w q source, beside_entry w q source⟩

/-! ## A new session -/

lemma getElem?_concat_of_some (h : sessions[j]? = some s') :
    (sessions ++ [new])[j]? = some s' := by
  have hlt := lt_of_getElem? h
  rw [getElem?_append_left hlt, h]

lemma TableOk.skip (h : TableOk owner sessions q t) (hin : new.inQueue q = false) :
    TableOk owner (sessions ++ [new]) q t where
  sorted := h.sorted
  member id hid := by
    obtain ⟨s, hs, hs'⟩ := h.member id hid
    exact ⟨s, getElem?_concat_of_some hs, hs'⟩
  queueSorted := h.queueSorted
  queueMember source pq hpq id hid := by
    obtain ⟨s, hs, hs'⟩ := h.queueMember source pq hpq id hid
    exact ⟨s, getElem?_concat_of_some hs, hs'⟩
  waiting id s hid hdone hin' := by
    rcases getElem?_concat_cases hid with hid | ⟨-, rfl⟩
    · exact h.waiting id s hid hdone hin'
    rw [hin] at hin'
    cases hin'
  entry := h.entry
  heaviest := h.heaviest

lemma pairwise_concat {l' : List ℕ} {n : ℕ} (hl : l.Pairwise (· < ·)) (hsub : l'.Sublist l)
    (hn : ∀ id ∈ l, id < n) : (l' ++ [n]).Pairwise (· < ·) := by
  rw [pairwise_append]
  refine ⟨hl.sublist hsub, pairwise_singleton _ _, fun id hid m hm => ?_⟩
  rw [mem_singleton.mp hm]
  exact hn id (hsub.subset hid)

lemma TableOk.enqueue (h : TableOk owner sessions q t) {l' : List ℕ} {hint : Option (IpAddr × ℕ)}
    (hin : new.inQueue q) (hpq : t.byPrefix.lookup new.source = some pq)
    (hlive : pq.live = new.live q) (hl : l.Sublist t.order) (hl' : l'.Sublist pq.order)
    (hkept : ∀ id s, sessions[id]? = some s → s.done = false → id ∈ t.order → id ∈ l)
    (hkept' : ∀ id s, sessions[id]? = some s → s.done = false → id ∈ pq.order → id ∈ l')
    (hhint : ∀ source c, hint = some (source, c) → owner c = some (q, source)) :
    TableOk owner (sessions ++ [new]) q
      ⟨l ++ [sessions.length],
        t.byPrefix.insert new.source { pq with order := l' ++ [sessions.length] }, hint⟩ := by
  have hlt : ∀ {id s}, sessions[id]? = some s → id < sessions.length :=
    fun hid => (lt_of_getElem? hid)
  have hnew : (sessions ++ [new])[sessions.length]? = some new := getElem?_concat_length
  refine ⟨?_, fun id hid => ?_, fun source pq' hpq' => ?_, fun source pq' hpq' id hid => ?_,
    fun id s hid hdone hs => ?_, fun source pq' hpq' => ?_, hhint⟩
  · refine pairwise_concat h.sorted hl fun id hid => ?_
    obtain ⟨s, hs, -⟩ := h.member id hid
    exact hlt hs
  · rcases mem_append.mp hid with hid | hid
    · obtain ⟨s, hs, hs'⟩ := h.member id (hl.subset hid)
      exact ⟨s, getElem?_concat_of_some hs, hs'⟩
    rw [mem_singleton.mp hid]
    exact ⟨new, hnew, hin⟩
  · rcases lookup_insert_cases hpq' with ⟨rfl, rfl⟩ | hold
    · refine pairwise_concat (h.queueSorted _ pq hpq) hl' fun id hid => ?_
      obtain ⟨s, hs, -⟩ := h.queueMember _ pq hpq id hid
      exact hlt hs
    · exact h.queueSorted source pq' hold
  · rcases lookup_insert_cases hpq' with ⟨rfl, rfl⟩ | hold
    · rcases mem_append.mp hid with hid | hid
      · obtain ⟨s, hs, hs'⟩ := h.queueMember _ pq hpq id (hl'.subset hid)
        exact ⟨s, getElem?_concat_of_some hs, hs'⟩
      rw [mem_singleton.mp hid]
      exact ⟨new, hnew, hin, rfl⟩
    obtain ⟨s, hs, hs'⟩ := h.queueMember source pq' hold id hid
    exact ⟨s, getElem?_concat_of_some hs, hs'⟩
  · rcases getElem?_concat_cases hid with hid | ⟨rfl, rfl⟩
    · obtain ⟨horder, pq', hpq', hmem, hlive'⟩ := h.waiting id s hid hdone hs
      refine ⟨mem_append.mpr (.inl (hkept id s hid hdone horder)), ?_⟩
      rw [lookup_insert_eq]
      split_ifs with heq
      · rw [heq, hpq] at hpq'
        cases hpq'
        exact ⟨_, rfl, mem_append.mpr (.inl (hkept' id s hid hdone hmem)), hlive'⟩
      · exact ⟨pq', hpq', hmem, hlive'⟩
    refine ⟨mem_append.mpr (.inr (mem_singleton.mpr rfl)),
      { pq with order := l' ++ [sessions.length] }, ?_,
      mem_append.mpr (.inr (mem_singleton.mpr rfl)), hlive⟩
    rw [lookup_insert_eq, if_pos rfl]
  rcases lookup_insert_cases hpq' with ⟨rfl, rfl⟩ | hold
  · exact h.entry _ pq hpq
  · exact h.entry source pq' hold

lemma push_eq (hpq : (w.tables q).byPrefix.lookup source = some pq) (id live : ℕ) :
    ∃ l l' hint, w.push q source live id = w.setTable q
      ⟨l ++ [id], (w.tables q).byPrefix.insert source { pq with order := l' ++ [id] }, hint⟩ ∧
      l.Sublist (w.tables q).order ∧ l'.Sublist pq.order ∧
      (∀ j, w.isDone j = false → j ∈ (w.tables q).order → j ∈ l) ∧
      (∀ j, w.isDone j = false → j ∈ pq.order → j ∈ l') ∧
      (hint = some (source, live) ∨ hint = (w.tables q).heaviest) := by
  -- what `pushBack` keeps of an order
  have hback : ∀ l : List ℕ, ∃ l', w.pushBack l id = l' ++ [id] ∧ l'.Sublist l ∧
      ∀ j, w.isDone j = false → j ∈ l → j ∈ l' := by
    intro l
    rw [World.pushBack]
    split_ifs
    · refine ⟨_, rfl, filter_sublist, fun j hdone hj => ?_⟩
      exact mem_filter.mpr ⟨hj, by rw [hdone]; rfl⟩
    · exact ⟨l, rfl, List.Sublist.refl l, fun _ _ hj => hj⟩
  obtain ⟨l, hl, hsub, hkept⟩ := hback (w.tables q).order
  obtain ⟨l', hl', hsub', hkept'⟩ := hback (pq.order.dropWhile w.isDone)
  refine ⟨l, l',
    if (w.tables q).heaviest.all fun h => h.1 = source || w.counts h.2 < w.counts live then
    some (source, live) else (w.tables q).heaviest, ?_, hsub,
    hsub'.trans (dropWhile_sublist _), hkept, fun j hdone hj => ?_, ?_⟩
  · simp only [World.push, World.entry, World.setTable, update_self, hpq, hl, hl', update_idem]
  · exact hkept' j hdone (mem_dropWhile_isDone hj hdone)
  split_ifs
  · exact .inl rfl
  · exact .inr rfl

lemma counts_add (hne : new.liveRule ≠ new.liveAll) (c : ℕ) : (w.add new).counts c =
      w.counts c + (if new.liveRule = c then 1 else 0) + if new.liveAll = c then 1 else 0 := by
  refine (update_twice w.counts (· + 1) hne c).trans ?_
  split_ifs <;> omega

lemma tableOk_push (w₁ : World) (h : w.Sound cap owner)
    (hsessions : w₁.sessions = w.sessions ++ [new]) (htable : w₁.tables q = w.tables q)
    (hin : new.inQueue q) (hhas : w.Has q new.source (new.live q)) :
    ∃ t, w₁.push q new.source (new.live q) w.sessions.length = w₁.setTable q t ∧
      TableOk owner (w.sessions ++ [new]) q t := by
  obtain ⟨pq, hpq, hlive⟩ := hhas
  have hdone : ∀ j s', w.sessions[j]? = some s' → w₁.isDone j = s'.done := by
    intro j s' hj
    refine isDone_eq ?_
    rw [hsessions]
    exact getElem?_concat_of_some hj
  obtain ⟨l, l', hint, heq, hl, hl', hkept, hkept', hhint⟩ :=
    push_eq (w := w₁) (q := q) (htable ▸ hpq) w.sessions.length (new.live q)
  rw [htable] at heq hl hkept hhint
  refine ⟨_, heq, (h.tables q).enqueue hin hpq hlive hl hl' (fun j s' hj hd hmem => ?_)
    (fun j s' hj hd hmem => ?_) fun source c hc => ?_⟩
  · exact hkept j (by rw [hdone j s' hj, hd]) hmem
  · exact hkept' j (by rw [hdone j s' hj, hd]) hmem
  rcases hhint with hhint | hhint
  · rw [hhint] at hc
    cases hc
    rw [← hlive]
    exact (h.tables q).entry _ pq hpq
  · exact (h.tables q).heaviest source c (hhint ▸ hc)

lemma sound_tracked {new : Waiting} {w' : World} (h : w.Sound cap owner)
    (hdone : new.done = false) (hrule : w.Has (some new.rule) new.source new.liveRule)
    (hall : owner new.liveAll = if new.descriptor then some (none, new.source) else none)
    (hmade : new.liveAll < w.next)
    (hroom : w.waiting (some new.rule) new.source < unrepliedPerPrefix cap)
    (hsessions : w'.sessions = (w.add new).sessions) (hcounts : w'.counts = (w.add new).counts)
    (hnext : w'.next = w.next)
    (htables : ∀ q, TableOk owner (w.sessions ++ [new]) q (w'.tables q)) :
    w'.Sound cap owner := by
  have hsessions' : w'.sessions = w.sessions ++ [new] := hsessions
  have hruleOwner : owner new.liveRule = some (some new.rule, new.source) := by
    obtain ⟨pq, hpq, hlive⟩ := hrule
    rw [← hlive]
    exact (h.tables _).entry _ pq hpq
  have hne : new.liveRule ≠ new.liveAll := by
    intro heq
    rw [heq, hall] at hruleOwner
    split_ifs at hruleOwner
    cases hruleOwner
  refine ⟨fun c => ?_, fun s hs => ?_, fun s hs => ?_, fun s hs => ?_, ?_, ?_,
    fun rule source => ?_⟩
  · rw [hcounts, counts_add hne, World.holders, hsessions', countP_concat,
      countP_concat, h.counts, World.holders]
    simp only [hdone, Bool.not_false, Bool.true_and, decide_eq_true_eq]
    omega
  · rw [hsessions'] at hs
    rcases mem_append.mp hs with hs | hs
    · exact h.rule s hs
    rw [mem_singleton.mp hs]
    exact hruleOwner
  · rw [hsessions'] at hs
    rcases mem_append.mp hs with hs | hs
    · exact h.all s hs
    rw [mem_singleton.mp hs]
    exact hall
  · rw [hsessions'] at hs
    rw [hnext]
    rcases mem_append.mp hs with hs | hs
    · exact h.made s hs
    rw [mem_singleton.mp hs]
    exact hmade
  · rw [hnext]
    exact h.unmade
  · rw [hsessions']
    exact htables
  rw [World.waiting, hsessions', countP_concat]
  have hbound := h.bounded rule source
  split_ifs with hwaits
  · obtain ⟨-, hin, rfl⟩ := waits_iff.mp hwaits
    cases decide_eq_true_eq.mp hin
    exact hroom
  · exact hbound

lemma inQueue_some : s.inQueue (some rule) ↔ s.rule = rule := decide_eq_true_iff

lemma owner_of_has (hhas : w.Has q source c) (h : w.Sound cap owner) :
    owner c = some (q, source) := by
  obtain ⟨pq, hpq, rfl⟩ := hhas
  exact (h.tables q).entry source pq hpq

lemma sound_pushed (new : Waiting) (h : w.Sound cap owner) (hdone : new.done = false)
    (hrule : w.Has (some new.rule) new.source new.liveRule)
    (hall : if new.descriptor then w.Has none new.source new.liveAll else owner new.liveAll = none)
    (hmade : new.liveAll < w.next)
    (hroom : w.waiting (some new.rule) new.source < unrepliedPerPrefix cap) :
    (if new.descriptor then
        ((w.add new).push (some new.rule) new.source new.liveRule w.sessions.length).push none
          new.source new.liveAll w.sessions.length
      else (w.add new).push (some new.rule) new.source new.liveRule w.sessions.length).Sound cap
      owner := by
  obtain ⟨t₁, heq₁, ht₁⟩ := tableOk_push (w.add new) h rfl rfl (inQueue_some.mpr rfl) hrule
  have heq₁' : (w.add new).push (some new.rule) new.source new.liveRule w.sessions.length =
      (w.add new).setTable (some new.rule) t₁ := heq₁
  -- the queues of the other rules do not see it
  have hother : ∀ rule, rule ≠ new.rule →
      TableOk owner (w.sessions ++ [new]) (some rule) (w.tables (some rule)) := fun rule hne =>
    (h.tables _).skip (decide_eq_false (Ne.symm hne))
  rw [heq₁']
  cases hdesc : new.descriptor with
  | false =>
    rw [hdesc] at hall
    refine sound_tracked h hdone hrule (by rw [hdesc]; exact hall) hmade hroom rfl rfl rfl
      fun q => ?_
    show TableOk owner (w.sessions ++ [new]) q (Function.update w.tables (some new.rule) t₁ q)
    rcases q with _ | rule
    · exact (h.tables none).skip hdesc
    rcases eq_or_ne rule new.rule with rfl | hne
    · rw [update_self]
      exact ht₁
    rw [update_of_ne (by simpa using hne)]
    exact hother rule hne
  | true =>
    rw [hdesc] at hall
    obtain ⟨t₂, heq₂, ht₂⟩ := tableOk_push (q := none)
      ((w.add new).setTable (some new.rule) t₁) h rfl
      ((beside_setTable _ _ _).others none (by simp)) hdesc hall
    have heq₂' : ((w.add new).setTable (some new.rule) t₁).push none new.source new.liveAll
        w.sessions.length = ((w.add new).setTable (some new.rule) t₁).setTable none t₂ := heq₂
    rw [heq₂']
    refine sound_tracked h hdone hrule (by rw [hdesc]; exact owner_of_has hall h) hmade hroom rfl
      rfl rfl fun q => ?_
    show TableOk owner (w.sessions ++ [new]) q
      (Function.update (Function.update w.tables (some new.rule) t₁) none t₂ q)
    rcases q with _ | rule
    · exact ht₂
    rw [update_of_ne (by simp)]
    rcases eq_or_ne rule new.rule with rfl | hne
    · rw [update_self]
      exact ht₁
    rw [update_of_ne (by simpa using hne)]
    exact hother rule hne

lemma makeRoom_spec (h : w.Sound cap owner) {rule c : ℕ} (hhas : w.Has (some rule) source c)
    {w' : World} (hw' : w' =
      if unrepliedPerPrefix cap ≤ w.counts c then (w.evictIn (some rule) source).1 else w) :
    w'.Sound cap owner ∧ w'.Has (some rule) source c ∧ w'.tables none = w.tables none ∧
      w'.next = w.next ∧ w'.waiting (some rule) source < unrepliedPerPrefix cap := by
  obtain ⟨pq, hpq, rfl⟩ := hhas
  rw [h.counts_entry hpq] at hw'
  have hpos : 0 < unrepliedPerPrefix cap := lt_of_lt_of_le (by decide) (le_max_right (cap / 16) 64)
  split_ifs at hw' with hfull
  · have hwaiting : 0 < w.waiting (some rule) source := hpos.trans_le hfull
    have hsound := sound_evictIn h hwaiting
    obtain ⟨id, s, pq', rest, hold, hpq', -, heq⟩ := evictIn_eq h hwaiting
    obtain ⟨hdone, hin, hsource⟩ := waits_iff.mp hold.holds
    rw [hpq] at hpq'
    cases hpq'
    rw [heq] at hw' hsound
    subst hw'
    refine ⟨hsound, ⟨{ pq with order := rest }, ?_, rfl⟩,
      (beside_setTable _ _ _).others none (by simp), rfl, ?_⟩
    · show (Function.update w.tables (some rule) _ (some rule)).byPrefix.lookup source = _
      rw [update_self, lookup_insert_eq, if_pos rfl]
    -- one session of the prefix went
    have hended := waiting_ended true hold.session hdone (some rule) source
    rw [hin, hsource, decide_eq_true rfl, Bool.true_and, if_pos rfl] at hended
    have hbound := h.bounded rule source
    show (w.ended id s true).waiting (some rule) source < unrepliedPerPrefix cap
    omega
  · subst hw'
    exact ⟨h, ⟨pq, hpq, rfl⟩, rfl, rfl, not_le.mp hfull⟩

lemma liveAll_spec (h : w.Sound cap owner) (hhas : w.Has (some rule) source c) (descriptor : Bool)
    {r : World × ℕ} (hr : r = if descriptor then w.live none source else w.ownCount) :
    ∃ owner', r.1.Sound cap owner' ∧ r.1.Has (some rule) source c ∧
      (if descriptor then r.1.Has none source r.2 else owner' r.2 = none) ∧ r.2 < r.1.next := by
  cases descriptor with
  | false =>
    subst hr
    exact ⟨owner, sound_ownCount h, hhas, h.unmade _ le_rfl, Nat.lt_succ_self _⟩
  | true =>
    rw [if_pos rfl] at hr
    subst hr
    obtain ⟨owner', -, hsound, hall, hbeside⟩ := live_spec h none source
    refine ⟨owner', hsound, ?_, hall, ?_⟩
    · rw [World.Has, hbeside.others _ (by simp)]
      exact hhas
    by_contra hge
    have hnone := hsound.unmade _ (not_lt.mp hge)
    rw [owner_of_has hall hsound] at hnone
    cases hnone

lemma sound_track (h : w.Sound cap owner) (rule : ℕ) (client : IpAddr) (descriptor : Bool) :
    ∃ owner', (w.track cap rule client descriptor).Sound cap owner' := by
  obtain ⟨owner₁, -, hsound₁, hhas₁, -⟩ := live_spec h (some rule) (prefixOf client)
  obtain ⟨r, hr⟩ : ∃ r, r = if descriptor then
      (w.live (some rule) (prefixOf client)).1.live none (prefixOf client)
    else (w.live (some rule) (prefixOf client)).1.ownCount := ⟨_, rfl⟩
  obtain ⟨owner₂, hsound₂, hhas₂, hall₂, hmade₂⟩ := liveAll_spec hsound₁ hhas₁ descriptor hr
  obtain ⟨w₃, hw₃⟩ : ∃ w₃, w₃ = if unrepliedPerPrefix cap ≤
      r.1.counts (w.live (some rule) (prefixOf client)).2 then
        (r.1.evictIn (some rule) (prefixOf client)).1 else r.1 := ⟨_, rfl⟩
  obtain ⟨hsound₃, hhas₃, htable₃, hnext₃, hroom₃⟩ := makeRoom_spec hsound₂ hhas₂ hw₃
  have hpushed := sound_pushed
    ⟨rule, prefixOf client, descriptor, false, false, (w.live (some rule) (prefixOf client)).2, r.2⟩
    hsound₃ rfl hhas₃ (by rw [World.Has, htable₃]; exact hall₂) (hnext₃ ▸ hmade₂) hroom₃
  refine ⟨owner₂, ?_⟩
  have htrack : w.track cap rule client descriptor =
      let new : Waiting := ⟨rule, prefixOf client, descriptor, false, false,
        (w.live (some rule) (prefixOf client)).2, r.2⟩
      if descriptor then
        ((w₃.add new).push (some rule) (prefixOf client) new.liveRule w₃.sessions.length).push none
          (prefixOf client) new.liveAll w₃.sessions.length
      else (w₃.add new).push (some rule) (prefixOf client) new.liveRule w₃.sessions.length := by
    subst hw₃ hr
    rfl
  rw [htrack]
  exact hpushed

lemma sound_finish (h : w.Sound cap owner) (id : ℕ) : (w.finish id).1.Sound cap owner := by
  cases hdone : w.isDone id with
  | true =>
    rw [finish_of_isDone hdone]
    exact h
  | false =>
    obtain ⟨s, hs, hsdone⟩ := exists_of_not_isDone hdone
    rw [finish_eq hs hsdone]
    exact sound_ended h hs hsdone

lemma sound_evictFor (h : w.Sound cap owner) (q : Queue) (client : IpAddr) :
    (w.evictFor q client).1.Sound cap owner := by
  cases hd : (w.tables q).order.dropWhile w.isDone with
  | nil =>
    rw [evictFor_none hd]
    exact sound_oldest h q
  | cons o rest => exact (evictFor_some client h hd).2.1

lemma sound_step (h : ∃ owner, w.Sound cap owner) (a : Act) :
    ∃ owner, (w.step cap a).Sound cap owner := by
  obtain ⟨owner, h⟩ := h
  cases a with
  | track rule client descriptor => exact sound_track h rule client descriptor
  | finish id => exact ⟨owner, sound_finish h id⟩
  | evictFor q client => exact ⟨owner, sound_evictFor h q client⟩
  | any q => exact ⟨owner, sound_oldest h q⟩

structure World.Fair (cap : ℕ) (w : World) : Prop where
  /-- Each prefix's count is the number of its sessions that wait; one without a count has none. -/
  counted : ∀ q source pq, (w.tables q).byPrefix.lookup source = some pq →
    w.counts pq.live = w.waiting q source
  uncounted : ∀ q source, (w.tables q).byPrefix.lookup source = none → w.waiting q source = 0
  positive : ∀ s ∈ w.sessions, s.done = false → 0 < w.counts s.liveRule ∧ 0 < w.counts s.liveAll
  /-- A session that waits is in the queue's order and in that of its prefix, whose count is its. -/
  queued : ∀ q id s, w.sessions[id]? = some s → s.waitsIn q = true → id ∈ (w.tables q).order ∧
    ∃ pq, (w.tables q).byPrefix.lookup s.source = some pq ∧ id ∈ pq.order ∧ pq.live = s.live q
  bounded : ∀ rule source, w.waiting (some rule) source ≤ unrepliedPerPrefix cap
  /-- `evict_for` gives `false` only if no session waits. -/
  refused : ∀ q client, (w.evictFor q client).2 = false →
    (∀ s ∈ w.sessions, s.waitsIn q = false) ∧ (w.evictFor q client).1.sessions = w.sessions
  made : ∀ q client, (w.evictFor q client).2 = true →
    ∃ id s, Makes w (w.evictFor q client).1 q client id s

lemma World.Sound.fair (h : w.Sound cap owner) : w.Fair cap where
  counted q source pq hpq := h.counts_entry hpq
  uncounted q source hnone := h.waiting_eq_zero hnone
  positive s hs hdone := by
    rw [h.counts, h.counts, World.holders, World.holders]
    have hpos (live : Waiting → ℕ) : 0 < w.sessions.countP fun s' => !s'.done && live s' = live s :=
      countP_pos_iff.mpr ⟨s, hs, by rw [hdone, decide_eq_true rfl]; rfl⟩
    have hrule := hpos Waiting.liveRule
    have hall := hpos Waiting.liveAll
    omega
  queued q id s hid hwaits := by
    obtain ⟨hdone, hin⟩ := waitsIn_iff.mp hwaits
    exact (h.tables q).waiting id s hid hdone hin
  bounded := h.bounded
  refused q client hfalse := by
    cases hd : (w.tables q).order.dropWhile w.isDone with
    | nil =>
      rw [evictFor_none hd]
      refine ⟨fun s hs => ?_, rfl⟩
      by_contra hwaits
      obtain ⟨hdone, hin⟩ := waitsIn_iff.mp (Bool.not_eq_false _ ▸ hwaits)
      obtain ⟨id, hid⟩ := mem_iff_getElem?.mp hs
      have hmem := mem_dropWhile_isDone ((h.tables q).waiting id s hid hdone hin).1
        (by rw [isDone_eq hid, hdone])
      rw [hd] at hmem
      cases hmem
    | cons o rest =>
      rw [(evictFor_some client h hd).1] at hfalse
      cases hfalse
  made q client htrue := by
    cases hd : (w.tables q).order.dropWhile w.isDone with
    | nil =>
      rw [evictFor_none hd] at htrue
      cases htrue
    | cons o rest => exact (evictFor_some client h hd).2.2

/-- **Sessions without a reply are counted exactly and evicted fairly**, after every sequence of
events. -/
theorem unreplied_fair (cap : ℕ) (acts : List Act) :
    (after (World.step cap) World.new acts).Fair cap := by
  obtain ⟨owner, h⟩ := after_invariant (I := fun w => ∃ owner, World.Sound cap owner w) acts
    ⟨_, sound_new cap⟩ fun _ a h => sound_step h a
  exact h.fair

end Rproxy.Udp
