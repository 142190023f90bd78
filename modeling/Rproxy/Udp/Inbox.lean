import Rproxy.Programs.Runs

/-!
# The queue of a UDP session

A datagram joins only while fewer datagrams wait than `SESSION_QUEUE_BYTES` would hold of its size.
That bounds the bytes: what stands at a place was small enough for it when it came, and only moves
forward.
-/

namespace Rproxy.Udp
open List

def sessionQueue : ℕ := 1024

def sessionQueueBytes : ℕ := 2 <<< 20

abbrev Datagram := { data : List UInt8 // data.length ≤ 65535 }

/-- The channel of a session; `sending` is the datagram of an `enqueue` that has not sent yet. -/
structure Inbox where
  queue : List Datagram
  sending : Option Datagram

namespace Inbox

/-- `mpsc::Sender::capacity`. -/
def capacity (c : Inbox) : ℕ := sessionQueue - c.queue.length

inductive Act
  | look (data : Datagram)
  | send
  | take

/-- `enqueue` in its two steps, with the consumer's between them. -/
def step (c : Inbox) : Act → Inbox
  | .look data =>
    let waiting := sessionQueue - c.capacity
    if c.sending = none ∧ waiting < min (sessionQueueBytes / max data.1.length 1) sessionQueue then
      { c with sending := some data }
    else c
  | .send =>
    match c.sending with
    | some data =>
      if 0 < c.capacity then ⟨c.queue ++ [data], none⟩ else { c with sending := none }
    | none => c
  | .take => { c with queue := c.queue.tail }

structure Placed (c : Inbox) : Prop where
  room : c.queue.length ≤ sessionQueue
  place : ∀ i data, c.queue[i]? = some data → data.1.length * (i + 1) ≤ sessionQueueBytes
  sending : ∀ data ∈ c.sending, data.1.length * (c.queue.length + 1) ≤ sessionQueueBytes

variable {c : Inbox}

lemma Placed.look (h : c.Placed) (data : Datagram) : (c.step (.look data)).Placed := by
  rw [step]
  split_ifs with hlook
  · refine ⟨h.room, h.place, fun d hd => ?_⟩
    cases hd
    obtain ⟨_, hwaiting⟩ := hlook
    rw [capacity] at hwaiting
    have hlt : c.queue.length + 1 ≤ sessionQueueBytes / max data.1.length 1 := by omega
    calc data.1.length * (c.queue.length + 1)
        ≤ max data.1.length 1 * (sessionQueueBytes / max data.1.length 1) :=
          Nat.mul_le_mul (le_max_left _ _) hlt
      _ ≤ sessionQueueBytes := Nat.mul_div_le _ _
  · exact h

lemma Placed.send (h : c.Placed) : (c.step .send).Placed := by
  rw [step]
  cases hs : c.sending with
  | none => exact h
  | some data =>
    split_ifs with hcapacity
    · rw [capacity] at hcapacity
      refine ⟨?_, fun i d hd => ?_, fun _ hnone => by cases hnone⟩
      · rw [length_append, length_singleton]
        omega
      rcases getElem?_concat_cases hd with hd | ⟨rfl, rfl⟩
      · exact h.place i d hd
      · exact h.sending d (hs ▸ rfl)
    · exact ⟨h.room, h.place, fun _ hnone => by cases hnone⟩

lemma Placed.take (h : c.Placed) : (c.step .take).Placed := by
  -- a datagram that moves forward, or is still to come, has the more room
  have hle : c.queue.tail.length ≤ c.queue.length := by
    rw [length_tail]
    exact Nat.sub_le _ _
  refine ⟨hle.trans h.room, fun i d hd => ?_, fun d hd => ?_⟩
  · have hplace := h.place (i + 1) d (by rwa [← getElem?_tail])
    exact (Nat.mul_le_mul_left _ (Nat.le_succ _)).trans hplace
  · exact (Nat.mul_le_mul_left _ (Nat.succ_le_succ hle)).trans (h.sending d hd)

lemma Placed.step (h : c.Placed) (a : Act) : (c.step a).Placed := by
  cases a with
  | look data => exact h.look data
  | send => exact h.send
  | take => exact h.take

/-- The most that a datagram at the place behind `i` others can have. -/
def most (i : ℕ) : ℕ := min 65535 (sessionQueueBytes / (i + 1))

lemma sum_le_most {queue : List Datagram}
    (h : ∀ i data, queue[i]? = some data → data.1.length ≤ most i) :
    (queue.map fun data => data.1.length).sum ≤ ∑ i ∈ Finset.range queue.length, most i := by
  induction queue using List.reverseRecOn with
  | nil => exact Nat.zero_le _
  | append_singleton queue last ih =>
    have hlast := h queue.length last (by simp)
    have hsum := ih fun i data hi => by
      refine h i data ?_
      rwa [getElem?_append_left (lt_of_getElem? hi)]
    rw [map_append, sum_append, map_singleton, length_append, length_singleton,
        Finset.sum_range_succ]
    exact Nat.add_le_add hsum hlast

lemma sum_most_le : 2 * ∑ i ∈ Finset.range sessionQueue, most i ≤ 9 * sessionQueueBytes := by
  decide +kernel

/-- **A session's queue is bounded in bytes.** The datagram behind `i` others has at most
`SESSION_QUEUE_BYTES / (i + 1)` bytes, and the queue at most four and a half times
`SESSION_QUEUE_BYTES`. -/
theorem queue_bounded_in_bytes (acts : List Act) :
    let c := after Inbox.step ⟨[], none⟩ acts
    (∀ i data, c.queue[i]? = some data → data.1.length ≤ sessionQueueBytes / (i + 1)) ∧
      2 * (c.queue.map fun data => data.1.length).sum ≤ 9 * sessionQueueBytes := by
  intro c
  have hplaced : c.Placed := by
    refine after_invariant (I := Placed) acts ⟨Nat.zero_le _, ?_, ?_⟩ fun _ a h => h.step a
    · intro i data hnone
      cases hnone
    intro data hnone
    cases hnone
  have hplace : ∀ i data, c.queue[i]? = some data → data.1.length ≤ sessionQueueBytes / (i + 1) :=
    fun i data hi => (Nat.le_div_iff_mul_le i.succ_pos).mpr (hplaced.place i data hi)
  refine ⟨hplace, ?_⟩
  calc 2 * (c.queue.map fun data => data.1.length).sum
      ≤ 2 * ∑ i ∈ Finset.range c.queue.length, most i :=
        Nat.mul_le_mul_left 2 (sum_le_most fun i data hi => le_min data.2 (hplace i data hi))
    _ ≤ 2 * ∑ i ∈ Finset.range sessionQueue, most i :=
        Nat.mul_le_mul_left 2 (Finset.sum_le_sum_of_subset (Finset.range_mono hplaced.room))
    _ ≤ 9 * sessionQueueBytes := sum_most_le

end Inbox
end Rproxy.Udp
