import Rproxy.Data.Bytes

/-!
# The hash of a self-update

A release is signed by its BLAKE2b hash, and the file is hashed as it is read. A full buffer is held
back until more bytes come, for the last block is marked; whatever the pieces, the state is that of
the bytes so far (`Fed`).
-/

namespace Rproxy.Minisign
open List Function Bytes

/-! ## The compression -/

abbrev Words (n : ℕ) := Fin n → UInt64

def iv : Words 8 :=
  ![0x6a09e667f3bcc908, 0xbb67ae8584caa73b, 0x3c6ef372fe94f82b, 0xa54ff53a5f1d36f1,
    0x510e527fade682d1, 0x9b05688c2b3e6c1f, 0x1f83d9abfb41bd6b, 0x5be0cd19137e2179]

def sigma : List (Fin 16 → Fin 16) :=
  [![0, 1, 2, 3, 4, 5, 6, 7, 8, 9, 10, 11, 12, 13, 14, 15],
    ![14, 10, 4, 8, 9, 15, 13, 6, 1, 12, 0, 2, 11, 7, 5, 3],
    ![11, 8, 12, 0, 5, 2, 15, 13, 10, 14, 3, 6, 7, 1, 9, 4],
    ![7, 9, 3, 1, 13, 12, 11, 14, 2, 6, 5, 10, 4, 0, 15, 8],
    ![9, 0, 5, 7, 2, 4, 10, 15, 14, 1, 11, 12, 6, 8, 3, 13],
    ![2, 12, 6, 10, 0, 11, 8, 3, 4, 13, 7, 5, 15, 14, 1, 9],
    ![12, 5, 1, 15, 14, 13, 4, 10, 0, 7, 6, 3, 9, 2, 8, 11],
    ![13, 11, 7, 14, 12, 1, 3, 9, 5, 0, 15, 4, 8, 6, 2, 10],
    ![6, 15, 14, 9, 11, 3, 0, 8, 12, 2, 13, 7, 1, 4, 10, 5],
    ![10, 2, 8, 4, 7, 6, 1, 5, 15, 11, 9, 14, 3, 12, 13, 0],
    ![0, 1, 2, 3, 4, 5, 6, 7, 8, 9, 10, 11, 12, 13, 14, 15],
    ![14, 10, 4, 8, 9, 15, 13, 6, 1, 12, 0, 2, 11, 7, 5, 3]]

def rotateRight (x n : UInt64) : UInt64 := x >>> n ||| x <<< (64 - n)

def g (v : Words 16) (a b c d : Fin 16) (x y : UInt64) : Words 16 :=
  let v := update v a (v a + v b + x)
  let v := update v d (rotateRight (v d ^^^ v a) 32)
  let v := update v c (v c + v d)
  let v := update v b (rotateRight (v b ^^^ v c) 24)
  let v := update v a (v a + v b + y)
  let v := update v d (rotateRight (v d ^^^ v a) 16)
  let v := update v c (v c + v d)
  update v b (rotateRight (v b ^^^ v c) 63)

def compress (h : Words 8) (block : List UInt8) (t : ℕ) (last : Bool) : Words 8 :=
  let m : Words 16 := fun i => .ofNat (ofBe ((block.drop (i * 8)).take 8).reverse)
  let v : Words 16 := Fin.append h iv
  let v := update v 12 (v 12 ^^^ .ofNat t)
  let v := update v 13 (v 13 ^^^ .ofNat (t / 2 ^ 64))
  let v := if last then update v 14 (~~~v 14) else v
  let round (v : Words 16) (s : Fin 16 → Fin 16) : Words 16 :=
    let v := g v 0 4 8 12 (m (s 0)) (m (s 1))
    let v := g v 1 5 9 13 (m (s 2)) (m (s 3))
    let v := g v 2 6 10 14 (m (s 4)) (m (s 5))
    let v := g v 3 7 11 15 (m (s 6)) (m (s 7))
    let v := g v 0 5 10 15 (m (s 8)) (m (s 9))
    let v := g v 1 6 11 12 (m (s 10)) (m (s 11))
    let v := g v 2 7 8 13 (m (s 12)) (m (s 13))
    g v 3 4 9 14 (m (s 14)) (m (s 15))
  let v := sigma.foldl round v
  fun i => h i ^^^ (v (i.castAdd 8) ^^^ v (i.natAdd 8))

def initial : Words 8 := update iv 0 (iv 0 ^^^ (0x01010000 ^^^ 64))

def output (h : Words 8) : List UInt8 := (ofFn h).flatMap fun w => (be 8 w.toNat).reverse

/-! ## The hash in pieces -/

structure Blake2b where
  h : Words 8
  t : ℕ
  buf : List UInt8
  len : ℕ
  length_buf : buf.length = 128
  len_le : len ≤ 128

namespace Blake2b

def new : Blake2b := ⟨initial, 0, replicate 128 0, 0, length_replicate, by decide⟩

variable (s : Blake2b) (data : List UInt8)

/-- The last block is compressed in `finish`: a full one only when more bytes come. -/
def roll : Blake2b :=
  if s.len = 128 then
    { s with h := compress s.h s.buf (s.t + 128) false, t := s.t + 128, len := 0
             len_le := by decide }
  else s

def room : ℕ := min (128 - s.len) data.length

def fill : Blake2b where
  h := s.h
  t := s.t
  buf := s.buf.take s.len ++ data.take (s.room data) ++ s.buf.drop (s.len + s.room data)
  len := s.len + s.room data
  length_buf := by
    have := s.length_buf
    have := s.len_le
    simp only [length_append, length_take, length_drop, room]
    omega
  len_le := by
    have := s.len_le
    rw [room]
    omega

lemma len_roll_lt : s.roll.len < 128 := by
  have := s.len_le
  rw [roll]
  split
  · exact (by decide : 0 < 128)
  · omega

def feed (s : Blake2b) (data : List UInt8) : Blake2b :=
  if data = [] then s else feed (s.roll.fill data) (data.drop (s.roll.room data))
termination_by data.length
decreasing_by
  have := s.len_roll_lt
  have := length_pos_iff.mpr ‹_›
  rw [length_drop, room]
  omega

def finish : List UInt8 :=
  output (compress s.h (s.buf.take s.len ++ replicate (128 - s.len) 0) (s.t + s.len) true)

end Blake2b

variable (data : List UInt8)

open Blake2b

def blake2b512 : List UInt8 := (new.feed data).finish

/-! ## The hash by blocks -/

/-- The chain value after `k` blocks, none of them the last. -/
def chain (k : ℕ) : Words 8 :=
  (List.range k).foldl
    (fun h i => compress h ((data.drop (128 * i)).take 128) (128 * (i + 1)) false) initial

def ofBlocks : List UInt8 :=
  let k := (data.length - 1) / 128
  let last := data.drop (128 * k)
  output (compress (chain data k) (last ++ replicate (128 - last.length) 0) data.length true)

lemma chain_succ (k : ℕ) : chain data (k + 1) = compress (chain data k)
    ((data.drop (128 * k)).take 128) (128 * (k + 1)) false := by
  rw [chain, range_succ, foldl_concat]
  rfl

lemma chain_append {data : List UInt8} (more : List UInt8) {k : ℕ} (h : 128 * k ≤ data.length) :
    chain (data ++ more) k = chain data k := by
  induction k with
  | zero => simp only [chain, range_zero, foldl_nil]
  | succ k ih =>
    have hblock : ((data ++ more).drop (128 * k)).take 128 = (data.drop (128 * k)).take 128 := by
      rw [drop_append_of_le_length (by omega), take_append_of_le_length]
      rw [length_drop]
      omega
    rw [chain_succ, chain_succ, ih (by omega), hblock]

/-- The state after `data`, of which `k` blocks are compressed. -/
structure Fed (data : List UInt8) (k : ℕ) (s : Blake2b) : Prop where
  h : s.h = chain data k
  t : s.t = 128 * k
  length : data.length = 128 * k + s.len
  buf : s.buf.take s.len = data.drop (128 * k)

namespace Fed
variable {data : List UInt8} {k : ℕ} {s : Blake2b}

lemma roll (hs : Fed data k s) : ∃ k', Fed data k' s.roll := by
  rw [Blake2b.roll]
  split
  · next hfull =>
    refine ⟨k + 1, ?_, ?_, ?_, ?_⟩
    · have hbuf := hs.buf
      rw [hfull, take_of_length_le s.length_buf.le] at hbuf
      rw [chain_succ, ← hs.h, ← hbuf, take_of_length_le s.length_buf.le, hs.t, Nat.mul_succ]
    · simp only [hs.t]
      omega
    · have := hs.length
      simp only
      omega
    have := hs.length
    rw [take_zero, drop_eq_nil_of_le (by omega)]
  · exact ⟨k, hs⟩

lemma fill (hs : Fed data k s) (piece : List UInt8) :
    Fed (data ++ piece.take (s.room piece)) k (s.fill piece) where
  h := by
    have := hs.length
    rw [chain_append _ (by omega)]
    exact hs.h
  t := hs.t
  length := by
    have := hs.length
    simp only [Blake2b.fill, room, length_append, length_take]
    omega
  buf := by
    have hlen := hs.length
    have hbuf := s.length_buf
    have hle := s.len_le
    have hcut : (s.buf.take s.len ++ piece.take (s.room piece)).length = s.len + s.room piece := by
      simp only [length_append, length_take, room]
      omega
    rw [drop_append_of_le_length (by omega), ← hs.buf]
    exact take_left' hcut

lemma feed (hs : Fed data k s) (hk : k = 0 ∨ 0 < s.len) (piece : List UInt8) :
    ∃ k', Fed (data ++ piece) k' (s.feed piece) ∧ (k' = 0 ∨ 0 < (s.feed piece).len) := by
  fun_induction Blake2b.feed s piece generalizing data k with
  | case1 s => exact ⟨k, by rwa [append_nil], hk⟩
  | case2 s piece hpiece ih =>
    obtain ⟨k', hroll⟩ := hs.roll
    have hpos : 0 < (s.roll.fill piece).len := by
      have := length_pos_iff.mpr hpiece
      simp only [Blake2b.fill, room]
      omega
    have h := ih (hroll.fill piece) (.inr hpos)
    rwa [append_assoc, take_append_drop] at h

lemma pieces (hs : Fed data k s) (hk : k = 0 ∨ 0 < s.len) (pieces : List (List UInt8)) :
    ∃ k', Fed (data ++ pieces.flatten) k' (pieces.foldl Blake2b.feed s) ∧
      (k' = 0 ∨ 0 < (pieces.foldl Blake2b.feed s).len) := by
  induction pieces generalizing data k s with
  | nil => exact ⟨k, by rwa [flatten_nil, append_nil], hk⟩
  | cons piece pieces ih =>
    obtain ⟨k', hfed, hk'⟩ := hs.feed hk piece
    have h := ih hfed hk'
    rwa [append_assoc] at h

lemma finish (hs : Fed data k s) (hk : k = 0 ∨ 0 < s.len) : s.finish = ofBlocks data := by
  have hlen := hs.length
  have hle := s.len_le
  have hlast : (data.length - 1) / 128 = k := by omega
  have hrest : (data.drop (128 * k)).length = s.len := by
    rw [length_drop]
    omega
  rw [Blake2b.finish, ofBlocks]
  simp only [hlast, hrest]
  rw [hs.h, hs.buf, hs.t, ← hlen]

end Fed

lemma finish_pieces (pieces : List (List UInt8)) :
    (pieces.foldl feed .new).finish = ofBlocks pieces.flatten := by
  have hnew : Fed [] 0 .new := ⟨rfl, rfl, rfl, rfl⟩
  obtain ⟨k, hfed, hk⟩ := hnew.pieces (.inl rfl) pieces
  exact hfed.finish hk

/-! ## Signatures -/

structure PublicKey where
  keyId : List UInt8
  key : List UInt8

structure Signature where
  prehashed : Bool
  keyId : List UInt8
  signature : List UInt8
  trustedComment : String
  globalSignature : List UInt8

/-- `Signature::parse`, and whether ring's Ed25519 accepts a key, a message and a signature. -/
structure External where
  parse : String → Except String Signature
  ed25519 : List UInt8 → List UInt8 → List UInt8 → Bool

/-- A read; `data []` is the end of the file. -/
inductive Read where
  | data (bytes : List UInt8)
  | interrupted
  | failed (error : String)

def idText (keyId : List UInt8) : String :=
  .ofList (keyId.reverse.flatMap fun b =>
    [(Nat.digitChar (b.toNat / 16)).toUpper, (Nat.digitChar (b.toNat % 16)).toUpper])

def legacyMax : ℕ := 64 * 2 ^ 20

variable (ext : External)
namespace Signature
variable (sig : Signature) (key : PublicKey)

def check (message : List UInt8) : Except String String :=
  if sig.keyId ≠ key.keyId then
    .error s!"signed with key {idText sig.keyId}, not the release key {idText key.keyId}"
  else if ¬ ext.ed25519 key.key message sig.signature then
    .error "the signature does not match"
  else if ¬ ext.ed25519 key.key (sig.signature ++ sig.trustedComment.toUTF8.toList)
      sig.globalSignature then
    .error "the trusted comment's signature does not match"
  else .ok sig.trustedComment

def verifyDigest (digest : List UInt8) : Except String String :=
  if sig.prehashed then sig.check ext key digest
  else .error "a legacy signature needs the data itself"

def verify (data : List UInt8) : Except String String :=
  if sig.prehashed then sig.verifyDigest ext key (blake2b512 data) else sig.check ext key data

end Signature

def verify (key : PublicKey) (signature : String) (data : List UInt8) : Except String String := do
  (← ext.parse signature).verify ext key data

def readToEnd (limit : ℕ) : List Read → Except String (List UInt8)
  | .data (b :: bytes) :: reads => do
    if limit = 0 then return []
    return (b :: bytes).take limit ++ (← readToEnd (limit - (b :: bytes).length) reads)
  | .interrupted :: reads => readToEnd limit reads
  | .failed e :: _ => if limit = 0 then .ok [] else .error e
  | _ => .ok []

def hashReads (s : Blake2b) : List Read → Except String Blake2b
  | .data (b :: bytes) :: reads => hashReads (s.feed (b :: bytes)) reads
  | .interrupted :: reads => hashReads s reads
  | .failed e :: _ => .error e
  | _ => .ok s

def verifyReader (key : PublicKey) (signature : String) (reads : List Read) :
    Except String String := do
  let sig ← ext.parse signature
  if sig.prehashed then sig.verifyDigest ext key (← hashReads .new reads).finish
  else
    let data ← readToEnd (legacyMax + 1) reads
    if legacyMax < data.length then
      .error "a legacy (not prehashed) signature is taken for files up to 64 MiB only"
    else sig.verify ext key data

/-- The reads of a file: its bytes in pieces, with interruptions, up to the end. -/
inductive ReadsOf : List UInt8 → List Read → Prop
  | done (later : List Read) : ReadsOf [] (.data [] :: later)
  | data {piece rest : List UInt8} {reads : List Read} :
    piece ≠ [] → ReadsOf rest reads → ReadsOf (piece ++ rest) (.data piece :: reads)
  | interrupted {file : List UInt8} {reads : List Read} :
    ReadsOf file reads → ReadsOf file (.interrupted :: reads)

lemma hashReads_of_readsOf {file : List UInt8} {reads : List Read} (h : ReadsOf file reads)
    (s : Blake2b) :
    ∃ pieces : List (List UInt8), pieces.flatten = file ∧
      hashReads s reads = .ok (pieces.foldl feed s) := by
  induction h generalizing s with
  | done later => exact ⟨[], rfl, rfl⟩
  | @data piece rest reads hpiece _ ih =>
    obtain ⟨b, bytes, rfl⟩ := exists_cons_of_ne_nil hpiece
    obtain ⟨pieces, rfl, hhash⟩ := ih (s.feed (b :: bytes))
    exact ⟨(b :: bytes) :: pieces, rfl, hhash⟩
  | interrupted _ ih => exact ih s

/-- The hash of any pieces is that of the blocks of their bytes; and with a prehashed signature a
file is verified as its bytes are, however it is read. -/
theorem hash_pieces_eq_blocks : (∀ pieces : List (List UInt8),
      (pieces.foldl feed .new).finish = ofBlocks pieces.flatten) ∧
    ∀ (key : PublicKey) (signature : String) (sig : Signature) (file : List UInt8)
      (reads : List Read), ext.parse signature = .ok sig → sig.prehashed = true →
      ReadsOf file reads →
      verifyReader ext key signature reads = verify ext key signature file := by
  refine ⟨finish_pieces, fun key signature sig file reads hparse hpre hreads => ?_⟩
  obtain ⟨pieces, rfl, hhash⟩ := hashReads_of_readsOf hreads .new
  have hdigest : (pieces.foldl feed .new).finish = blake2b512 pieces.flatten := by
    have hwhole := finish_pieces [pieces.flatten]
    rw [flatten_singleton] at hwhole
    rw [finish_pieces, ← hwhole]
    rfl
  rw [verifyReader, verify, hparse]
  simp only [bind, Except.bind, hpre, hhash, if_true, Signature.verify, hdigest]

/-- Only the text `sig` is a signature. -/
def signed (prehashed : Bool) : External where
  parse text := if text = "sig" then .ok ⟨prehashed, [], [], "", []⟩ else .error ""
  ed25519 _ _ _ := true

theorem verified_in_two_reads :
    verifyReader (signed true) ⟨[], []⟩ "sig" [.data [1], .interrupted, .data [2], .data []] =
      verify (signed true) ⟨[], []⟩ "sig" ([1] ++ ([2] ++ [])) :=
  (hash_pieces_eq_blocks _).2 _ _ _ _ _ rfl rfl
    (.data (by simp) (.interrupted (.data (by simp) (.done []))))

lemma readToEnd_of_readsOf {file : List UInt8} {reads : List Read} (h : ReadsOf file reads)
    (limit : ℕ) : readToEnd limit reads = .ok (file.take limit) := by
  induction h generalizing limit with
  | done later => rw [take_nil]; rfl
  | @data piece rest reads hpiece _ ih =>
    obtain ⟨b, bytes, rfl⟩ := exists_cons_of_ne_nil hpiece
    rw [readToEnd, take_append, ih]
    split
    next hzero => rw [hzero, Nat.zero_sub]; rfl
    · rfl
  | interrupted _ ih => exact ih limit

/-- A file with a legacy signature is verified as its bytes are, however it is read, up to 64 MiB;
a longer one is refused. -/
theorem legacy_verified {signature : String} {sig : Signature} {file : List UInt8}
    {reads : List Read} (hparse : ext.parse signature = .ok sig) (hlegacy : sig.prehashed = false)
    (hreads : ReadsOf file reads) (key : PublicKey) :
    verifyReader ext key signature reads = if legacyMax < file.length then
        .error "a legacy (not prehashed) signature is taken for files up to 64 MiB only"
      else verify ext key signature file := by
  rw [verifyReader, verify, hparse]
  simp only [bind, Except.bind, hlegacy, readToEnd_of_readsOf hreads, length_take,
    Bool.false_eq_true, if_false]
  split
  next hlong => rw [if_pos (by omega)]
  next hshort => rw [if_neg (by omega), take_of_length_le (by omega)]

theorem legacy_verified_in_two_reads :
    verifyReader (signed false) ⟨[], []⟩ "sig" [.data [1], .interrupted, .data [2], .data []] =
      .ok "" :=
  legacy_verified _ rfl rfl (.data (by simp) (.interrupted (.data (by simp) (.done [])))) _

end Rproxy.Minisign
