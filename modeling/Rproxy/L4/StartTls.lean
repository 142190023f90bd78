import Rproxy.Data.Text

/-!
# The plain-text part of SMTP before STARTTLS

`Lines` and `talk`, for SMTP: commands are cut from a buffer, decoded and answered until the client
asks for TLS, quits or, where TLS is not required, goes on without it; that command is encoded again
and handed over.
-/

namespace Rproxy.StartTls
open List

def utf8 (text : List Char) : List UInt8 := text.flatMap String.utf8EncodeChar

def maxLine : ℕ := 4096

def maxPlainCommands : ℕ := 32

-- `String::from_utf8_lossy` on the bytes of a line.
variable (lossy : List UInt8 → List Char)

def isLineEnd (c : Char) : Bool := c == '\r' || c == '\n'

def lineText (line : List UInt8) : List Char := (lossy line).rdropWhile isLineEnd

inductive Next where
  | line (text : List Char) (buf : List UInt8) (reads : List (List UInt8))
  | closed
  | tooLong

def next (buf : List UInt8) (reads : List (List UInt8)) : Next :=
  if 10 ∈ buf then
    .line (lineText lossy (buf.takeWhile (· != 10) ++ [10])) (buf.dropWhile (· != 10)).tail reads
  else if buf.length > maxLine then .tooLong
  else match reads with
    | [] => .closed
    | chunk :: reads => if chunk = [] then .closed else next (buf ++ chunk) reads

inductive Outcome where
  | upgrade
  | plain (ehlo : Option (List Char)) (pending : List UInt8)
  | closed
  deriving DecidableEq

def verb (line : List Char) : String :=
  String.ofList (((line.dropWhile Text.isWhitespace).takeWhile (!Text.isWhitespace ·)).map
    Char.toUpper)

abbrev Dialogue := List String × Except String (Outcome × List (List UInt8))

def Dialogue.after (reply : String) (d : Dialogue) : Dialogue := (reply :: d.1, d.2)

def commands (hostname : String) (required : Bool) :
    ℕ → Option (List Char) → List UInt8 → List (List UInt8) → Dialogue
  | 0, _, _, _ => ([], .error "too many commands before STARTTLS")
  | n + 1, ehlo, buf, reads =>
    match next lossy buf reads with
    | .tooLong => ([], .error "line too long")
    | .closed => ([], .ok (.closed, []))
    | .line line buf reads =>
      match verb line with
      | "EHLO" =>
        (commands hostname required n (some line) buf reads).after
          s!"250-{hostname}\r\n250 STARTTLS\r\n"
      | "HELO" => (commands hostname required n (some line) buf reads).after s!"250 {hostname}\r\n"
      | "STARTTLS" =>
        (["220 2.0.0 Ready to start TLS\r\n"],
          if buf = [] then .ok (.upgrade, reads) else .error "data sent before the TLS handshake")
      | "NOOP" | "RSET" => (commands hostname required n ehlo buf reads).after "250 2.0.0 OK\r\n"
      | "QUIT" => (["221 2.0.0 Bye\r\n"], .ok (.closed, reads))
      | _ =>
        if required then
          (commands hostname required n ehlo buf reads).after
            "530 5.7.0 Must issue a STARTTLS command first\r\n"
        else ([], .ok (.plain ehlo (utf8 (line ++ ['\r', '\n']) ++ buf), reads))

def talk (hostname : String) (required : Bool) (reads : List (List UInt8)) : Dialogue :=
  (commands lossy hostname required maxPlainCommands none [] reads).after
    s!"220 {hostname} ESMTP rproxy\r\n"

variable {lossy} {hostname : String} {n : ℕ} {ehlo e : Option (List Char)}
  {buf buf' pending : List UInt8} {reads reads' unread : List (List UInt8)} {line : List Char}

/-! ## Lines of the stream -/

lemma next_line (h : next lossy buf reads = .line line buf' reads') :
    ∃ l, 10 ∉ l ∧ line = lineText lossy (l ++ [10]) ∧
      buf ++ reads.flatten = l ++ 10 :: (buf' ++ reads'.flatten) := by
  fun_induction next lossy buf reads with
  | case1 reads buf hmem =>
    cases h
    have hcut : buf.dropWhile (· != 10) = 10 :: (buf.dropWhile (· != 10)).tail := by
      have hne : buf.dropWhile (· != 10) ≠ [] := fun hnil =>
        absurd (dropWhile_eq_nil_iff.mp hnil 10 hmem) (by decide)
      have hhead := head_dropWhile_not (· != 10) hne
      obtain ⟨b, rest, hb⟩ := exists_cons_of_ne_nil hne
      simp only [hb, head_cons, bne_eq_false_iff_eq] at hhead ⊢
      rw [hhead, tail_cons]
    refine ⟨buf.takeWhile (· != 10), fun hin => absurd (mem_takeWhile_imp hin) (by decide), rfl, ?_⟩
    rw [← cons_append, ← hcut, ← append_assoc, takeWhile_append_dropWhile]
  | case2 | case3 | case4 => cases h
  | case5 buf _ _ chunk reads _ ih =>
    obtain ⟨l, hl, htext, hsplit⟩ := ih h
    exact ⟨l, hl, htext, by rw [← hsplit, flatten_cons, append_assoc]⟩

def goesOn : List String := ["EHLO", "HELO", "NOOP", "RSET"]

/-- A stream with its lines up to the first command that is not one of SMTP before TLS. -/
structure Cut (lossy : List UInt8 → List Char) (stream : List UInt8) (before : List (List UInt8))
    (line rest : List UInt8) : Prop where
  stream : stream = (before.map (· ++ [10])).flatten ++ (line ++ 10 :: rest)
  noLf : ∀ l ∈ line :: before, 10 ∉ l
  answered : ∀ l ∈ before, verb (lineText lossy (l ++ [10])) ∈ goesOn
  other : verb (lineText lossy (line ++ [10])) ∉ "STARTTLS" :: "QUIT" :: goesOn

def Hands (lossy : List UInt8 → List Char) (stream handed : List UInt8) : Prop :=
  ∃ before line rest, Cut lossy stream before line rest ∧
    handed = utf8 (lineText lossy (line ++ [10]) ++ ['\r', '\n']) ++ rest

lemma Hands.answered {handed : List UInt8} (hnext : next lossy buf reads = .line line buf' reads')
    (hverb : verb line ∈ goesOn) (h : Hands lossy (buf' ++ reads'.flatten) handed) :
    Hands lossy (buf ++ reads.flatten) handed := by
  obtain ⟨l, hl, rfl, hsplit⟩ := next_line hnext
  obtain ⟨before, line, rest, hcut, hhanded⟩ := h
  refine ⟨l :: before, line, rest, ⟨?_, ?_, forall_mem_cons.mpr ⟨hverb, hcut.answered⟩, hcut.other⟩,
    hhanded⟩
  · rw [hsplit, hcut.stream, map_cons, flatten_cons, append_assoc, append_assoc, singleton_append]
  obtain ⟨hline, hbefore⟩ := forall_mem_cons.mp hcut.noLf
  exact forall_mem_cons.mpr ⟨hline, forall_mem_cons.mpr ⟨hl, hbefore⟩⟩

lemma commands_plain (h : (commands lossy hostname false n ehlo buf reads).2
      = .ok (.plain e pending, unread)) :
    Hands lossy (buf ++ reads.flatten) (pending ++ unread.flatten) := by
  induction n generalizing ehlo buf reads with
  | zero => cases h
  | succ n ih =>
    unfold commands at h
    split at h
    · cases h
    · cases h
    next line buf' reads' hnext =>
      split at h
      next hverb => exact .answered hnext (hverb ▸ by decide) (ih h)
      next hverb => exact .answered hnext (hverb ▸ by decide) (ih h)
      · split at h <;> cases h
      next hverb => exact .answered hnext (hverb ▸ by decide) (ih h)
      next hverb => exact .answered hnext (hverb ▸ by decide) (ih h)
      · cases h
      next hehlo hhelo hstarttls hnoop hrset hquit =>
        cases h
        obtain ⟨l, hl, rfl, hsplit⟩ := next_line hnext
        refine ⟨[], l, _, ⟨hsplit, forall_mem_singleton.mpr hl, nofun, ?_⟩, append_assoc _ _ _⟩
        simp only [goesOn, mem_cons, not_or]
        exact ⟨hstarttls, hquit, hehlo, hhelo, hnoop, hrset, not_mem_nil⟩

def Kept (content : List UInt8) : Prop := ∃ text, content = utf8 text ∧ text.getLast? ≠ some '\r'

lemma utf8_append (a b : List Char) : utf8 (a ++ b) = utf8 a ++ utf8 b := flatMap_append

lemma utf8_crlf : utf8 ['\r', '\n'] = [13, 10] := by decide

lemma utf8_lineText (hlossy : ∀ text, lossy (utf8 text) = text) {content : List UInt8}
    (hlf : 10 ∉ content) : utf8 (lineText lossy (content ++ [13, 10])) = content ↔
    Kept content := by
  unfold lineText
  constructor
  · intro h
    refine ⟨_, h.symm, fun hlast => ?_⟩
    have hne := ne_nil_of_mem (mem_of_getLast? hlast)
    rw [getLast?_eq_some_getLast hne] at hlast
    exact rdropWhile_last_not _ _ hne (by rw [Option.some.inj hlast]; rfl)
  rintro ⟨text, rfl, hlast⟩
  have hself : text.rdropWhile isLineEnd = text := by
    refine rdropWhile_eq_self_iff.mpr fun hne hend => ?_
    rw [isLineEnd, Bool.or_eq_true, beq_iff_eq, beq_iff_eq] at hend
    rcases hend with hcr | hnl
    · exact hlast (by rw [getLast?_eq_some_getLast hne, hcr])
    · exact hlf (mem_flatMap.mpr ⟨'\n', hnl ▸ getLast_mem hne, by decide⟩)
  rw [← utf8_crlf, ← utf8_append, hlossy, ← singleton_append, ← append_assoc,
    rdropWhile_concat_pos _ _ _ rfl, rdropWhile_concat_pos _ _ _ rfl, hself]

abbrev CrlfLines (stream : List UInt8) : Prop :=
  ∀ i < stream.length, stream[i]? = some 10 → 0 < i ∧ stream[i - 1]? = some 13

lemma CrlfLines.getLast? {a b : List UInt8} (h : CrlfLines (a ++ 10 :: b)) :
    a.getLast? = some 13 := by
  obtain ⟨hpos, hprev⟩ := h a.length (by simp) (by simp)
  rwa [getElem?_append_left (by omega), ← getLast?_eq_getElem?] at hprev

/-- **The plain hand-over keeps the bytes of a command that is text.** Where `talk` goes on without
TLS the stream has lines of `EHLO`, `HELO`, `NOOP` and `RSET`, then one of another command; what is
handed over and left to read is the stream from that line on exactly when the line is UTF-8 without
a further carriage return before its CRLF. -/
theorem plain_handover (hlossy : ∀ text, lossy (utf8 text) = text) (hcrlf : CrlfLines reads.flatten)
    (h : (talk lossy hostname false reads).2 = .ok (.plain e pending, unread)) :
    ∃ before content rest, Cut lossy reads.flatten before (content ++ [13]) rest ∧
      (pending ++ unread.flatten = content ++ 13 :: 10 :: rest ↔ Kept content) := by
  obtain ⟨before, line, rest, hcut, hhanded⟩ := commands_plain h
  rw [nil_append] at hcut
  rw [hcut.stream, ← append_assoc] at hcrlf
  have hlast := hcrlf.getLast?
  rcases eq_nil_or_concat' line with rfl | ⟨content, b, rfl⟩
  · -- Without a carriage return the line would be right after the end of the one before.
    rcases eq_nil_or_concat' before with rfl | ⟨before, l, rfl⟩ <;> simp at hlast
  rw [← append_assoc, getLast?_concat, Option.some.injEq] at hlast
  subst hlast
  refine ⟨before, content, rest, hcut, ?_⟩
  have hlf : 10 ∉ content := fun hin => hcut.noLf _ mem_cons_self (mem_append_left _ hin)
  rw [hhanded, append_assoc, utf8_append, ← utf8_lineText hlossy hlf, append_assoc]
  exact append_left_inj (13 :: 10 :: rest)

def lossyText (bytes : List UInt8) : List Char :=
  match bytes.toByteArray.utf8Decode? with
  | some text => text.toList
  | none => bytes.map fun b => if b < 128 then Char.ofNat b.toNat else '\uFFFD'

lemma lossyText_utf8 (text : List Char) : lossyText (utf8 text) = text := by
  have hdecode : (utf8 text).toByteArray.utf8Decode? = some text.toArray := utf8Decode?_utf8Encode
  rw [lossyText, hdecode]

theorem handover_keeps_text :
    let stream := utf8 "NOOP\r\nMAIL\r\nRCPT\r\n".toList
    ∃ before content rest, Cut lossyText [stream].flatten before (content ++ [13]) rest ∧
      (stream.drop 6 ++ [] = content ++ 13 :: 10 :: rest ↔ Kept content) :=
  @plain_handover _ "mx" none _ _ [] lossyText_utf8 (by decide +kernel) (by decide +kernel)

/-- One byte that is not UTF-8 reaches the server as three others. -/
theorem handover_changes_byte : (talk lossyText "mx" false [[77, 65, 73, 76, 32, 255, 13, 10]]).2
      = .ok (.plain none [77, 65, 73, 76, 32, 239, 191, 189, 13, 10], []) := by
  decide +kernel

/-! ## The upgrade -/

lemma next_taken (h : next lossy buf reads = .line line buf' reads') :
    ∃ taken, reads = taken ++ reads' := by
  fun_induction next lossy buf reads with
  | case1 =>
    cases h
    exact ⟨[], rfl⟩
  | case2 | case3 | case4 => cases h
  | case5 _ _ _ chunk _ _ ih =>
    obtain ⟨taken, rfl⟩ := ih h
    exact ⟨chunk :: taken, rfl⟩

/-- What was taken of the reads ends with the line `STARTTLS`. -/
def Asked (lossy : List UInt8 → List Char) (buf : List UInt8) (reads unread : List (List UInt8)) :
    Prop :=
  ∃ taken l, reads = taken ++ unread ∧ l ++ [10] <:+ buf ++ taken.flatten ∧ 10 ∉ l ∧
    verb (lineText lossy (l ++ [10])) = "STARTTLS"

lemma commands_upgrade {required : Bool}
    (h : (commands lossy hostname required n ehlo buf reads).2 = .ok (.upgrade, unread)) :
    Asked lossy buf reads unread := by
  induction n generalizing ehlo buf reads with
  | zero => cases h
  | succ n ih =>
    unfold commands at h
    split at h
    · cases h
    · cases h
    next line buf' reads' hnext =>
      obtain ⟨l, hl, rfl, hsplit⟩ := next_line hnext
      obtain ⟨taken, rfl⟩ := next_taken hnext
      rw [flatten_append, ← append_assoc, ← cons_append, ← append_assoc, append_left_inj] at hsplit
      have hmore : Asked lossy buf' reads' unread → Asked lossy buf (taken ++ reads') unread := by
        rintro ⟨more, l', rfl, hlast, hrest⟩
        refine ⟨taken ++ more, l', (append_assoc _ _ _).symm, hlast.trans ?_, hrest⟩
        rw [flatten_append, ← append_assoc, hsplit, append_assoc]
        exact suffix_append_of_suffix (suffix_cons _ _)
      split at h
      · exact hmore (ih h)
      · exact hmore (ih h)
      next hverb =>
        split at h
        next hempty =>
          cases h
          exact ⟨taken, l, rfl, by rw [hsplit, hempty], hl, hverb⟩
        · cases h
      · exact hmore (ih h)
      · exact hmore (ih h)
      · cases h
      · split at h
        · exact hmore (ih h)
        · cases h

/-- **No byte sent in clear gets into the TLS session**: when `talk` ends in the upgrade, the line
`STARTTLS` is the end of all that was read, and the handshake begins with the next read. -/
theorem upgrade_after_starttls {required : Bool}
    (h : (talk lossy hostname required reads).2 = .ok (.upgrade, unread)) :
    Asked lossy [] reads unread :=
  commands_upgrade h

theorem upgrade_of_ehlo : Asked lossyText [] [utf8 "EHLO a\r\nSTARTTLS\r\n".toList, [22]] [[22]] :=
  @upgrade_after_starttls _ "mx" _ _ true (by decide +kernel)

end Rproxy.StartTls
