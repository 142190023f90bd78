import Rproxy.L7.Matcher

/-!
# The parser of `match` expressions

A phrase is a derivation in the grammar
-/

namespace Rproxy
open List Checks
namespace Matcher

/-! ## Phrases -/

inductive Level where
  | unary
  | and
  | or

inductive Phrase : Level → Type where
  | call (name : String) (args : List String) : Phrase .unary
  | not (e : Phrase .unary) : Phrase .unary
  | paren (e : Phrase .or) : Phrase .unary
  | oneAnd (e : Phrase .unary) : Phrase .and
  | and (l : Phrase .and) (r : Phrase .unary) : Phrase .and
  | oneOr (e : Phrase .and) : Phrase .or
  | or (l : Phrase .or) (r : Phrase .and) : Phrase .or

def argTokens : List String → List Token
  | [] => [.rparen]
  | [s] => [.str s, .rparen]
  | s :: rest => .str s :: .comma :: argTokens rest

namespace Phrase

def tokens : {l : Level} → Phrase l → List Token
  | _, call name args => .ident name :: .lparen :: argTokens args
  | _, not e => .not :: e.tokens
  | _, paren e => .lparen :: (e.tokens ++ [.rparen])
  | _, oneAnd e => e.tokens
  | _, and l r => l.tokens ++ .and :: r.tokens
  | _, oneOr e => e.tokens
  | _, or l r => l.tokens ++ .or :: r.tokens

def calls : {l : Level} → Phrase l → ℕ
  | _, call _ _ => 1
  | _, not e => e.calls
  | _, paren e => e.calls
  | _, oneAnd e => e.calls
  | _, and l r => l.calls + r.calls
  | _, oneOr e => e.calls
  | _, or l r => l.calls + r.calls

def nesting : {l : Level} → Phrase l → ℕ
  | _, call _ _ => 0
  | _, not e => e.nesting + 1
  | _, paren e => e.nesting + 1
  | _, oneAnd e => e.nesting
  | _, and l r => max l.nesting r.nesting
  | _, oneOr e => e.nesting
  | _, or l r => max l.nesting r.nesting

variable {Regex : Type} [RegexLike Regex] [External]

def tree : {l : Level} → Phrase l → Except ParseError (Matcher Regex)
  | _, call name args => build name args
  | _, not e => do return .not (← e.tree)
  | _, paren e => e.tree
  | _, oneAnd e => e.tree
  | _, and l r => do return .and (← l.tree) (← r.tree)
  | _, oneOr e => e.tree
  | _, or l r => do return .or (← l.tree) (← r.tree)

/-- The boolean value of a phrase, `!` over `&&` over `||`. -/
def value (Regex : Type) [RegexLike Regex] (r : RequestInfo) : {l : Level} → Phrase l → Bool
  | _, call name args =>
    (build name args : Except ParseError (Matcher Regex)).toOption.any (·.matches r)
  | _, not e => !e.value Regex r
  | _, paren e => e.value Regex r
  | _, oneAnd e => e.value Regex r
  | _, and l r' => l.value Regex r && r'.value Regex r
  | _, oneOr e => e.value Regex r
  | _, or l r' => l.value Regex r || r'.value Regex r

end Phrase

def leaves {Regex : Type} : Matcher Regex → ℕ
  | and a b => a.leaves + b.leaves
  | or a b => a.leaves + b.leaves
  | not a => a.leaves
  | _ => 1

def height {Regex : Type} : Matcher Regex → ℕ
  | and a b => max a.height b.height + 1
  | or a b => max a.height b.height + 1
  | not a => a.height + 1
  | _ => 1

variable {Regex : Type} [RegexLike Regex] [External]

variable {m : Matcher Regex} {name : String} {args : List String}

lemma leaf_of_build (h : build name args = .ok m) : m.leaves = 1 ∧ m.height = 1 := by
  have hnode : ∀ a b : Matcher Regex, m ≠ .and a b ∧ m ≠ .or a b ∧ m ≠ .not a := by
    intro a b
    refine ⟨?_, ?_, ?_⟩ <;>
    · rintro rfl
      unfold build at h
      split at h <;> simp only [bind_eq_ok, pure_eq_ok, throw_eq_ok,
        reduceCtorEq, and_false, exists_false] at h
  cases m with
  | and a b => exact absurd rfl (hnode a b).1
  | or a b => exact absurd rfl (hnode a b).2.1
  | not a => exact absurd rfl (hnode a a).2.2
  | _ => exact ⟨rfl, rfl⟩

namespace Phrase

omit [External] in
lemma calls_pos {l : Level} (e : Phrase l) : 0 < e.calls := by
  induction e with
  | call name args => exact Nat.one_pos
  | not e ih | paren e ih | oneAnd e ih => exact ih
  | and l r ihl _ => exact Nat.add_pos_left ihl _
  | oneOr e ih => exact ih
  | or l r ihl _ => exact Nat.add_pos_left ihl _

/-- **The tree of a phrase** has its value and a leaf for each call, and its height is bounded by
the calls and the nesting. -/
theorem tree_spec {l : Level} {e : Phrase l} (h : e.tree = .ok m) :
    (∀ r, m.matches r = e.value Regex r) ∧ m.leaves = e.calls ∧
      m.height ≤ e.calls + e.nesting := by
  induction e generalizing m with
  | call name args =>
    have hbuild : build name args = .ok m := h
    obtain ⟨hleaves, hheight⟩ := leaf_of_build hbuild
    refine ⟨fun r => ?_, hleaves, hheight.le⟩
    simp [value, hbuild, Except.toOption]
  | not e ih =>
    obtain ⟨a, ha, hm⟩ := bind_eq_ok.mp h
    cases hm
    obtain ⟨hvalue, hleaves, hheight⟩ := ih ha
    exact ⟨fun r => congrArg Bool.not (hvalue r), hleaves, Nat.succ_le_succ hheight⟩
  | paren e ih =>
    obtain ⟨hvalue, hleaves, hheight⟩ := ih h
    exact ⟨hvalue, hleaves, Nat.le_succ_of_le hheight⟩
  | oneAnd e ih | oneOr e ih => exact ih h
  | and l r ihl ihr | or l r ihl ihr =>
    obtain ⟨a, ha, hrest⟩ := bind_eq_ok.mp h
    obtain ⟨b, hb, hm⟩ := bind_eq_ok.mp hrest
    cases hm
    obtain ⟨hvalue, hleaves, hheight⟩ := ihl ha
    obtain ⟨hvalue', hleaves', hheight'⟩ := ihr hb
    have hl := l.calls_pos
    have hr := r.calls_pos
    refine ⟨fun q => ?_, ?_, ?_⟩
    · simp only [«matches», value, hvalue, hvalue']
    · simp only [leaves, calls, hleaves, hleaves']
    simp only [height, calls, nesting]
    omega

end Phrase

/-! ## What is accepted is a phrase -/

lemma arguments_sound {all : List String} {ts rest : List Token}
    (h : arguments name args ts = .ok (all, rest)) :
    ∃ more, all = args ++ more ∧ ts = argTokens more ++ rest ∧ (args ≠ [] → more ≠ []) := by
  fun_induction arguments name args ts with
  | case1 args s ts ih =>
    obtain ⟨more, hall, hts, hne⟩ := ih h
    obtain ⟨t, more, rfl⟩ := exists_cons_of_ne_nil (hne (by simp))
    exact ⟨s :: t :: more, by simp [hall], by simp [argTokens, hts], by simp⟩
  | case2 args s ts =>
    cases h
    exact ⟨[s], rfl, rfl, by simp⟩
  | case3 => cases h
  | case4 ts =>
    cases h
    exact ⟨[], rfl, rfl, by simp⟩
  | case5 | case6 => cases h

def Sound (l : Level) (room : ℕ) (rule : Rule Regex) : Prop :=
  ∀ p m q, rule p = .ok (m, q) → ∃ e : Phrase l, p.tokens = e.tokens ++ q.tokens ∧
    e.tree = .ok m ∧ q.terms = p.terms + e.calls ∧ e.nesting ≤ room ∧ q.terms ≤ maxTerms

structure Chained (l sub : Level) (op : Token)
    (node : Matcher Regex → Matcher Regex → Matcher Regex) where
  one : Phrase sub → Phrase l
  more : Phrase l → Phrase sub → Phrase l
  tokens_one : ∀ e, (one e).tokens = e.tokens
  tokens_more : ∀ e f, (more e f).tokens = e.tokens ++ op :: f.tokens
  calls_one : ∀ e, (one e).calls = e.calls
  calls_more : ∀ e f, (more e f).calls = e.calls + f.calls
  nesting_one : ∀ e, (one e).nesting = e.nesting
  nesting_more : ∀ e f, (more e f).nesting = max e.nesting f.nesting
  tree_one : ∀ e, ((one e).tree : Except ParseError (Matcher Regex)) = e.tree
  tree_more : ∀ e f a b, e.tree = .ok a → f.tree = .ok b → (more e f).tree = .ok (node a b)

open Phrase

def andChained : Chained .and .unary .and (.and : Matcher Regex → Matcher Regex → _) where
  one := .oneAnd
  more := .and
  tokens_one _ := rfl
  tokens_more _ _ := rfl
  calls_one _ := rfl
  calls_more _ _ := rfl
  nesting_one _ := rfl
  nesting_more _ _ := rfl
  tree_one _ := rfl
  tree_more e f a b ha hb := by rw [tree, ha, hb]; rfl

def orChained : Chained .or .and .or (.or : Matcher Regex → Matcher Regex → _) where
  one := .oneOr
  more := .or
  tokens_one _ := rfl
  tokens_more _ _ := rfl
  calls_one _ := rfl
  calls_more _ _ := rfl
  nesting_one _ := rfl
  nesting_more _ _ := rfl
  tree_one _ := rfl
  tree_more e f a b ha hb := by rw [tree, ha, hb]; rfl

section Level
variable {l sub : Level} {op : Token} {node : Matcher Regex → Matcher Regex → Matcher Regex}
  {operand : Rule Regex} {room : ℕ}

lemma chain_sound (c : Chained l sub op node) (hop : Sound sub room operand) {n : ℕ}
    {left : Matcher Regex} {p q : Parser} {e : Phrase l} (htree : e.tree = .ok left)
    (hnest : e.nesting ≤ room) (hterms : p.terms ≤ maxTerms)
    (h : chain op node operand n left p = .ok (m, q)) :
    ∃ f : Phrase l, e.tokens ++ p.tokens = f.tokens ++ q.tokens ∧ f.tree = .ok m ∧
      q.terms + e.calls = p.terms + f.calls ∧ f.nesting ≤ room ∧ q.terms ≤ maxTerms := by
  induction n generalizing left p e with
  | zero =>
    cases h
    exact ⟨e, rfl, htree, rfl, hnest, hterms⟩
  | succ n ih =>
    unfold chain at h
    split at h
    next hhead =>
      obtain ⟨ts, hts⟩ : ∃ ts, p.tokens = op :: ts := by
        cases ht : p.tokens with
        | nil => simp [ht] at hhead
        | cons t ts =>
          rw [ht, head?_cons, Option.some.injEq] at hhead
          exact ⟨ts, by rw [hhead]⟩
      obtain ⟨⟨right, p'⟩, hright, h⟩ := bind_eq_ok.mp h
      obtain ⟨f, hf, hftree, hfterms, hfnest, hle⟩ := hop _ _ _ hright
      have hf : ts = f.tokens ++ p'.tokens := by simpa [hts] using hf
      obtain ⟨g, hg, hgtree, hgterms, hgnest, hgle⟩ := ih (e := c.more e f)
        (c.tree_more _ _ _ _ htree hftree) (by rw [c.nesting_more]; exact max_le hnest hfnest)
        hle h
      refine ⟨g, ?_, hgtree, ?_, hgnest, hgle⟩
      · rw [← hg, c.tokens_more, hts, hf]
        simp
      rw [c.calls_more] at hgterms
      simp only [] at hfterms
      omega
    · cases h
      exact ⟨e, rfl, htree, rfl, hnest, hterms⟩

lemma level_sound (c : Chained l sub op node) (hop : Sound sub room operand) :
    Sound l room (level op node operand) := by
  intro p m q h
  obtain ⟨⟨left, p'⟩, hleft, h⟩ := bind_eq_ok.mp h
  obtain ⟨e, he, hetree, heterms, henest, hle⟩ := hop _ _ _ hleft
  obtain ⟨f, hf, hftree, hfterms, hfnest, hfle⟩ := chain_sound c hop (e := c.one e)
    (by rw [c.tree_one, hetree]) (by rw [c.nesting_one]; exact henest) hle h
  refine ⟨f, ?_, hftree, ?_, hfnest, hfle⟩
  · rw [he, ← hf, c.tokens_one]
  rw [c.calls_one] at hfterms
  omega

end Level

lemma call_sound {ts rest : List Token} (h : call name ts = .ok (m, rest)) :
    ∃ args, ts = .lparen :: (argTokens args ++ rest) ∧ build name args = .ok m := by
  unfold call at h
  split at h
  next ts =>
    obtain ⟨⟨args, ts'⟩, hargs, h⟩ := bind_eq_ok.mp h
    obtain ⟨b, hb, h⟩ := bind_eq_ok.mp h
    cases h
    obtain ⟨_, rfl, hts, -⟩ := arguments_sound hargs
    exact ⟨args, by rw [hts], hb⟩
  · cases h

lemma unary_sound (room : ℕ) : Sound .unary room (unary room : Rule Regex) := by
  have hident : ∀ {room p m q name rest}, p.tokens = .ident name :: rest →
      (unary room p : Except ParseError (Matcher Regex × Parser)) = .ok (m, q) →
      ∃ e : Phrase .unary, p.tokens = e.tokens ++ q.tokens ∧
        e.tree = .ok m ∧ q.terms = p.terms + e.calls ∧ e.nesting ≤ room ∧ q.terms ≤ maxTerms := by
    rintro room ⟨ts, k⟩ m q name rest rfl h
    unfold unary at h
    split at h
    · cases h
    rename_i hmax
    obtain ⟨⟨m', rest'⟩, hcall, h⟩ := bind_eq_ok.mp h
    cases h
    obtain ⟨args, hts, hbuild⟩ := call_sound hcall
    exact ⟨.call name args, by simp [tokens, hts], hbuild, rfl, Nat.zero_le _,
      Nat.not_lt.mp hmax⟩
  induction room with
  | zero =>
    rintro ⟨ts, k⟩ m q h
    cases ts with
    | nil => cases h
    | cons t ts =>
      cases t with
      | ident name => exact hident rfl h
      | _ => cases h
  | succ room ih =>
    rintro ⟨ts, k⟩ m q h
    cases ts with
    | nil => cases h
    | cons t ts =>
      cases t with
      | ident name => exact hident rfl h
      | not =>
        obtain ⟨⟨a, p⟩, ha, h⟩ := bind_eq_ok.mp h
        cases h
        obtain ⟨e, he, htree, hterms, hnest, hle⟩ := ih _ _ _ ha
        refine ⟨.not e, congrArg (Token.not :: ·) he, ?_, hterms, Nat.succ_le_succ hnest, hle⟩
        rw [tree, htree]
        rfl
      | lparen =>
        obtain ⟨⟨a, p⟩, ha, h⟩ := bind_eq_ok.mp h
        obtain ⟨e, he, htree, hterms, hnest, hle⟩ :=
          level_sound orChained (level_sound andChained ih) _ _ _ ha
        simp only [] at h
        split at h
        next rest hrest =>
          cases h
          refine ⟨.paren e, ?_, htree, hterms, Nat.succ_le_succ hnest, hle⟩
          have he : ts = e.tokens ++ p.tokens := he
          simp [tokens, he, hrest]
        · cases h
      | _ => cases h

/-! ## Every phrase is accepted -/

lemma arguments_complete {more : List String} (rest : List Token) (h : args = [] ∨ more ≠ []) :
    arguments name args (argTokens more ++ rest) = .ok (args ++ more, rest) := by
  induction more generalizing args with
  | nil =>
    obtain rfl := h.resolve_right (by simp)
    rfl
  | cons s more ih =>
    cases more with
    | nil => rfl
    | cons t more =>
      have hcons : argTokens (s :: t :: more) = .str s :: .comma :: argTokens (t :: more) := rfl
      have hrest := @ih (args ++ [s]) (.inr (by simp))
      rw [hcons, cons_append, cons_append, arguments, hrest]
      simp

section Level
variable {op : Token} {node : Matcher Regex → Matcher Regex → Matcher Regex}
  {operand : Rule Regex} {ts ts' rest : List Token} {k k' k'' : ℕ} {a b : Matcher Regex}

omit [RegexLike Regex] [External] in
lemma chain_stop (n : ℕ) (h : rest.head? ≠ some op) :
    chain op node operand n a ⟨rest, k⟩ = .ok (a, ⟨rest, k⟩) := by
  cases n with
  | zero => rfl
  | succ n => rw [chain, if_neg h]

def GoesOn (op : Token) (node : Matcher Regex → Matcher Regex → Matcher Regex)
    (operand : Rule Regex) (ts rest : List Token) (k k' : ℕ) (a : Matcher Regex) : Prop :=
  ∃ n ≥ rest.length, level op node operand ⟨ts ++ rest, k⟩ = chain op node operand n a ⟨rest, k'⟩

omit [RegexLike Regex] [External] in
lemma goesOn_one (h : operand ⟨ts ++ rest, k⟩ = .ok (a, ⟨rest, k'⟩)) :
    GoesOn op node operand ts rest k k' a := by
  refine ⟨rest.length, le_rfl, ?_⟩
  rw [level, h]
  rfl

omit [RegexLike Regex] [External] in
lemma goesOn_more (hl : GoesOn op node operand ts (op :: (ts' ++ rest)) k k' a)
    (hr : operand ⟨ts' ++ rest, k'⟩ = .ok (b, ⟨rest, k''⟩)) :
    GoesOn op node operand (ts ++ op :: ts') rest k k'' (node a b) := by
  obtain ⟨n, hn, hlevel⟩ := hl
  simp only [length_cons, length_append] at hn
  obtain ⟨n, rfl⟩ := Nat.exists_eq_succ_of_ne_zero (n := n) (by omega)
  refine ⟨n, by omega, ?_⟩
  rw [append_assoc, cons_append, hlevel, chain]
  simp only [head?_cons, if_true, tail_cons, hr]
  rfl

omit [RegexLike Regex] [External] in
lemma GoesOn.stop (h : GoesOn op node operand ts rest k k' a) (hstop : rest.head? ≠ some op) :
    level op node operand ⟨ts ++ rest, k⟩ = .ok (a, ⟨rest, k'⟩) := by
  obtain ⟨n, -, hlevel⟩ := h
  rw [hlevel, chain_stop n hstop]

end Level

/-- The parser reads the phrase, whatever follows it: of `unary` all of it, else up to where the
loop goes on. -/
def Complete (Regex : Type) [RegexLike Regex] : {l : Level} → Phrase l → Prop
  | .unary, e => ∀ room k rest (m : Matcher Regex), e.nesting ≤ room → k + e.calls ≤ maxTerms →
      e.tree = .ok m → unary room ⟨e.tokens ++ rest, k⟩ = .ok (m, ⟨rest, k + e.calls⟩)
  | .and, e => ∀ room k rest (m : Matcher Regex), e.nesting ≤ room → k + e.calls ≤ maxTerms →
      e.tree = .ok m → GoesOn .and .and (unary room) e.tokens rest k (k + e.calls) m
  | .or, e => ∀ room k rest (m : Matcher Regex), e.nesting ≤ room → k + e.calls ≤ maxTerms →
      e.tree = .ok m → rest.head? ≠ some .and →
      GoesOn .or .or (level .and .and (unary room)) e.tokens rest k (k + e.calls) m

lemma phrase_complete {l : Level} (e : Phrase l) : Complete Regex e := by
  induction e with
  | call name args =>
    intro room k rest m _ hterms htree
    have hbuild : build name args = .ok m := htree
    have hcall : call name (.lparen :: (argTokens args ++ rest)) = .ok (m, rest) := by
      rw [call, arguments_complete rest (.inl rfl)]
      simp [hbuild, bind, Except.bind, pure, Except.pure]
    have hmax : ¬ k + 1 > maxTerms := Nat.not_lt.mpr hterms
    unfold unary
    simp only [tokens, cons_append, if_neg hmax, hcall]
    rfl
  | not e ih =>
    intro room k rest m hnest hterms htree
    obtain ⟨a, ha, hm⟩ := bind_eq_ok.mp htree
    cases hm
    cases room with
    | zero => exact absurd hnest (Nat.not_succ_le_zero _)
    | succ room =>
      have he := ih room k rest a (Nat.le_of_succ_le_succ hnest) hterms ha
      unfold unary
      simp only [tokens, cons_append, he]
      rfl
  | paren e ih =>
    intro room k rest m hnest hterms htree
    cases room with
    | zero => exact absurd hnest (Nat.not_succ_le_zero _)
    | succ room =>
      have he := (ih room k (.rparen :: rest) m (Nat.le_of_succ_le_succ hnest) hterms htree
        (by simp)).stop (by simp)
      unfold unary
      simp only [tokens, cons_append, append_assoc, nil_append, he]
      rfl
  | oneAnd e ih =>
    intro room k rest m hnest hterms htree
    exact goesOn_one (ih room k rest m hnest hterms htree)
  | and l r ihl ihr =>
    intro room k rest m hnest hterms htree
    obtain ⟨a, ha, hrest⟩ := bind_eq_ok.mp htree
    obtain ⟨b, hb, hm⟩ := bind_eq_ok.mp hrest
    cases hm
    simp only [nesting, calls] at hnest hterms
    have hl := ihl room k (.and :: (r.tokens ++ rest)) a (by omega) (by omega) ha
    have hr := ihr room (k + l.calls) rest b (by omega) (by omega) hb
    rw [Nat.add_assoc] at hr
    exact goesOn_more hl hr
  | oneOr e ih =>
    intro room k rest m hnest hterms htree hrest
    exact goesOn_one ((ih room k rest m hnest hterms htree).stop hrest)
  | or l r ihl ihr =>
    intro room k rest m hnest hterms htree hrest
    obtain ⟨a, ha, hm⟩ := bind_eq_ok.mp htree
    obtain ⟨b, hb, hm⟩ := bind_eq_ok.mp hm
    cases hm
    simp only [nesting, calls] at hnest hterms
    have hl := ihl room k (.or :: (r.tokens ++ rest)) a (by omega) (by omega) ha (by simp)
    have hr := (ihr room (k + l.calls) rest b (by omega) (by omega) hb).stop hrest
    rw [Nat.add_assoc] at hr
    exact goesOn_more hl hr

/-- **The parser of `match` expressions is sound and bounded.** What it accepts is a phrase of the
grammar with its tree and its value, of at most `MAX_TERMS` leaves and height at most `MAX_TERMS +
MAX_DEPTH`; every phrase within `MAX_TERMS` and `MAX_DEPTH` whose calls build is accepted. -/
theorem parse_spec (src : String) (m : Matcher Regex) :
    (parse src = .ok m → ∃ e : Phrase .or, tokenize src = .ok e.tokens ∧ e.tree = .ok m ∧
      (∀ r, m.matches r = e.value Regex r) ∧ m.leaves ≤ maxTerms ∧
      m.height ≤ maxTerms + maxDepth) ∧
    ∀ e : Phrase .or, tokenize src = .ok e.tokens → e.calls ≤ maxTerms → e.nesting ≤ maxDepth →
      e.tree = .ok m → parse src = .ok m := by
  constructor
  · intro h
    obtain ⟨ts, hts, h⟩ := bind_eq_ok.mp h
    split at h
    · cases h
    obtain ⟨⟨m', p⟩, hparse, h⟩ := bind_eq_ok.mp h
    obtain ⟨e, he, htree, hterms, hnest, hle⟩ :=
      level_sound orChained (level_sound andChained (unary_sound maxDepth)) _ _ _ hparse
    simp only [] at h
    split at h
    next hnil =>
      cases h
      have he : ts = e.tokens := by simpa [hnil] using he
      obtain ⟨hvalue, hleaves, hheight⟩ := tree_spec htree
      exact ⟨e, by rw [hts, he], htree, hvalue, by omega, by omega⟩
    · cases h
  intro e hts hcalls hnest htree
  have hparse := (phrase_complete e maxDepth 0 [] m hnest (by rwa [Nat.zero_add]) htree
    (by simp)).stop (by simp)
  rw [append_nil] at hparse
  have hne : e.tokens ≠ [] := by
    intro hnil
    rw [hnil] at hparse
    cases hparse
  rw [parse, hts]
  simp only [bind, Except.bind, if_neg hne, hparse]

end Matcher

namespace Plain
open Matcher

theorem precedence : ∃ e : Phrase .or,
    tokenize "Host(`a`) || !Host(`b`) && Method(`GET`)" = .ok e.tokens ∧
    e.tree = .ok
      (.or (.host ["a"]) (.and (.not (.host ["b"])) (.method ["GET"]) : Matcher Empty)) := by
  obtain ⟨e, htokens, htree, -⟩ := (parse_spec "Host(`a`) || !Host(`b`) && Method(`GET`)"
    (.or (.host ["a"]) (.and (.not (.host ["b"])) (.method ["GET"]) : Matcher Empty))).1
      (by decide +kernel)
  exact ⟨e, htokens, htree⟩

end Plain
end Rproxy
