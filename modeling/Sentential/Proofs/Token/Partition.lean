import Mathlib.Data.List.Pairwise
import Sentential.Proofs.Token.Coverage
import Sentential.Proofs.Token.Written

/-!
# Every character of a text is accounted for

A scan cuts its text into tokens, noted characters and blanks. The tokens are pieces of the text at
their own offsets, so each token spells what stands there; what decides between the pieces — the
longest spelling of an operator, all digits of a name — is read off the front of the text and holds
wherever the piece was cut. Tokens and noted characters take stretches that follow each other
without overlap, and what they leave are the blanks.

## Main definitions

* `Token.Front` — the ways in which a token stands at the front of a text
* `Token.ReadFrom` — a token is a piece of a text at its offset
* `Token.Span`, `Token.spansOf` — the stretches that tokens and noted characters take
* `Token.AccountsFor` — tokens and noted characters account for every character of a text

## Main results

* `Token.readFrom_of_mem_tokens` — the tokens are pieces of the text
* `Token.pairwise_spansOf` — the stretches follow each other
* `Token.scan_accounts_for_text` — a scan accounts for its text
-/

namespace Sentential.Token

open Text (isBlank isAsciiDigit)

variable {c : Char} {rest cs text : List Char} {kind : Kind} {n pos i : Nat} {s : String}
variable {t : Token} {spelling : List Char × Kind}

/-! ### The front of a text -/

/-- The spelling that is found first is the longest. -/
theorem length_le_of_operator? (found : operator? cs = some spelling) :
    ∀ s ∈ spellings, s.1 <+: cs → s.1.length ≤ spelling.1.length := by
  -- The spellings are listed from the longest to the shortest.
  have falling : spellings.Pairwise fun a b => b.1.length ≤ a.1.length := by decide
  obtain ⟨-, before, after, cut, others⟩ := List.find?_eq_some_iff_append.mp found
  intro s mem isPrefix
  rw [cut, List.pairwise_append, List.pairwise_cons] at falling
  rw [cut, List.mem_append, List.mem_cons] at mem
  rcases mem with mem | rfl | mem
  · have refused := others s mem
    rw [List.isPrefixOf_iff_prefix.mpr isPrefix] at refused
    cases refused
  · exact Nat.le_refl _
  · exact falling.2.1.1 s mem

/-- A token of some kind stands at the front of a text, with so many characters behind the first. -/
inductive Front (c : Char) (rest : List Char) : Kind → Nat → Prop
  | operator {kind : Kind} {n : Nat} (listed : (c :: rest.take n, kind) ∈ spellings)
      (longest : ∀ s ∈ spellings, s.1 <+: c :: rest → s.1.length ≤ n + 1) : Front c rest kind n
  | single {kind : Kind} (found : (bracket? c <|> constant? c) = some kind) : Front c rest kind 0
  | name : Front c rest .name (rest.takeWhile isAsciiDigit).length

theorem front_of_piece (front : piece c rest = (.token kind, n)) :
    isBlank c = false ∧ Front c rest kind n := by
  unfold piece at front
  split at front
  · cases front
  next visible =>
  refine ⟨Bool.eq_false_iff.mpr visible, ?_⟩
  split at front
  · next spelling found =>
    cases front
    have listed := List.mem_of_find?_eq_some found
    have isPrefix : spelling.1.isPrefixOf (c :: rest) = true :=
      List.find?_some (p := fun s : List Char × Kind => s.1.isPrefixOf (c :: rest)) found
    have longest := length_le_of_operator? found
    obtain ⟨word, kind⟩ := spelling
    obtain ⟨more, cut⟩ := List.isPrefixOf_iff_prefix.mp isPrefix
    cases word with
    | nil => exact absurd rfl (visible_spellings _ listed).1
    | cons d word =>
      obtain ⟨rfl, rfl⟩ := List.cons.inj cut
      exact .operator (by simpa using listed) longest
  · split at front
    · next kind found =>
      cases front
      exact .single found
    · split at front
      · cases front
        exact .name
      · cases front

/-- An operator is read by its longest spelling. -/
theorem Front.longest (front : Front c rest kind n) (operator : kind.isOperator = true) :
    (c :: rest.take n, kind) ∈ spellings ∧
      ∀ s ∈ spellings, s.1 <+: c :: rest → s.1.length ≤ n + 1 := by
  cases front with
  | operator listed longest => exact ⟨listed, longest⟩
  | single found =>
    rw [(kind_of_single found).2.2] at operator
    cases operator
  | name => cases operator

theorem isAsciiDigit_head?_drop (rest : List Char) :
    ∀ x ∈ (rest.drop (rest.takeWhile isAsciiDigit).length).head?, isAsciiDigit x = false := by
  have cut := List.takeWhile_append_dropWhile (p := isAsciiDigit) (l := rest)
  have left : rest.drop (rest.takeWhile isAsciiDigit).length = rest.dropWhile isAsciiDigit := by
    calc
      _ = (rest.takeWhile isAsciiDigit ++ rest.dropWhile isAsciiDigit).drop
          (rest.takeWhile isAsciiDigit).length := by rw [cut]
      _ = rest.dropWhile isAsciiDigit := List.drop_left
  have stops := List.head?_dropWhile_not isAsciiDigit rest
  intro x mem
  rw [left] at mem
  rw [mem] at stops
  exact stops

/-- A name is read with all digits behind its letter. -/
theorem Front.ended (front : Front c rest .name n) :
    ∀ x ∈ (rest.drop n).head?, isAsciiDigit x = false := by
  cases front with
  | operator listed =>
    have unnamed : ∀ s ∈ spellings, s.2 ≠ .name := by decide
    exact absurd rfl (unnamed _ listed)
  | single found => exact absurd rfl (kind_of_single found).2.1
  | name => exact isAsciiDigit_head?_drop rest

/-- No token has a blank inside. -/
theorem Front.visible (front : Front c rest kind n) (visible : isBlank c = false) :
    ∀ x ∈ c :: rest.take n, isBlank x = false := by
  cases front with
  | operator listed => exact (visible_spellings _ listed).2
  | single => simpa using visible
  | name =>
    have digits := List.takeWhile_prefix (p := isAsciiDigit) (l := rest)
    refine List.forall_mem_cons.mpr ⟨visible, fun x mem => ?_⟩
    rw [← List.prefix_iff_eq_take.mp digits] at mem
    have digit := List.all_eq_true.mp List.all_takeWhile x mem
    exact isBlank_of_continuesName (by simp [continuesName, digit])

/-! ### Tokens as pieces -/

/-- The token is a piece of the characters `cs`, of which the first has offset `pos`. -/
def ReadFrom (pos : Nat) (cs : List Char) (t : Token) : Prop :=
  ∃ i c rest n, t.pos = pos + i ∧ cs.drop i = c :: rest ∧ piece c rest = (.token t.kind, n) ∧
    t.text = String.ofList (c :: rest.take n)

theorem ReadFrom.behind (c : Char) (read : ReadFrom (pos + (n + 1)) (rest.drop n) t) :
    ReadFrom pos (c :: rest) t := by
  obtain ⟨i, c', rest', m, offset, behind, front, text⟩ := read
  refine ⟨n + 1 + i, c', rest', m, by rw [offset, Nat.add_assoc], ?_, front, text⟩
  rw [Nat.add_right_comm, List.drop_succ_cons, ← List.drop_drop, behind]

/-- Every token but the end mark is a piece of the text. -/
theorem readFrom_of_mem_tokens (pos : Nat) (cs : List Char) :
    ∀ t ∈ (scanFrom pos cs).tokens, t.isStop = false → ReadFrom pos cs t := by
  fun_induction scanFrom pos cs with
  | case1 pos => exact List.forall_mem_singleton.mpr fun unmarked => by cases unmarked
  | case2 pos c rest p after blank ih =>
    exact fun t mem unmarked => (ih t mem unmarked).behind c
  | case3 pos c rest p after kind found ih =>
    refine List.forall_mem_cons.mpr ⟨fun _ => ?_, fun t mem unmarked => ?_⟩
    · exact ⟨0, c, rest, p.2, rfl, rfl, Prod.ext found rfl, rfl⟩
    · exact (ih t mem unmarked).behind c
  | case4 pos c rest p after unknown ih =>
    exact fun t mem unmarked => (ih t mem unmarked).behind c

theorem length_text_of_piece (front : piece c rest = (.token kind, n)) :
    (String.ofList (c :: rest.take n)).length = n + 1 := by
  have fits := le_length_of_piece front
  rw [String.length_ofList, List.length_cons, List.length_take, Nat.min_eq_left fits]

/-- Each token begins behind those before it. -/
theorem pairwise_tokens (pos : Nat) (cs : List Char) :
    (scanFrom pos cs).tokens.Pairwise fun t t' => t.pos + t.text.length ≤ t'.pos := by
  fun_induction scanFrom pos cs with
  | case1 pos => exact List.pairwise_singleton _ _
  | case2 pos c rest p after blank ih => exact ih
  | case3 pos c rest p after kind found ih =>
    refine List.pairwise_cons.mpr ⟨fun t mem => ?_, ih⟩
    have behind := le_pos_of_mem_tokens _ _ t mem
    rwa [length_text_of_piece (Prod.ext found rfl)]
  | case4 pos c rest p after unknown ih => exact ih

section ReadFrom

variable (read : ReadFrom 0 text t)
include read

/-- A piece of the text stands at the front of what follows its offset. -/
theorem ReadFrom.exists_front : ∃ c rest n, text.drop t.pos = c :: rest ∧
    Front c rest t.kind n ∧ isBlank c = false ∧ t.text.length = n + 1 ∧
    t.text.toList = c :: rest.take n := by
  obtain ⟨i, c, rest, n, offset, behind, found, text⟩ := read
  obtain ⟨visible, front⟩ := front_of_piece found
  rw [Nat.zero_add] at offset
  refine ⟨c, rest, n, by rw [offset, behind], front, visible, ?_, ?_⟩
  · rw [text, length_text_of_piece found]
  · rw [text, String.toList_ofList]

theorem ReadFrom.length_pos : 0 < t.text.length := by
  obtain ⟨-, -, n, -, -, -, length, -⟩ := read.exists_front
  omega

theorem ReadFrom.toList_text : t.text.toList = (text.drop t.pos).take t.text.length := by
  obtain ⟨c, rest, n, behind, -, -, length, chars⟩ := read.exists_front
  rw [chars, behind, length, List.take_succ_cons]

theorem ReadFrom.longest (operator : t.kind.isOperator = true) :
    (t.text.toList, t.kind) ∈ spellings ∧
      ∀ s ∈ spellings, s.1 <+: text.drop t.pos → s.1.length ≤ t.text.length := by
  obtain ⟨c, rest, n, behind, front, -, length, chars⟩ := read.exists_front
  rw [chars, behind, length]
  exact front.longest operator

theorem ReadFrom.ended (hkind : t.kind = .name) (found : text[t.pos + t.text.length]? = some c) :
    isAsciiDigit c = false := by
  obtain ⟨c', rest, n, behind, front, -, length, -⟩ := read.exists_front
  rw [hkind] at front
  rw [← List.getElem?_drop, behind, length, List.getElem?_cons_succ] at found
  exact front.ended c (by rwa [List.head?_drop])

theorem ReadFrom.visible (covers : t.Covers i) (found : text[i]? = some c) :
    isBlank c = false := by
  obtain ⟨c', rest, n, behind, front, visible, length, -⟩ := read.exists_front
  obtain ⟨j, rfl⟩ := Nat.exists_eq_add_of_le covers.1
  have within : j < n + 1 := by
    have inside := covers.2
    omega
  rw [← List.getElem?_drop, behind] at found
  refine front.visible visible c (List.mem_of_getElem? (i := j) ?_)
  rwa [← List.take_succ_cons, List.getElem?_take_of_lt within]

end ReadFrom

/-! ### Stretches -/

/-- A stretch of a text: the offsets from `start` up to `stop`. -/
structure Span where
  start : Nat
  stop : Nat

namespace Span

variable {a : Span} {l l' : List Span}

/-- The offset belongs to the stretch. -/
def Contains (a : Span) (i : Nat) : Prop := a.start ≤ i ∧ i < a.stop

/-- The stretches have no offset in common. -/
def Disjoint (a b : Span) : Prop := a.stop ≤ b.start ∨ b.stop ≤ a.start

/-- The first stretch begins before the second and does not reach into it. -/
def Before (a b : Span) : Prop := a.start < b.start ∧ a.stop ≤ b.start

/-- Two lists of stretches as one, by where they start. -/
def merge (l l' : List Span) : List Span := List.merge l l' fun a b => decide (a.start ≤ b.start)

theorem mem_merge : a ∈ merge l l' ↔ a ∈ l ∨ a ∈ l' := List.mem_merge

/-- Disjoint stretches that are in order in both lists are in order when these are merged. -/
theorem pairwise_merge (nonempty : ∀ a, a ∈ l ∨ a ∈ l' → a.start < a.stop)
    (left : l.Pairwise Before) (right : l'.Pairwise Before)
    (apart : ∀ a ∈ l, ∀ b ∈ l', a.Disjoint b) : (merge l l').Pairwise Before := by
  have rising : ∀ {l : List Span}, l.Pairwise Before →
      l.Pairwise fun a b => decide (a.start ≤ b.start) = true :=
    fun pairwise => pairwise.imp fun before => decide_eq_true (Nat.le_of_lt before.1)
  have sorted : (merge l l').Pairwise fun a b => decide (a.start ≤ b.start) = true := by
    refine List.pairwise_merge (fun a b c ab bc => ?_) (fun a b => ?_) _ _ (rising left)
      (rising right)
    · exact decide_eq_true (Nat.le_trans (of_decide_eq_true ab) (of_decide_eq_true bc))
    · simpa using Nat.le_total a.start b.start
  have disjoint : (merge l l').Pairwise Disjoint := by
    refine ((List.merge_perm_append _).pairwise_iff Or.symm).mpr ?_
    exact List.pairwise_append.mpr ⟨left.imp fun before => Or.inl before.2,
      right.imp fun before => Or.inl before.2, apart⟩
  refine (sorted.and disjoint).imp_of_mem fun {a b} memA memB both => ?_
  have lengthA := nonempty a (mem_merge.mp memA)
  have lengthB := nonempty b (mem_merge.mp memB)
  have order := of_decide_eq_true both.1
  rcases both.2 with before | behind
  · exact ⟨by omega, before⟩
  · omega

end Span

/-- The stretch that a token takes. -/
def span (t : Token) : Span := ⟨t.pos, t.pos + t.text.length⟩

/-- The stretch of a single character that is noted with its offset. -/
def noteSpan (e : Nat × Char) : Span := ⟨e.1, e.1 + 1⟩

/-- The stretches of tokens and noted characters, by where they start. -/
def spansOf (body : List Token) (skipped : List (Nat × Char)) : List Span :=
  Span.merge (body.map span) (skipped.map noteSpan)

variable {body : List Token}

theorem mem_spansOf {skipped : List (Nat × Char)} {a : Span} :
    a ∈ spansOf body skipped ↔ (∃ t ∈ body, t.span = a) ∨ ∃ e ∈ skipped, noteSpan e = a := by
  rw [spansOf, Span.mem_merge, List.mem_map, List.mem_map]

/-- What a scan finds takes stretches that follow each other. -/
theorem pairwise_spansOf (listed : body.Sublist (tokenize s))
    (nonempty : ∀ t ∈ body, 0 < t.text.length) :
    (spansOf body (scan s).skipped).Pairwise Span.Before := by
  apply Span.pairwise_merge
  · rintro a (mem | mem)
    · obtain ⟨t, inside, rfl⟩ := List.mem_map.mp mem
      exact Nat.lt_add_of_pos_right (nonempty t inside)
    · obtain ⟨e, -, rfl⟩ := List.mem_map.mp mem
      exact Nat.lt_succ_self e.1
  · have order := (pairwise_tokens 0 (normalize s).toList).sublist listed
    refine List.pairwise_map.mpr (order.imp_of_mem fun {t t'} mem _ behind => ⟨?_, behind⟩)
    exact Nat.lt_of_lt_of_le (Nat.lt_add_of_pos_right (nonempty t mem)) behind
  · have order := (pairwise_skipped 0 (normalize s).toList).2
    exact List.pairwise_map.mpr (order.imp fun less => ⟨less, less⟩)
  · intro a memA b memB
    obtain ⟨t, mem, rfl⟩ := List.mem_map.mp memA
    obtain ⟨e, noted, rfl⟩ := List.mem_map.mp memB
    -- A noted character is not covered by any token.
    have uncovered := (mem_skipped_iff.mp noted).2.2 t (listed.subset mem)
    rw [Covers, not_and] at uncovered
    simp only [Span.Disjoint, span, noteSpan]
    omega

theorem not_covers_of_text_eq (empty : t.text = "") : ¬ t.Covers i := by
  rintro ⟨start, stop⟩
  rw [empty, String.length_empty] at stop
  omega

/-- What a scan leaves out are the blanks. -/
theorem isBlank_iff_uncovered (read : ∀ t ∈ body, ReadFrom 0 (normalize s).toList t)
    (others : ∀ t ∈ tokenize s, t ∈ body ∨ t.text = "")
    (found : (normalize s).toList[i]? = some c) :
    isBlank c = true ↔ ∀ a ∈ spansOf body (scan s).skipped, ¬ a.Contains i := by
  constructor
  · intro blank a mem inside
    rcases mem_spansOf.mp mem with ⟨t, member, rfl⟩ | ⟨e, noted, rfl⟩
    · rw [(read t member).visible inside found] at blank
      cases blank
    · obtain ⟨same, visible, -⟩ := mem_skipped_iff.mp (Prod.eta e ▸ noted)
      obtain rfl : e.1 = i := Nat.le_antisymm inside.1 (Nat.le_of_lt_succ inside.2)
      rw [same, Option.some.injEq] at found
      rw [← found, visible] at blank
      cases blank
  · intro uncovered
    -- What is neither blank nor covered by a token is noted, and covered by its own stretch.
    by_contra visible
    have noted : (i, c) ∈ (scan s).skipped := by
      refine mem_skipped_iff.mpr ⟨found, Bool.eq_false_iff.mpr visible, fun t mem covers => ?_⟩
      rcases others t mem with member | empty
      · exact uncovered t.span (mem_spansOf.mpr (Or.inl ⟨t, member, rfl⟩)) covers
      · exact not_covers_of_text_eq empty covers
    exact uncovered _ (mem_spansOf.mpr (Or.inr ⟨_, noted, rfl⟩))
      ⟨Nat.le_refl i, Nat.lt_succ_self i⟩

/-! ### The whole text -/

/-- Tokens and noted characters account for every character of a text. -/
structure AccountsFor (text : List Char) (body : List Token) (skipped : List (Nat × Char)) :
    Prop where
  /-- By their offsets, tokens and noted characters follow each other without overlap. -/
  apart : (spansOf body skipped).Pairwise Span.Before
  /-- A token is what stands at its offset, and there is something of it. -/
  spelled : ∀ t ∈ body, t.text ≠ "" ∧ t.text.toList = (text.drop t.pos).take t.text.length
  /-- A noted character stands at its offset. -/
  noted : ∀ e ∈ skipped, text[e.1]? = some e.2
  /-- The other characters are the blanks. -/
  blank_iff : ∀ i c, text[i]? = some c →
    (isBlank c = true ↔ ∀ a ∈ spansOf body skipped, ¬ a.Contains i)
  /-- An operator is the longest spelling at its offset. -/
  longest : ∀ t ∈ body, t.kind.isOperator = true → (t.text.toList, t.kind) ∈ spellings ∧
    ∀ s ∈ spellings, s.1 <+: text.drop t.pos → s.1.length ≤ t.text.length
  /-- No digit follows a name. -/
  ended : ∀ t ∈ body, t.kind = .name → ∀ c, text[t.pos + t.text.length]? = some c →
    isAsciiDigit c = false

/-- **A scan accounts for its text.** Its last token is the end mark, the only one, behind the last
character; the tokens before it and the noted characters account for every character of the
normalized text. -/
theorem scan_accounts_for_text (s : String) : ∃ body,
    tokenize s = body ++ [⟨.stop, "", (normalize s).toList.length⟩] ∧
    (∀ t ∈ body, t.isStop = false) ∧
    AccountsFor (normalize s).toList body (scan s).skipped := by
  obtain ⟨body, tokens, unmarked⟩ := exists_scanFrom_eq 0 (normalize s).toList
  rw [Nat.zero_add] at tokens
  have cut : tokenize s = body ++ [⟨.stop, "", (normalize s).toList.length⟩] := tokens
  have listed : body.Sublist (tokenize s) := by
    rw [cut]
    exact List.sublist_append_left _ _
  have others : ∀ t ∈ tokenize s, t ∈ body ∨ t.text = "" := by
    rw [cut]
    simp +contextual [or_imp]
  have read : ∀ t ∈ body, ReadFrom 0 (normalize s).toList t := fun t mem =>
    readFrom_of_mem_tokens 0 _ t (listed.subset mem) (unmarked t mem)
  refine ⟨body, cut, unmarked, ?_⟩
  exact
    { apart := pairwise_spansOf listed fun t mem => (read t mem).length_pos
      spelled := fun t mem =>
        ⟨fun empty => by simpa [empty] using (read t mem).length_pos, (read t mem).toList_text⟩
      noted := fun e mem => (mem_skipped_iff.mp (Prod.eta e ▸ mem)).1
      blank_iff := fun i c found => isBlank_iff_uncovered read others found
      longest := fun t mem => (read t mem).longest
      ended := fun t mem hkind c => (read t mem).ended hkind }

/-- In `a12<->?¬ B` an operator is read whole, two operators stand side by side without a blank
between them but for a character that is noted, and the name takes both digits. -/
theorem scan_accounts_for_text_noted :
    (scan "a12<->?¬ B").skipped = [(6, '?')] ∧
    AccountsFor "A12<->?¬ B".toList [⟨.name, "A12", 0⟩, ⟨.binary .iff, "<->", 3⟩,
      ⟨.negation, "¬", 7⟩, ⟨.name, "B", 9⟩] [(6, '?')] := by
  have normal : (normalize "a12<->?¬ B").toList = "A12<->?¬ B".toList := by decide +kernel
  have found : scan "a12<->?¬ B" = ⟨[⟨.name, "A12", 0⟩, ⟨.binary .iff, "<->", 3⟩,
      ⟨.negation, "¬", 7⟩, ⟨.name, "B", 9⟩] ++ [⟨.stop, "", 10⟩], [(6, '?')]⟩ := by decide +kernel
  obtain ⟨body, cut, -, accounts⟩ := scan_accounts_for_text "a12<->?¬ B"
  rw [tokenize, found] at cut
  rw [found, normal] at accounts
  rw [(List.append_inj' cut rfl).1]
  exact ⟨by rw [found], accounts⟩

end Sentential.Token
