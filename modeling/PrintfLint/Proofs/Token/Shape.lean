import Mathlib.Data.Bool.AllAny
import Mathlib.Data.List.TakeWhile
import PrintfLint.Token.Lexeme

/-!
# PrintfLint.Proofs.Token.Shape — the shapes of lexemes

* `Ranges.has_eq_false_of_apart` — sets of characters whose ranges lie apart share none;
* `LongestRun` — characters of one kind, up to the first that is not of it;
* `Shape` — what the text of a token of each kind looks like, given the text after it;
* `next?_eq_some_iff` — the lexeme at the front of a text is the only one of any shape;
* `Shape.before` — what has the shape of a token before some text has it before any other text that
  does not make it longer.

The kinds are told apart by their first character, except that the keyword is a run of letters. No
character is both a letter and a decimal digit, which is checked range by range.
-/

namespace PrintfLint

namespace Text

/-! ## Classes of characters -/

namespace Ranges

/-- No range of the one set meets a range of the other. Both are gone through from the low end. -/
def apart : Ranges → Ranges → Bool
  | [], _ => true
  | p :: a, b =>
    let higher := b.dropWhile fun q => q.2 < p.1
    (higher.head?.all fun q => p.2 < q.1) && apart a higher

theorem covers_cons {p : Nat × Nat} {a : Ranges} {n : Nat} (h : covers (p :: a) n = true) :
    p.1 ≤ n ∧ (n ≤ p.2 ∨ covers a n = true) := by
  rw [covers] at h
  by_cases hlo : n < p.1
  · simp [hlo] at h
  · refine ⟨by omega, ?_⟩
    by_cases hhi : n ≤ p.2
    · exact .inl hhi
    · simp only [if_neg hlo, if_neg hhi] at h
      exact .inr h

/-- Ranges that end too low do not count. -/
theorem covers_dropWhile {b : Ranges} {lo n : Nat} (hlo : lo ≤ n) (h : covers b n = true) :
    covers (b.dropWhile fun q => q.2 < lo) n = true := by
  induction b with
  | nil => cases h
  | cons q b ih =>
    rw [List.dropWhile_cons]
    split
    · -- this range is dropped, and the number is above it
      rename_i hlow
      have hlow : q.2 < lo := by simpa using hlow
      rcases covers_cons h with ⟨_, hhi | hrest⟩
      · omega
      · exact ih hrest
    · exact h

theorem not_apart_of_covers {a b : Ranges} {n : Nat} (ha : covers a n = true)
    (hb : covers b n = true) : apart a b = false := by
  -- what is dropped from the second set lies below the common character
  induction a generalizing b with
  | nil => cases ha
  | cons p a ih =>
    rw [apart, Bool.and_eq_false_iff]
    rcases covers_cons ha with ⟨hlo, hcovered⟩
    have hhigher := covers_dropWhile hlo hb
    rcases hcovered with hhi | hrest
    · left
      cases hfirst : b.dropWhile fun q => q.2 < p.1 with
      | nil =>
        rw [hfirst] at hhigher
        cases hhigher
      | cons q higher =>
        rw [hfirst] at hhigher
        rcases covers_cons hhigher with ⟨hq, _⟩
        have hmeet : ¬ p.2 < q.1 := by omega
        simpa using hmeet
    · exact .inr (ih hrest hhigher)

/-- Sets whose ranges lie apart share no character. -/
theorem has_eq_false_of_apart {a b : Ranges} (h : a.apart b = true) {c : Char}
    (hc : a.has c = true) : b.has c = false := by
  rw [Bool.eq_false_iff]
  intro hc'
  rw [not_apart_of_covers hc hc'] at h
  cases h

end Ranges

theorem decimals_apart_letters : decimals.apart letters = true := by
  decide +kernel

theorem isLetter_eq_false_of_isDecimal {c : Char} (h : isDecimal c = true) :
    isLetter c = false :=
  Ranges.has_eq_false_of_apart decimals_apart_letters h

theorem blanks_apart_letters : blanks.apart letters = true := by
  decide +kernel

theorem blanks_apart_decimals : blanks.apart decimals = true := by
  decide +kernel

/-- White space is neither a letter nor a decimal digit. -/
theorem isLetter_isDecimal_of_isBlank {c : Char} (h : isBlank c = true) :
    isLetter c = false ∧ isDecimal c = false :=
  ⟨Ranges.has_eq_false_of_apart blanks_apart_letters h,
    Ranges.has_eq_false_of_apart blanks_apart_decimals h⟩

/-- What lies between two printable characters of ASCII is one of them. -/
theorem toNat_of_between {lo hi c : Char} (hlo : 0x21 ≤ lo.toNat) (hhi : hi.toNat ≤ 0x7E)
    (h : lo.val ≤ c.val ∧ c.val ≤ hi.val) : 0x21 ≤ c.toNat ∧ c.toNat ≤ 0x7E :=
  ⟨le_trans hlo (UInt32.le_iff_toNat_le.mp h.1), le_trans (UInt32.le_iff_toNat_le.mp h.2) hhi⟩

/-- The letters and digits that `Char` knows are printable characters of ASCII. -/
theorem toNat_of_isAlphanum {c : Char} (h : c.isAlphanum = true) :
    0x21 ≤ c.toNat ∧ c.toNat ≤ 0x7E := by
  have hclasses : (c.isUpper || c.isLower || c.isDigit) = true := h
  rw [Bool.or_eq_true, Bool.or_eq_true] at hclasses
  rcases hclasses with (hupper | hlower) | hdigit
  · have hrange : 'A'.val ≤ c.val ∧ c.val ≤ 'Z'.val := of_decide_eq_true hupper
    exact toNat_of_between (by decide) (by decide) hrange
  · have hrange : (decide ('a'.val ≤ c.val) && decide (c.val ≤ 'z'.val)) = true := hlower
    rw [Bool.and_eq_true, decide_eq_true_eq, decide_eq_true_eq] at hrange
    exact toNat_of_between (by decide) (by decide) hrange
  · exact toNat_of_between (by decide) (by decide) (Char.isDigit_iff_toNat.mp hdigit)

end Text

/-! ## Longest runs -/

/-- All characters have the property, and the text after them does not start with another one. -/
def LongestRun (p : Char → Bool) (us rest : List Char) : Prop :=
  (∀ c ∈ us, p c = true) ∧ ∀ c ∈ rest.head?, p c = false

theorem longestRun_takeWhile (p : Char → Bool) (cs : List Char) :
    LongestRun p (cs.takeWhile p) (cs.dropWhile p) := by
  constructor
  · intro c hc
    exact List.mem_takeWhile_imp hc
  · intro c hc
    have hnot := List.head?_dropWhile_not p cs
    rw [Option.mem_def.mp hc] at hnot
    simpa using hnot

theorem LongestRun.takeWhile_eq {p : Char → Bool} {us rest : List Char}
    (h : LongestRun p us rest) : (us ++ rest).takeWhile p = us := by
  rw [List.takeWhile_append_of_pos h.1]
  cases rest with
  | nil => simp
  | cons c rest =>
    have hc : p c = false := h.2 c rfl
    simp [hc]

theorem LongestRun.dropWhile_eq {p : Char → Bool} {us rest : List Char}
    (h : LongestRun p us rest) : (us ++ rest).dropWhile p = rest := by
  have hsplit := List.takeWhile_append_dropWhile (p := p) (l := us ++ rest)
  rw [h.takeWhile_eq] at hsplit
  exact List.append_cancel_left hsplit

/-- Characters other than a mark run up to the mark. -/
theorem longestRun_of_notMem {mark : Char} {us : List Char} (h : mark ∉ us) (rest : List Char) :
    LongestRun (fun c => c ≠ mark) us (mark :: rest) := by
  constructor
  · intro c hc
    have hne : c ≠ mark := fun heq => h (heq ▸ hc)
    simpa using hne
  · intro c hc
    cases hc
    simp

/-! ## Shapes -/

open Lexeme in
/-- What the text of a token looks like, given the text after it. -/
inductive Shape : Kind → List Char → List Char → Prop where
  | printf (rest : List Char) : Shape .printf ['p', 'r', 'i', 'n', 't', 'f'] rest
  | lparen (rest : List Char) : Shape .lparen ['('] rest
  | rparen (rest : List Char) : Shape .rparen [')'] rest
  | semicolon (rest : List Char) : Shape .semicolon [';'] rest
  | comma (rest : List Char) : Shape .comma [','] rest
  | operator {c : Char} (hc : c ∈ ['+', '-', '*', '/']) (rest : List Char) :
      Shape .operator [c] rest
  | name {c : Char} {us rest : List Char} (hc : Text.isLetter c = true)
      (run : LongestRun isNamePart us rest) (hkeyword : ¬ keyword <+: c :: us) :
      Shape .identifier (c :: us) rest
  | number {c : Char} {us rest : List Char} (hc : Text.isDecimal c = true)
      (run : LongestRun isNumberPart us rest) : Shape .number (c :: us) rest
  | directive {us rest : List Char} (run : LongestRun isDirectivePart us rest) :
      Shape .directive ('%' :: us) rest
  | literal {us : List Char} (hus : '"' ∉ us) (rest : List Char) :
      Shape .literal ('"' :: (us ++ ['"'])) rest
  | openLiteral {us : List Char} (hus : '"' ∉ us) : Shape .literal ('"' :: us) []

namespace Shape

open Lexeme

theorem ne_nil {k : Kind} {text rest : List Char} (h : Shape k text rest) : text ≠ [] := by
  cases h <;> simp

/-- A token has neither the kind of the end of input nor that of a function. -/
theorem kind_ne {k : Kind} {text rest : List Char} (h : Shape k text rest) :
    k ≠ .endOfInput ∧ k ≠ .function := by
  cases h <;> simp

/-- A run of name characters before which the keyword does not start does not make it start. -/
theorem keyword_notPrefix {c : Char} {us rest : List Char} (run : LongestRun isNamePart us rest)
    (hkeyword : ¬ keyword <+: c :: us) : ¬ keyword <+: c :: (us ++ rest) := by
  intro h
  have hfront : c :: us <+: c :: (us ++ rest) := ⟨rest, rfl⟩
  rcases List.prefix_or_prefix_of_prefix h hfront with hshort | ⟨missing, hmissing⟩
  · exact hkeyword hshort
  · -- the keyword would have to go on in the rest, which no character of a name starts
    rcases h with ⟨behind, hbehind⟩
    rw [← hmissing, List.append_assoc, ← List.cons_append] at hbehind
    have hrest : missing ++ behind = rest := List.append_cancel_left hbehind
    cases missing with
    | nil =>
      rw [List.append_nil] at hmissing
      exact hkeyword (hmissing ▸ List.prefix_refl _)
    | cons x missing =>
      have hx : x ∈ keyword := by
        rw [← hmissing]
        simp
      have hpart : ∀ x ∈ keyword, isNamePart x = true :=
        List.all_iff_forall_prop.mp (by decide)
      have hnot : isNamePart x = false := run.2 x (by rw [← hrest]; rfl)
      rw [hpart x hx] at hnot
      cases hnot

/-! ## The lexeme at the front -/

/-- Where the keyword does not start, the first character decides. -/
theorem next?_of_notPrefix {c : Char} {cs : List Char} (h : ¬ keyword <+: c :: cs) :
    next? c cs =
      match punctuation? c with
      | some kind => some (single kind c cs)
      | none =>
        if c = '"' then some (Lexeme.literal c cs)
        else if c = '%' then some (Lexeme.directive c cs)
        else if Text.isLetter c then some (headed .identifier isNamePart c cs)
        else if Text.isDecimal c then some (headed .number isNumberPart c cs)
        else if isOperator c then some (single .operator c cs)
        else none := by
  have hfalse : keyword.isPrefixOf (c :: cs) = false := by
    rw [Bool.eq_false_iff]
    exact fun htrue => h (List.isPrefixOf_iff_prefix.mp htrue)
  rw [next?, hfalse]
  rfl

theorem notPrefix_of_ne {c : Char} (h : c ≠ 'p') (cs : List Char) : ¬ keyword <+: c :: cs := by
  rintro ⟨behind, hbehind⟩
  exact h (List.cons.inj hbehind).1.symm

theorem punctuation?_eq_none {c : Char} (h : c ∉ ['(', ')', ';', ',']) :
    punctuation? c = none := by
  unfold punctuation?
  split <;> simp_all

/-- No letter and no decimal digit is a token of its own or starts a literal or a directive. -/
theorem of_isLetter_or_isDecimal {c : Char}
    (h : Text.isLetter c = true ∨ Text.isDecimal c = true) :
    punctuation? c = none ∧ c ≠ '"' ∧ c ≠ '%' := by
  -- the six characters are checked one by one, and the given one is none of them
  have hneither : ∀ d ∈ ['(', ')', ';', ',', '"', '%'],
      Text.isLetter d = false ∧ Text.isDecimal d = false :=
    List.all_iff_forall_prop.mp (by decide)
  have hne : ∀ d ∈ ['(', ')', ';', ',', '"', '%'], c ≠ d := by
    rintro d hd rfl
    simp [hneither c hd] at h
  refine ⟨punctuation?_eq_none ?_, hne '"' (by decide), hne '%' (by decide)⟩
  intro hmem
  exact hne c (by simp_all) rfl

/-- No token starts with a character that belongs to none of the classes, whatever comes after
it. -/
theorem next?_eq_none_iff {c : Char} {cs : List Char} :
    next? c cs = none ↔ punctuation? c = none ∧ c ≠ '"' ∧ c ≠ '%' ∧ Text.isLetter c = false ∧
      Text.isDecimal c = false ∧ isOperator c = false := by
  by_cases hkeyword : keyword <+: c :: cs
  · -- the keyword starts with a letter
    have hfound : next? c cs ≠ none := by
      rw [next?, if_pos (List.isPrefixOf_iff_prefix.mpr hkeyword)]
      exact Option.some_ne_none _
    have hletter : Text.isLetter c = true := by
      obtain ⟨behind, hbehind⟩ := hkeyword
      rw [← (List.cons.inj hbehind).1]
      decide
    simp [hfound, hletter]
  · rw [next?_of_notPrefix hkeyword]
    cases hpunct : punctuation? c with
    | some k => simp
    | none => grind

theorem literal_of_closed {us : List Char} (hus : '"' ∉ us) (rest : List Char) :
    Lexeme.literal '"' (us ++ '"' :: rest) = ⟨.literal, '"' :: (us ++ ['"']), rest⟩ := by
  have hrun := longestRun_of_notMem hus rest
  simp only [Lexeme.literal, hrun.takeWhile_eq, hrun.dropWhile_eq, List.cons_append]

theorem literal_of_open {us : List Char} (hus : '"' ∉ us) :
    Lexeme.literal '"' us = ⟨.literal, '"' :: us, []⟩ := by
  have hdrop : us.dropWhile (fun c => c ≠ '"') = [] := by
    rw [List.dropWhile_eq_nil_iff]
    intro c hc
    have hne : c ≠ '"' := fun heq => hus (heq ▸ hc)
    simpa using hne
  simp only [Lexeme.literal, hdrop]

/-- What has the shape of a token in front of a text is the lexeme that is found there. -/
theorem next?_eq {k : Kind} {text rest : List Char} (h : Shape k text rest) :
    ∃ c cs, text ++ rest = c :: cs ∧ next? c cs = some ⟨k, text, rest⟩ := by
  -- where the keyword may start it is ruled out first; then the first character decides, as for any
  -- text
  cases h with
  | printf => exact ⟨_, _, rfl, by simp [next?, keyword]⟩
  | lparen => exact ⟨_, _, rfl, by rw [next?_of_notPrefix (notPrefix_of_ne (by decide) _)]; rfl⟩
  | rparen => exact ⟨_, _, rfl, by rw [next?_of_notPrefix (notPrefix_of_ne (by decide) _)]; rfl⟩
  | semicolon =>
    exact ⟨_, _, rfl, by rw [next?_of_notPrefix (notPrefix_of_ne (by decide) _)]; rfl⟩
  | comma => exact ⟨_, _, rfl, by rw [next?_of_notPrefix (notPrefix_of_ne (by decide) _)]; rfl⟩
  | @operator c hc =>
    refine ⟨c, rest, rfl, ?_⟩
    -- no operator starts the keyword, and none is a character with a meaning of its own
    have hne : c ≠ 'p' := by
      rintro rfl
      revert hc
      decide
    have hclass : ∀ d ∈ ['+', '-', '*', '/'], punctuation? d = none ∧ d ≠ '"' ∧ d ≠ '%' ∧
        Text.isLetter d = false ∧ Text.isDecimal d = false ∧ isOperator d = true :=
      List.all_iff_forall_prop.mp (by decide)
    rcases hclass c hc with ⟨hpunct, hquote, hpercent, hletter, hdecimal, hoperator⟩
    simp only [next?_of_notPrefix (notPrefix_of_ne hne _), hpunct, if_neg hquote, if_neg hpercent,
      hletter, hdecimal, hoperator, Bool.false_eq_true, if_false, if_true, single]
  | @name c us rest hc run hkeyword =>
    refine ⟨c, us ++ rest, rfl, ?_⟩
    -- a letter is no punctuation, but it may start the keyword, which the name is not
    rcases of_isLetter_or_isDecimal (.inl hc) with ⟨hpunct, hquote, hpercent⟩
    simp only [next?_of_notPrefix (keyword_notPrefix run hkeyword), hpunct, if_neg hquote,
      if_neg hpercent, if_pos hc, headed, run.takeWhile_eq, run.dropWhile_eq]
  | @number c us rest hc run =>
    refine ⟨c, us ++ rest, rfl, ?_⟩
    have hne : c ≠ 'p' := by
      rintro rfl
      revert hc
      decide
    rcases of_isLetter_or_isDecimal (.inr hc) with ⟨hpunct, hquote, hpercent⟩
    -- digits are looked for after letters
    have hletter := Text.isLetter_eq_false_of_isDecimal hc
    simp only [next?_of_notPrefix (notPrefix_of_ne hne _), hpunct, if_neg hquote, if_neg hpercent,
      hletter, if_pos hc, headed, run.takeWhile_eq, run.dropWhile_eq, Bool.false_eq_true, if_false]
  | @directive us rest run =>
    refine ⟨'%', us ++ rest, rfl, ?_⟩
    rw [next?_of_notPrefix (notPrefix_of_ne (by decide) _)]
    have hpunct : punctuation? '%' = none := rfl
    have hquote : '%' ≠ '"' := by decide
    simp only [hpunct, if_neg hquote, if_true, Lexeme.directive, headed, run.takeWhile_eq,
      run.dropWhile_eq]
  -- a quotation mark is no punctuation, and the literal ends at the next one or with the text
  | @literal us hus rest =>
    refine ⟨'"', us ++ '"' :: rest, by simp, ?_⟩
    rw [next?_of_notPrefix (notPrefix_of_ne (by decide) _), literal_of_closed hus rest]
    rfl
  | @openLiteral us hus =>
    refine ⟨'"', us, by simp, ?_⟩
    rw [next?_of_notPrefix (notPrefix_of_ne (by decide) _), literal_of_open hus]
    rfl

theorem of_punctuation? {c : Char} {k : Kind} (h : punctuation? c = some k)
    (rest : List Char) : Shape k [c] rest := by
  unfold punctuation? at h
  split at h <;> cases h
  · exact .lparen rest
  · exact .rparen rest
  · exact .semicolon rest
  · exact .comma rest

theorem of_literal (cs : List Char) : Shape (Lexeme.literal '"' cs).kind
    (Lexeme.literal '"' cs).text (Lexeme.literal '"' cs).rest := by
  have hrun := longestRun_takeWhile (fun c => c ≠ '"') cs
  have hus : '"' ∉ cs.takeWhile fun c => c ≠ '"' := by
    intro hmem
    simpa using hrun.1 '"' hmem
  have hsplit := List.takeWhile_append_dropWhile (p := fun c => c ≠ '"') (l := cs)
  -- the run of a literal stops at the end of the text or at a quotation mark
  cases hdrop : cs.dropWhile fun c => c ≠ '"' with
  | nil =>
    rw [hdrop, List.append_nil] at hsplit
    rw [hsplit] at hus
    rw [literal_of_open hus]
    exact .openLiteral hus
  | cons mark rest =>
    have hmark : mark = '"' := by
      have hstop := hrun.2 mark (by rw [hdrop]; rfl)
      simpa using hstop
    rw [hdrop, hmark] at hsplit
    rw [← hsplit, literal_of_closed hus rest]
    exact .literal hus rest

/-- The lexeme at the front of a text has the shape of its kind. -/
theorem of_next? {c : Char} {cs : List Char} {l : Lexeme} (h : next? c cs = some l) :
    Shape l.kind l.text l.rest := by
  -- the branches are gone through in the order in which they are tried
  by_cases hkeyword : keyword <+: c :: cs
  · rw [next?, if_pos (List.isPrefixOf_iff_prefix.mpr hkeyword)] at h
    cases h
    exact .printf _
  · rw [next?_of_notPrefix hkeyword] at h
    cases hpunct : punctuation? c with
    | some k =>
      rw [hpunct] at h
      cases h
      exact of_punctuation? hpunct cs
    | none =>
      simp only [hpunct] at h
      split at h
      · rename_i hquote
        cases h
        rw [hquote]
        exact of_literal cs
      · split at h
        · rename_i hpercent
          cases h
          rw [hpercent]
          exact .directive (longestRun_takeWhile isDirectivePart cs)
        · split at h
          · rename_i hletter
            cases h
            refine .name hletter (longestRun_takeWhile isNamePart cs) ?_
            intro hshort
            apply hkeyword
            exact hshort.trans (List.prefix_cons_inj c |>.mpr (List.takeWhile_prefix _))
          · split at h
            · rename_i hdecimal
              cases h
              exact .number hdecimal (longestRun_takeWhile isNumberPart cs)
            · split at h
              · rename_i hoperator
                cases h
                refine .operator ?_ cs
                simpa [isOperator, or_assoc] using hoperator
              · cases h

end Shape

open Lexeme in
/-- The lexeme at the front of a text is the only one that has the shape of its kind. -/
theorem next?_eq_some_iff {c : Char} {cs : List Char} {l : Lexeme} :
    next? c cs = some l ↔ l.text ++ l.rest = c :: cs ∧ Shape l.kind l.text l.rest := by
  constructor
  · intro h
    exact ⟨next?_text_append_rest h, .of_next? h⟩
  · rintro ⟨htext, hshape⟩
    rcases hshape.next?_eq with ⟨d, ds, heq, hnext⟩
    rw [htext] at heq
    cases heq
    exact hnext

/-! ## What stands after a token -/

/-- The characters that would make a token of the kind longer. -/
def Kind.growsBy : Kind → Char → Bool
  | .identifier => Lexeme.isNamePart
  | .number => Lexeme.isNumberPart
  | .directive => Lexeme.isDirectivePart
  | _ => fun _ => false

/-- White space makes no token longer. -/
theorem Kind.growsBy_of_isBlank (k : Kind) {c : Char} (hc : Text.isBlank c = true) :
    k.growsBy c = false := by
  rcases Text.isLetter_isDecimal_of_isBlank hc with ⟨hletter, hdecimal⟩
  have hpoint : c ≠ '.' := by
    rintro rfl
    revert hc
    decide
  have hunderscore : c ≠ '_' := by
    rintro rfl
    revert hc
    decide
  cases k <;>
    simp [growsBy, Lexeme.isNamePart, Lexeme.isNumberPart, Lexeme.isDirectivePart, hletter,
      hdecimal, hpoint, hunderscore]

namespace Shape

/-- No token starts with white space. -/
theorem head_not_blank {k : Kind} {c : Char} {us rest : List Char}
    (h : Shape k (c :: us) rest) : Text.isBlank c = false := by
  rw [Bool.eq_false_iff]
  intro hblank
  rcases Text.isLetter_isDecimal_of_isBlank hblank with ⟨hletter, hdecimal⟩
  -- every token starts with one of these marks, with a letter or with a digit
  have hmark : c ∉ ['p', '(', ')', ';', ',', '+', '-', '*', '/', '%', '"'] := by
    intro hmem
    have hnone : ∀ d ∈ ['p', '(', ')', ';', ',', '+', '-', '*', '/', '%', '"'],
        Text.isBlank d = false := List.all_iff_forall_prop.mp (by decide)
    rw [hnone c hmem] at hblank
    cases hblank
  cases h <;> simp_all

/-- The text after a token does not make it longer. -/
theorem growsBy_head? {k : Kind} {text rest : List Char} (h : Shape k text rest) :
    ∀ c ∈ rest.head?, k.growsBy c = false := by
  cases h with
  | name _ run _ => exact run.2
  | number _ run => exact run.2
  | directive run => exact run.2
  | _ => exact fun _ _ => rfl

/-- What has the shape of a token before some text has it before any other text that does not make
it longer. Only a literal that is not closed must have nothing after it. -/
theorem before {k : Kind} {text rest rest' : List Char} (h : Shape k text rest)
    (hstop : ∀ c ∈ rest'.head?, k.growsBy c = false)
    (hopen : k = .literal → '"' ∉ text.tail → rest' = []) : Shape k text rest' := by
  -- a run ends where the next character is not of its class, and other shapes do not look ahead
  cases h with
  | printf => exact .printf rest'
  | lparen => exact .lparen rest'
  | rparen => exact .rparen rest'
  | semicolon => exact .semicolon rest'
  | comma => exact .comma rest'
  | operator hc => exact .operator hc rest'
  | name hc run hkeyword => exact .name hc ⟨run.1, hstop⟩ hkeyword
  | number hc run => exact .number hc ⟨run.1, hstop⟩
  | directive run => exact .directive ⟨run.1, hstop⟩
  | literal hus => exact .literal hus rest'
  | openLiteral hus =>
    rw [hopen rfl hus]
    exact .openLiteral hus

end Shape

end PrintfLint
