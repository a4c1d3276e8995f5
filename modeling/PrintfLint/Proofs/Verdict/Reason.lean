import PrintfLint.Proofs.Statement.Verdict
import PrintfLint.Proofs.Text.Lines
import PrintfLint.Proofs.Token.Front
import PrintfLint.Verdict

/-!
# PrintfLint.Proofs.Verdict.Reason — reasons fit on one line

* `Text.OnOneLine`, `Text.Visible` — a text whose only white space is the space, and one that has
  none;
* `LexicalError.quoted` — the characters of the line that a lexical error quotes;
* `scan_error_visible` — none of them is white space;
* `Specifier.visible_of_mem_extract` — nor is any character of a directive;
* `Verdict.onOneLine_render` — so a verdict is one line of a report, whatever the line it is on.

A line may hold form feeds, separators and other white space that breaks lines elsewhere, and every
reason may quote a part of the line. It quotes the character at which no token can start, a number,
or a directive, and these hold no white space.
-/

namespace PrintfLint

namespace Text

/-- The only white space in the text is the space. All characters that end a line anywhere, such as
line feed, form feed, next line and line separator, are white space. -/
def OnOneLine (s : String) : Prop :=
  ∀ c ∈ s.toList, isBlank c = true → c = ' '

instance (s : String) : Decidable (OnOneLine s) :=
  decidable_of_iff (s.toList.all (fun c => !isBlank c || c = ' ') = true)
    (by simp [OnOneLine, imp_iff_not_or])

theorem isBlank_of_isBreak {c : Char} (h : isBreak c = true) : isBlank c = true := by
  rw [isBreak, Bool.or_eq_true, decide_eq_true_eq, decide_eq_true_eq] at h
  rcases h with rfl | rfl <;> rfl

/-- A text on one line has no line break. -/
theorem OnOneLine.unbroken {s : String} (h : OnOneLine s) : Unbroken s.toList := by
  intro c hc
  rw [Bool.eq_false_iff]
  intro hbreak
  have hspace : c = ' ' := h c hc (isBlank_of_isBreak hbreak)
  rw [hspace] at hbreak
  cases hbreak

theorem OnOneLine.append {s t : String} (hs : OnOneLine s) (ht : OnOneLine t) :
    OnOneLine (s ++ t) := by
  intro c hc
  rw [String.toList_append, List.mem_append] at hc
  rcases hc with hc | hc
  · exact hs c hc
  · exact ht c hc

/-- No character is white space. -/
def Visible (cs : List Char) : Prop :=
  ∀ c ∈ cs, isBlank c = false

/-- A text without white space is on one line. -/
theorem onOneLine_of_visible {s : String} (h : Visible s.toList) : OnOneLine s := by
  intro c hc hblank
  rw [h c hc] at hblank
  cases hblank

/-- The printable characters of ASCII but for the space, as a set of code points. -/
def asciiMarks : Ranges := [(0x21, 0x7E)]

theorem asciiMarks_apart_blanks : asciiMarks.apart blanks = true := by
  decide +kernel

theorem isBlank_eq_false_of_ascii {c : Char} (hlo : 0x21 ≤ c.toNat) (hhi : c.toNat ≤ 0x7E) :
    isBlank c = false := by
  refine Ranges.has_eq_false_of_apart asciiMarks_apart_blanks ?_
  simp [Ranges.has, Ranges.covers, asciiMarks, hlo, hhi]

theorem isBlank_eq_false_of_isDecimal {c : Char} (h : isDecimal c = true) : isBlank c = false := by
  rw [Bool.eq_false_iff]
  intro hblank
  rw [(isLetter_isDecimal_of_isBlank hblank).2] at h
  cases h

theorem isBlank_eq_false_of_isAlphanum {c : Char} (h : c.isAlphanum = true) :
    isBlank c = false := by
  rcases toNat_of_isAlphanum h with ⟨hlo, hhi⟩
  exact isBlank_eq_false_of_ascii hlo hhi

theorem isBlank_eq_false_of_isDigit {c : Char} (h : c.isDigit = true) : isBlank c = false := by
  apply isBlank_eq_false_of_isAlphanum
  rw [Char.isAlphanum, h, Bool.or_true]

/-- The characters of an integer. -/
theorem mem_toString_int {n : ℤ} {c : Char} (h : c ∈ (toString n).toList) :
    c = '-' ∨ c.isDigit = true := by
  have hdigits : ∀ m : ℕ, c ∈ (toString m).toList → c.isDigit = true := by
    intro m hc
    have hm : (toString m).toList = Nat.toDigits 10 m := Nat.toList_repr
    rw [hm] at hc
    exact Nat.isDigit_of_mem_toDigits (by decide) (by decide) hc
  -- a negative number is written as a minus sign and a natural number
  cases n with
  | ofNat n => exact .inr (hdigits n h)
  | negSucc n =>
    have hminus : (toString (Int.negSucc n)).toList = '-' :: (toString (n + 1)).toList :=
      String.toList_append
    rw [hminus, List.mem_cons] at h
    exact h.imp_right (hdigits (n + 1))

theorem onOneLine_int (n : ℤ) : OnOneLine (toString n) := by
  apply onOneLine_of_visible
  intro c hc
  rcases mem_toString_int hc with rfl | hdigit
  · rfl
  · exact isBlank_eq_false_of_isDigit hdigit

end Text

/-! ## Characters of the line -/

/-- The characters of the line that a lexical error quotes. -/
def LexicalError.quoted : LexicalError → List Char
  | unexpected c _ => [c]
  | malformedNumber text _ => text
  | unterminated .. => []

/-- Numbers hold no white space. -/
theorem Shape.visible_number {text rest : List Char} (h : Shape .number text rest) :
    Text.Visible text := by
  cases h with
  | @number d us _ hd run =>
    intro c hc
    -- a digit at the start, and then digits and points
    rcases List.mem_cons.mp hc with rfl | hc
    · exact Text.isBlank_eq_false_of_isDecimal hd
    · have hpart := run.1 c hc
      rw [Lexeme.isNumberPart, Bool.or_eq_true, decide_eq_true_eq] at hpart
      rcases hpart with hdecimal | rfl
      · exact Text.isBlank_eq_false_of_isDecimal hdecimal
      · rfl

/-- What a lexical error quotes is no white space. -/
theorem TokenSeq.scan_error_visible {strict : Strictness} {start : Position} {cs : List Char}
    {e : LexicalError} (h : scan strict start cs = .error e) : Text.Visible e.quoted := by
  obtain ⟨us, ts, rest, -, -, hfault⟩ := exists_fault_of_scan h
  cases hfault with
  | unexpected hblank =>
    intro c hc
    rw [List.mem_singleton.mp hc]
    exact hblank
  | malformed shape => exact shape.visible_number
  | unterminated => exact nofun

/-! ## Characters of directives -/

namespace Specifier

theorem isBlank_eq_false_of_isPart {c : Char} (h : isPart c = true) : Text.isBlank c = false := by
  rw [isPart, Bool.or_eq_true, Bool.or_eq_true, decide_eq_true_eq, decide_eq_true_eq] at h
  rcases h with (halphanum | rfl) | rfl
  · exact Text.isBlank_eq_false_of_isAlphanum halphanum
  · rfl
  · rfl

theorem visible_of_mem_extractFrom {offset : ℕ} {cs : List Char} {s : Specifier}
    (h : s ∈ extractFrom offset cs) : Text.Visible s.text.toList := by
  induction cs generalizing offset with
  | nil => cases h
  | cons c cs ih =>
    rw [extractFrom] at h
    -- a directive starts here, or the search goes on
    split at h
    · rcases List.mem_cons.mp h with rfl | h
      · intro d hd
        rw [String.toList_ofList] at hd
        rcases List.mem_cons.mp hd with rfl | hd
        · rfl
        · exact isBlank_eq_false_of_isPart (List.mem_takeWhile_imp hd)
      · exact ih h
    · exact ih h

/-- A directive holds no white space. -/
theorem visible_of_mem_extract {literal : String} {s : Specifier} (h : s ∈ extract literal) :
    Text.Visible s.text.toList :=
  visible_of_mem_extractFrom h

theorem visible_of_mem_specifiers {d : Draft} {s : Specifier} (h : s ∈ d.specifiers []) :
    Text.Visible s.text.toList := by
  unfold Draft.specifiers at h
  split at h
  · exact visible_of_mem_extract h
  · cases h

end Specifier

/-! ## Sentences -/

section

open Text

theorem LexicalError.onOneLine_message {e : LexicalError} (h : Visible e.quoted) :
    OnOneLine e.problem.message := by
  -- each message is made of fixed text, of what is quoted, and of a column
  cases e with
  | unexpected c start =>
    have hlead : OnOneLine "unexpected character '" := by decide
    have hplace : OnOneLine "' at column " := by decide
    have hquoted : OnOneLine (String.singleton c) :=
      onOneLine_of_visible (by rwa [String.toList_singleton])
    exact ((hlead.append hquoted).append hplace).append (onOneLine_int _)
  | malformedNumber text start =>
    have hlead : OnOneLine "malformed number '" := by decide
    have hplace : OnOneLine "' at column " := by decide
    have hquoted : OnOneLine (String.ofList text) :=
      onOneLine_of_visible (by rwa [String.toList_ofList])
    exact ((hlead.append hquoted).append hplace).append (onOneLine_int _)
  | unterminated start stop =>
    have hlead : OnOneLine "unterminated string literal starting at column " := by decide
    exact hlead.append (onOneLine_int _)

theorem Kind.onOneLine_name (k : Kind) : OnOneLine k.name := by
  cases k <;> decide

theorem ValueType.onOneLine_name (t : ValueType) : OnOneLine t.name := by
  cases t <;> decide

theorem Expected.onOneLine_describe (e : Expected) : OnOneLine e.describe := by
  cases e with
  | kind k => exact k.onOneLine_name
  | operand => decide

theorem GrammarError.onOneLine_message (e : GrammarError) : OnOneLine e.message := by
  have hlead : OnOneLine "expected " := by decide
  have hfound : OnOneLine ", found " := by decide
  exact ((hlead.append e.expected.onOneLine_describe).append hfound).append
    e.found.kind.onOneLine_name

theorem onOneLine_countMismatch (s a : ℤ) (span? : Option Span) :
    OnOneLine (Problem.countMismatch s a span?).message := by
  have hlead : OnOneLine "specifier/argument count mismatch: " := by decide
  have hspecifiers : OnOneLine " specifier(s), " := by decide
  have harguments : OnOneLine " argument(s)" := by decide
  exact (((hlead.append (onOneLine_int s)).append hspecifiers).append
    (onOneLine_int a)).append harguments

theorem onOneLine_typeMismatch (i : ℤ) {s : Specifier} (t : ValueType) (span? : Option Span)
    (h : Visible s.text.toList) : OnOneLine (Problem.typeMismatch i s t span?).message := by
  have hlead : OnOneLine "type mismatch at position " := by decide
  have hquoted : OnOneLine ": '" := by decide
  have hexpects : OnOneLine "' expects " := by decide
  have hgot : OnOneLine ", got " := by decide
  exact ((((((hlead.append (onOneLine_int i)).append hquoted).append
    (onOneLine_of_visible h)).append hexpects).append s.type.onOneLine_name).append hgot).append
    t.onOneLine_name

/-- What is wrong between two types is said with the text of a directive in the list. -/
theorem onOneLine_typeProblem {position : ℕ} {ss : List Specifier} {as : List Argument}
    {p : Problem} (hss : ∀ s ∈ ss, Visible s.text.toList)
    (h : typeProblem? position ss as = some p) : OnOneLine p.message := by
  obtain ⟨k, _, s, hs, a, _, rfl⟩ := exists_typeMismatch h
  exact onOneLine_typeMismatch k a.type (some a.span) (hss s hs)

/-! ## Verdicts -/

theorem Attempt.onOneLine_reason {propagate : Bool} {a : Attempt} {reason : String}
    (h : (a.outcome propagate).reason? = some reason) : OnOneLine reason := by
  rcases Option.map_eq_some_iff.mp h with ⟨p, hp, rfl⟩
  unfold Attempt.outcome at hp
  split at hp
  · cases hp
    exact GrammarError.onOneLine_message _
  · dsimp only at hp
    unfold argumentProblem? at hp
    split at hp
    · exact onOneLine_typeProblem (fun s hs => Specifier.visible_of_mem_specifiers hs) hp
    · cases hp
      exact onOneLine_countMismatch _ _ _

/-- The reason why a line is invalid is on one line, whatever the line holds. -/
theorem Verdict.onOneLine_reason {options : Options} {line : String} {number : ℤ}
    {reason : String} (h : (ofLine options line number).outcome.reason? = some reason) :
    OnOneLine reason := by
  unfold ofLine at h
  cases hscan : TokenSeq.ofLine options.toStrictness line number with
  | error e =>
    rw [hscan] at h
    cases h
    exact LexicalError.onOneLine_message (TokenSeq.scan_error_visible hscan)
  | ok s =>
    rw [hscan] at h
    exact Attempt.onOneLine_reason h

/-- A verdict is one line of a report, whatever the line it is on. -/
theorem Verdict.onOneLine_render (options : Options) (line : String) (number : ℤ) :
    OnOneLine (ofLine options line number).render := by
  have hlead : OnOneLine ("Line " ++ toString (ofLine options line number).number) :=
    OnOneLine.append (by decide) (onOneLine_int _)
  unfold render
  cases hreason : (ofLine options line number).outcome.reason? with
  | none => exact hlead.append (by decide)
  | some reason =>
    have hquoted : OnOneLine reason := onOneLine_reason hreason
    exact ((hlead.append (by decide)).append hquoted).append (by decide)

end

end PrintfLint
