import PrintfLint.Options
import PrintfLint.Problem
import PrintfLint.Text.Blank
import PrintfLint.Text.Decimal
import PrintfLint.Text.Letter
import PrintfLint.Token

/-!
# PrintfLint.Token.Lexeme — the next lexeme of a text

* `Lexeme` — a kind, the characters of a lexeme and the characters after it;
* `Lexeme.next?` — the lexeme at the front of a text that does not start with white space;
* `Lexeme.refusal?` — what a strict scanner has against a lexeme;
* `LexicalError` — why a text has no tokens.

The keyword is looked for before names, so a name that starts with it is divided. Quotation marks
cannot be escaped inside a literal, and a literal that is not closed runs to the end of the text.
-/

namespace PrintfLint

/-- A piece of text that makes one token, and the text after it. -/
structure Lexeme where
  kind : Kind
  text : List Char
  rest : List Char
deriving DecidableEq, Repr

/-- Why a text cannot be divided into tokens. -/
inductive LexicalError where
  /-- No token starts with this character. -/
  | unexpected (c : Char) (start : Position)
  /-- A number with more than one point. -/
  | malformedNumber (text : List Char) (start : Position)
  /-- A literal without closing quotation mark, up to the end of the text. -/
  | unterminated (start stop : Position)
deriving DecidableEq, Repr

namespace LexicalError

/-- How many characters come before the second point of a number. -/
def secondPoint (text : List Char) : Nat :=
  let first := text.idxOf '.' + 1
  first + (text.drop first).idxOf '.'

/-- The character at which the text goes wrong. -/
def character : LexicalError → Char
  | unexpected c _ => c
  | malformedNumber .. => '.'
  | unterminated .. => '"'

/-- The index of that character. -/
def position : LexicalError → Int
  | unexpected _ start => start.index
  | malformedNumber text start => start.index + secondPoint text
  | unterminated start _ => start.index

/-- The stretch that was read when the fault was found. -/
def span : LexicalError → Span
  | unexpected _ start => ⟨start, start.advance 1⟩
  | malformedNumber text start => ⟨start, start.advance text.length⟩
  | unterminated start stop => ⟨start, stop⟩

/-- The report on a fault of the text. -/
def problem (e : LexicalError) : Problem :=
  let character := String.singleton e.character
  match e with
  | unexpected .. => .unexpectedCharacter character e.position (some e.span)
  | malformedNumber text start =>
    .lexical character e.position
      ("malformed number '" ++ String.ofList text ++ "' at column " ++ toString start.column)
      (some e.span)
  | unterminated start _ =>
    .lexical character e.position
      ("unterminated string literal starting at column " ++ toString start.column)
      (some e.span)

end LexicalError

namespace Lexeme

/-! ## Characters of each kind -/

/-- The keyword that starts a statement. -/
def keyword : List Char :=
  ['p', 'r', 'i', 'n', 't', 'f']

/-- The tokens of one character that are not operators. -/
def punctuation? : Char → Option Kind
  | '(' => some .lparen
  | ')' => some .rparen
  | ';' => some .semicolon
  | ',' => some .comma
  | _ => none

/-- The four operators of arithmetic. -/
def isOperator (c : Char) : Bool :=
  c = '+' || c = '-' || c = '*' || c = '/'

/-- The characters that continue a directive outside a literal. -/
def isDirectivePart (c : Char) : Bool :=
  Text.isLetter c || Text.isDecimal c || c = '.'

/-- The characters that continue a name. -/
def isNamePart (c : Char) : Bool :=
  Text.isLetter c || Text.isDecimal c || c = '_'

/-- The characters that continue a number. -/
def isNumberPart (c : Char) : Bool :=
  Text.isDecimal c || c = '.'

/-! ## Single lexemes -/

/-- The longest run of characters with a property. -/
def run (kind : Kind) (p : Char → Bool) (cs : List Char) : Lexeme :=
  ⟨kind, cs.takeWhile p, cs.dropWhile p⟩

/-- A first character, and after it the longest run of characters with a property. -/
def headed (kind : Kind) (p : Char → Bool) (c : Char) (cs : List Char) : Lexeme :=
  ⟨kind, c :: cs.takeWhile p, cs.dropWhile p⟩

/-- A name, or nothing if no name starts here. -/
def name (cs : List Char) : Lexeme :=
  run .identifier isNamePart cs

/-- A number, or nothing if no number starts here. -/
def number (cs : List Char) : Lexeme :=
  run .number isNumberPart cs

/-- A directive whose first character is `c`. -/
def directive (c : Char) (cs : List Char) : Lexeme :=
  headed .directive isDirectivePart c cs

/-- A literal whose first character is `c`: up to and with the next quotation mark, or up to the end
where there is none. -/
def literal (c : Char) (cs : List Char) : Lexeme :=
  match cs.dropWhile (· ≠ '"') with
  | [] => ⟨.literal, c :: cs, []⟩
  | mark :: rest => ⟨.literal, c :: cs.takeWhile (· ≠ '"') ++ [mark], rest⟩

/-- A lexeme of one character. -/
def single (kind : Kind) (c : Char) (cs : List Char) : Lexeme :=
  ⟨kind, [c], cs⟩

/-! ## The lexeme at the front -/

/-- The lexeme at the front of a text whose first character is not white space. -/
def next? (c : Char) (cs : List Char) : Option Lexeme :=
  if keyword.isPrefixOf (c :: cs) then
    some ⟨.printf, keyword, cs.drop (keyword.length - 1)⟩
  else match punctuation? c with
    | some kind => some (single kind c cs)
    | none =>
      if c = '"' then some (literal c cs)
      else if c = '%' then some (directive c cs)
      else if Text.isLetter c then some (headed .identifier isNamePart c cs)
      else if Text.isDecimal c then some (headed .number isNumberPart c cs)
      else if isOperator c then some (single .operator c cs)
      else none

theorem headed_text_append_rest (kind : Kind) (p : Char → Bool) (c : Char) (cs : List Char) :
    (headed kind p c cs).text ++ (headed kind p c cs).rest = c :: cs := by
  simp [headed]

theorem single_text_append_rest (kind : Kind) (c : Char) (cs : List Char) :
    (single kind c cs).text ++ (single kind c cs).rest = c :: cs := by
  simp [single]

theorem literal_text_append_rest (c : Char) (cs : List Char) :
    (literal c cs).text ++ (literal c cs).rest = c :: cs := by
  have h := List.takeWhile_append_dropWhile (p := (· ≠ '"')) (l := cs)
  unfold literal
  split
  · simp
  · rename_i mark rest heq
    rw [heq] at h
    simpa using h

theorem keyword_append_drop {c : Char} {cs : List Char} (h : keyword.isPrefixOf (c :: cs)) :
    keyword ++ cs.drop (keyword.length - 1) = c :: cs := by
  obtain ⟨tail, htail⟩ := List.isPrefixOf_iff_prefix.1 h
  obtain ⟨rfl, rfl⟩ : c = 'p' ∧ cs = ['r', 'i', 'n', 't', 'f'] ++ tail := by
    simpa [keyword, eq_comm] using htail
  simp [keyword]

/-- Nothing is lost: a lexeme and the text after it make up the text. -/
theorem next?_text_append_rest {c : Char} {cs : List Char} {l : Lexeme}
    (h : next? c cs = some l) : l.text ++ l.rest = c :: cs := by
  unfold next? at h
  repeat' split at h
  all_goals cases h
  · exact keyword_append_drop ‹_›
  · exact single_text_append_rest ..
  · exact literal_text_append_rest ..
  · exact headed_text_append_rest ..
  · exact headed_text_append_rest ..
  · exact headed_text_append_rest ..
  · exact single_text_append_rest ..

theorem literal_text_ne_nil (c : Char) (cs : List Char) : (literal c cs).text ≠ [] := by
  unfold literal
  split <;> simp

/-- A lexeme is not empty. -/
theorem next?_text_ne_nil {c : Char} {cs : List Char} {l : Lexeme}
    (h : next? c cs = some l) : l.text ≠ [] := by
  unfold next? at h
  repeat' split at h
  all_goals cases h
  all_goals simp [keyword, single, directive, headed, literal_text_ne_nil]

theorem next?_rest_length_le {c : Char} {cs : List Char} {l : Lexeme}
    (h : next? c cs = some l) : l.rest.length ≤ cs.length := by
  have hlen := congrArg List.length (next?_text_append_rest h)
  have hpos := List.length_pos_iff.2 (next?_text_ne_nil h)
  simp only [List.length_append, List.length_cons] at hlen
  omega

/-! ## Strict scanning -/

/-- A literal that is not closed has no quotation mark after its first character. -/
def isOpen (l : Lexeme) : Bool :=
  !l.text.tail.contains '"'

/-- What a strict scanner has against a lexeme at a position. -/
def refusal? (strict : Strictness) (start : Position) (l : Lexeme) : Option LexicalError :=
  match l.kind with
  | .number =>
    if strict.numbers && 1 < l.text.count '.' then some (.malformedNumber l.text start) else none
  | .literal =>
    if strict.literals && l.isOpen then some (.unterminated start (start.advance l.text.length))
    else none
  | _ => none

/-- The token that a lexeme makes at a position. -/
def token (start : Position) (l : Lexeme) : Token :=
  ⟨l.kind, String.ofList l.text, ⟨start, start.advance l.text.length⟩⟩

/-- The token that a lexeme makes, unless a strict scanner refuses it. -/
def accept (strict : Strictness) (start : Position) (l : Lexeme) : Except LexicalError Token :=
  match l.refusal? strict start with
  | some e => .error e
  | none => .ok (l.token start)

end Lexeme

end PrintfLint
