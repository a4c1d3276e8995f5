import PrintfLint.Expr
import PrintfLint.Problem

/-!
# PrintfLint.Expr.Reading — expressions from tokens

Reading follows the grammar

* expression: term { ("+" | "-") term }
* term: factor { ("*" | "/") factor }
* factor: identifier [ "(" [ arguments ] ")" ] | number | "(" expression ")"
* arguments: expression { "," expression }

with one token of lookahead and no way back. Operations group to the left.

* `GrammarError` — the token that was found and what might have stood there;
* `Reading` — a value and the tokens after it, or an error and the tokens from it on, with a bound
  on how many are left;
* `Reading.chain`, `Reading.factor`, `Reading.arguments` — the readers.

An end-of-input token is never passed over. `fin` stands for the tokens after the end of the list.
-/

namespace PrintfLint

/-- What the grammar allows at a token. -/
inductive Expected where
  | kind (k : Kind)
  /-- The start of a factor. -/
  | operand
deriving DecidableEq, Repr

/-- A token that the grammar does not allow where it stands. -/
structure GrammarError where
  expected : Expected
  found : Token
deriving DecidableEq, Repr

namespace Kind

/-- Advice for a place where a token of this kind is missing. -/
def hint? : Kind → Option String
  | printf => some "Each line must be a single printf call."
  | lparen => some "Missing '('. Calls look like: printf(\"%d\", x);"
  | rparen => some "Missing ')'. Check that every '(' in the arguments is closed."
  | semicolon => some "Statements must end with ';'."
  | literal => some "The first argument of printf must be a string literal."
  | endOfInput => some "Only one statement is allowed per line."
  | _ => none

end Kind

namespace Expected

/-- The kinds of token that are expected. -/
def kinds : Expected → List Kind
  | kind k => [k]
  | operand => [.identifier, .number, .lparen]

/-- The expectation in words. -/
def describe : Expected → String
  | kind k => k.name
  | operand => Kind.identifier.name ++ ", " ++ Kind.number.name ++ " or " ++ Kind.lparen.name

/-- Advice for a place where the expectation is not met. -/
def hint? : Expected → Option String
  | kind k => k.hint?
  | operand =>
    some "Arguments are numbers, identifiers, calls like f(x) or parenthesised arithmetic."

end Expected

namespace GrammarError

/-- The sentence that states the error. -/
def message (e : GrammarError) : String :=
  "expected " ++ e.expected.describe ++ ", found " ++ e.found.kind.name

/-- The report on the error. -/
def problem (e : GrammarError) : Problem :=
  .grammar e.message (some e.found.span) e.expected.hint?

end GrammarError

/-! ## Readings -/

/-- The outcome of reading tokens: a value, after which fewer than `n` tokens are left, or an error,
with no more than `n` tokens from the offending one on. -/
inductive Reading (α : Type) (n : Nat) where
  | ok (value : α) (rest : List Token) (shorter : rest.length < n)
  | fail (error : GrammarError) (rest : List Token) (within : rest.length ≤ n)

namespace Reading

/-- The value or the error, and the tokens that are left. -/
def result {α : Type} {n : Nat} : Reading α n → Except GrammarError α × List Token
  | ok a r _ => (.ok a, r)
  | fail e r _ => (.error e, r)

/-- Changes the value. -/
def map {α β : Type} {n : Nat} (f : α → β) : Reading α n → Reading β n
  | ok a r h => ok (f a) r h
  | fail e r h => fail e r h

/-- A reading from a few tokens is a reading from more. -/
def widen {α : Type} {m n : Nat} (h : m ≤ n) : Reading α m → Reading α n
  | ok a r h' => ok a r (Nat.lt_of_lt_of_le h' h)
  | fail e r h' => fail e r (Nat.le_trans h' h)

/-! ## Single tokens -/

/-- Does the list start with a token of a kind? -/
def startsWith (k : Kind) : List Token → Bool
  | [] => false
  | t :: _ => t.kind = k

/-- The tokens after the first one; an end-of-input token stays. -/
def pass : List Token → List Token
  | [] => []
  | t :: ts => if t.kind = .endOfInput then t :: ts else ts

theorem pass_length_le (ts : List Token) : (pass ts).length ≤ ts.length := by
  cases ts with
  | nil => simp [pass]
  | cons t ts =>
    simp only [pass]
    split <;> simp

/-- Reads a token of a kind. -/
def expect (fin : Token) (k : Kind) (ts : List Token) : Reading Token (ts.length + 1) :=
  if (ts.headD fin).kind = k then
    .ok (ts.headD fin) (pass ts) (Nat.lt_succ_of_le (pass_length_le ts))
  else
    .fail ⟨.kind k, ts.headD fin⟩ ts (Nat.le_succ _)

end Reading

/-! ## Expressions -/

/-- The two levels of binary operators. -/
inductive Precedence where
  | sum
  | product
deriving DecidableEq, Repr

namespace Precedence

/-- The texts of a level's operator tokens. Scanning makes operators of one character; a token of
other origin may hold a stretch of the level's operators, or no text. -/
def operators : Precedence → List String
  | sum => ["+", "-", "+-", ""]
  | product => ["*", "/", "*/", ""]

/-- Does the token join operands of the level? -/
def joins (l : Precedence) (t : Token) : Bool :=
  t.kind = .operator && l.operators.contains t.text

/-- The place of a level in the order in which readers call each other. -/
def rank : Precedence → Nat
  | sum => 3
  | product => 1

theorem rank_le (l : Precedence) : l.rank ≤ 3 := by
  cases l <;> simp [rank]

end Precedence

namespace Reading

mutual

/-- Reads operands joined by the operators of a level. -/
def chain (fin : Token) (level : Precedence) (ts : List Token) : Reading Expr ts.length :=
  match operand fin level ts with
  | .fail e rest h => .fail e rest h
  | .ok left rest h => (chainFrom fin level left rest).widen h
termination_by 6 * ts.length + level.rank + 1

/-- Reads the operators and operands that follow the left operand. -/
def chainFrom (fin : Token) (level : Precedence) (left : Expr) (ts : List Token) :
    Reading Expr (ts.length + 1) :=
  match ts with
  | [] => .ok left [] (Nat.lt_succ_self _)
  | t :: ts =>
    if level.joins t then
      match operand fin level ts with
      | .fail e rest h => .fail e rest (by simp only [List.length_cons]; omega)
      | .ok right rest h =>
        (chainFrom fin level (.binary left t right) rest).widen
          (by simp only [List.length_cons]; omega)
    else .ok left (t :: ts) (Nat.lt_succ_self _)
termination_by 6 * ts.length
decreasing_by
  · have := level.rank_le
    simp only [List.length_cons]
    omega
  · simp only [List.length_cons]
    omega

/-- Reads an operand of a level: a chain of the next level, or a factor. -/
def operand (fin : Token) (level : Precedence) (ts : List Token) : Reading Expr ts.length :=
  match level with
  | .sum => chain fin .product ts
  | .product => factor fin ts
termination_by 6 * ts.length + level.rank
decreasing_by
  all_goals
    simp only [Precedence.rank]
    omega

/-- Reads a name, a call, a number or an expression in parentheses. -/
def factor (fin : Token) (ts : List Token) : Reading Expr ts.length :=
  match ts with
  | [] => .fail ⟨.operand, fin⟩ [] (Nat.le_refl _)
  | t :: ts =>
    match t.kind with
    | .identifier =>
      match ts with
      | [] => .ok (.name t) [] (Nat.lt_succ_self _)
      | o :: ts =>
        if o.kind = .lparen then
          if startsWith .rparen ts then
            ((expect fin .rparen ts).map (.call t [])).widen
              (by simp only [List.length_cons]; omega)
          else
            match arguments fin ts with
            | .fail e rest h => .fail e rest (by simp only [List.length_cons]; omega)
            | .ok es rest h =>
              ((expect fin .rparen rest).map (.call t es)).widen
                (by simp only [List.length_cons]; omega)
        else .ok (.name t) (o :: ts) (Nat.lt_succ_self _)
    | .number => .ok (.number t) ts (Nat.lt_succ_self _)
    | .lparen =>
      match chain fin .sum ts with
      | .fail e rest h => .fail e rest (by simp only [List.length_cons]; omega)
      | .ok inner rest h =>
        ((expect fin .rparen rest).map (.group t inner)).widen
          (by simp only [List.length_cons]; omega)
    | _ => .fail ⟨.operand, t⟩ (t :: ts) (Nat.le_refl _)
termination_by 6 * ts.length
decreasing_by
  all_goals
    simp only [Precedence.rank, List.length_cons]
    omega

/-- Reads expressions with commas between them. -/
def arguments (fin : Token) (ts : List Token) : Reading (List Expr) ts.length :=
  match chain fin .sum ts with
  | .fail e rest h => .fail e rest h
  | .ok e rest h => ((argumentsFrom fin rest).map (e :: ·)).widen h
termination_by 6 * ts.length + 5
decreasing_by
  · simp only [Precedence.rank]
    omega
  · omega

/-- Reads commas, each with an expression after it. -/
def argumentsFrom (fin : Token) (ts : List Token) : Reading (List Expr) (ts.length + 1) :=
  match ts with
  | [] => .ok [] [] (Nat.lt_succ_self _)
  | t :: ts =>
    if t.kind = .comma then
      match chain fin .sum ts with
      | .fail e rest h => .fail e rest (by simp only [List.length_cons]; omega)
      | .ok e rest h =>
        ((argumentsFrom fin rest).map (e :: ·)).widen (by simp only [List.length_cons]; omega)
    else .ok [] (t :: ts) (Nat.lt_succ_self _)
termination_by 6 * ts.length
decreasing_by
  · simp only [Precedence.rank, List.length_cons]
    omega
  · simp only [List.length_cons]
    omega

end

end Reading

end PrintfLint
