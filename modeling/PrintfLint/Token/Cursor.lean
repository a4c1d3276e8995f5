import PrintfLint.Token.Scan

/-!
# PrintfLint.Token.Cursor — scanning in steps

A cursor stands in a line and reads lexemes one at a time, or the tokens of all that is left.

* `Cursor` — a line, its number, the strictness and the index of the next character;
* `Cursor.Command` and `Cursor.Reply` — what a cursor is told and what it answers;
* `Cursor.perform` — one command.

The index stays where the last command left it. After a fault it stands behind what was read, so the
scan may be taken up again there.
-/

namespace PrintfLint

/-- A place in a line from which scanning goes on. -/
structure Cursor where
  line : List Char
  strict : Strictness
  number : Int
  index : Nat
deriving DecidableEq, Repr

namespace Cursor

/-- What a cursor is told. -/
inductive Command where
  /-- Read the tokens of all that is left. -/
  | tokenize
  /-- Read one lexeme of a kind, whatever the next character is. -/
  | literal
  | directive
  | name
  | number
  /-- Look at the next character. -/
  | peek
  /-- Step over the next character. -/
  | advance
  /-- Is nothing left? -/
  | atEnd
  | position
  | seek (index : Nat)
  | setNumber (number : Int)
deriving DecidableEq, Repr

/-- What a cursor answers. -/
inductive Reply where
  | tokens (ts : TokenSeq)
  | token (t : Token)
  | character (c : Char)
  | flag (b : Bool)
  | position (p : Position)
  | done
deriving DecidableEq

/-- Why a command fails. -/
inductive Failure where
  | lexical (e : LexicalError)
  /-- There is no next character. -/
  | pastEnd
deriving DecidableEq, Repr

/-- A cursor at the start of a line. -/
def ofLine (strict : Strictness) (line : String) (number : Int) : Cursor :=
  ⟨line.toList, strict, number, 0⟩

/-- The characters that are left. -/
def rest (s : Cursor) : List Char :=
  s.line.drop s.index

/-- Where the cursor stands. -/
def position (s : Cursor) : Position :=
  .ofIndex s.number s.index

/-- The cursor behind what was read of a fault. -/
def behind (s : Cursor) (e : LexicalError) : Cursor :=
  { s with index := e.span.stop.index.toNat }

/-- Accepts or refuses a lexeme at the cursor; either way it has been read. -/
def take (s : Cursor) (l : Lexeme) : Except Failure Reply × Cursor :=
  match l.accept s.strict s.position with
  | .ok t => (.ok (.token t), { s with index := s.index + l.text.length })
  | .error e => (.error (.lexical e), s.behind e)

/-- Goes on with the next character, if there is one. -/
def withNext (s : Cursor) (k : Char → List Char → Except Failure Reply × Cursor) :
    Except Failure Reply × Cursor :=
  match s.rest with
  | [] => (.error .pastEnd, s)
  | c :: cs => k c cs

/-- Carries out a command. -/
def perform (s : Cursor) : Command → Except Failure Reply × Cursor
  | .tokenize =>
    match TokenSeq.scan s.strict s.position s.rest with
    | .ok ts => (.ok (.tokens ts), { s with index := s.index + s.rest.length })
    | .error e => (.error (.lexical e), s.behind e)
  | .literal => s.withNext fun c cs => s.take (.literal c cs)
  | .directive => s.withNext fun c cs => s.take (.directive c cs)
  | .name => s.take (.name s.rest)
  | .number => s.take (.number s.rest)
  | .peek => s.withNext fun c _ => (.ok (.character c), s)
  | .advance => s.withNext fun c _ => (.ok (.character c), { s with index := s.index + 1 })
  | .atEnd => (.ok (.flag s.rest.isEmpty), s)
  | .position => (.ok (.position s.position), s)
  | .seek index => (.ok .done, { s with index := index })
  | .setNumber number => (.ok .done, { s with number := number })

end Cursor

end PrintfLint
