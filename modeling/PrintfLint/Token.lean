import PrintfLint.Position

/-!
# PrintfLint.Token — tokens

* `Kind` — the kinds of token and their names;
* `Token` — a kind, the text of the lexeme and its span;
* `TokenSeq` — tokens that end in an end-of-input token;
* `Token.render` — the printed token stream.
-/

namespace PrintfLint

/-- The kinds of token. A `directive` is a run that starts with a percent sign outside a literal;
no statement contains one. No lexeme has kind `function`. -/
inductive Kind where
  | printf
  | lparen
  | rparen
  | semicolon
  | literal
  | comma
  | identifier
  | number
  | operator
  | directive
  | function
  | endOfInput
deriving DecidableEq, Repr

namespace Kind

/-- The name of a kind, as messages and token streams show it. -/
def name : Kind → String
  | printf => "Printf"
  | lparen => "LParen"
  | rparen => "RParen"
  | semicolon => "Semicolon"
  | literal => "StringLiteral"
  | comma => "Comma"
  | identifier => "Identifier"
  | number => "Number"
  | operator => "Operator"
  | directive => "FormatSpecifier"
  | function => "Function"
  | endOfInput => "EndOfInput"

/-- All kinds. -/
def all : List Kind :=
  [printf, lparen, rparen, semicolon, literal, comma, identifier, number, operator, directive,
    function, endOfInput]

/-- The kind of a given name. -/
def ofName? (s : String) : Option Kind :=
  all.find? fun k => k.name = s

theorem ofName?_name (k : Kind) : ofName? k.name = some k := by
  cases k <;> decide

end Kind

/-- A token: what it is, the text it covers and where. -/
structure Token where
  kind : Kind
  text : String
  span : Span
deriving DecidableEq, Repr

namespace Token

/-- A token prints as its kind, followed by its text in parentheses unless that is empty. -/
def render (t : Token) : String :=
  if t.text = "" then t.kind.name else t.kind.name ++ "(" ++ t.text ++ ")"

/-- A token stream prints with a space between tokens. -/
def renderAll (ts : List Token) : String :=
  " ".intercalate (ts.map render)

end Token

/-- A token sequence: any tokens, and at the end one of kind `endOfInput`. -/
@[ext]
structure TokenSeq where
  body : List Token
  last : Token
  last_kind : last.kind = .endOfInput
deriving DecidableEq

namespace TokenSeq

/-- All tokens in order. -/
def toList (s : TokenSeq) : List Token :=
  s.body ++ [s.last]

/-- Puts a token in front. -/
def cons (t : Token) (s : TokenSeq) : TokenSeq :=
  { s with body := t :: s.body }

/-- Accepts the tokens that end in an end-of-input token. -/
def ofList? : List Token → Option TokenSeq
  | [] => none
  | [t] => if h : t.kind = .endOfInput then some ⟨[], t, h⟩ else none
  | t :: ts => (ofList? ts).map (cons t)

/-- Reading the tokens of a sequence back gives the sequence. -/
theorem ofList?_toList (s : TokenSeq) : ofList? s.toList = some s := by
  obtain ⟨body, last, h⟩ := s
  induction body with
  | nil => simp [toList, ofList?, h]
  | cons t ts ih =>
    have hne : ts ++ [last] ≠ [] := by simp
    obtain ⟨u, us, hu⟩ := List.exists_cons_of_ne_nil hne
    simp only [toList, List.cons_append] at ih ⊢
    rw [hu] at ih ⊢
    simp [ofList?, ih, cons]

end TokenSeq

end PrintfLint
