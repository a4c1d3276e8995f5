import PrintfLint.Token.Lexeme

/-!
# PrintfLint.Token.Scan — the tokens of a line

`TokenSeq.scan` divides a text into tokens: white space is skipped, each lexeme is the one that
`Lexeme.next?` finds, and the scan ends with the first fault.
-/

namespace PrintfLint.TokenSeq

/-- The sequence of an empty text. -/
def ended (at_ : Position) : TokenSeq :=
  ⟨[], ⟨.endOfInput, "", ⟨at_, at_⟩⟩, rfl⟩

/-- The tokens of a text that starts at a position. -/
def scan (strict : Strictness) (start : Position) (cs : List Char) :
    Except LexicalError TokenSeq :=
  match cs with
  | [] => .ok (ended start)
  | c :: cs =>
    if Text.isBlank c then scan strict (start.advance 1) cs
    else
      match _h : Lexeme.next? c cs with
      | none => .error (.unexpected c start)
      | some l =>
        match l.accept strict start with
        | .error e => .error e
        | .ok token =>
          match scan strict (start.advance l.text.length) l.rest with
          | .error e => .error e
          | .ok tokens => .ok (tokens.cons token)
termination_by cs.length
decreasing_by
  · simp
  · have := Lexeme.next?_rest_length_le _h
    simp only [List.length_cons]
    omega

/-- The tokens of a line. -/
def ofLine (strict : Strictness) (line : String) (number : Int) : Except LexicalError TokenSeq :=
  scan strict (.ofIndex number 0) line.toList

end PrintfLint.TokenSeq
