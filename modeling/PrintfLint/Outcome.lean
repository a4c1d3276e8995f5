import PrintfLint.Expr
import PrintfLint.Problem
import PrintfLint.Specifier
import PrintfLint.Statement

/-!
# PrintfLint.Outcome — the judgement on a token sequence

* `argumentProblem?` — what is wrong between directives and arguments: their numbers differ, or the
  first pair whose types do not fit;
* `Outcome` — the problem, if there is one, and the directives and arguments that were found;
* `TokenSeq.outcome` — the judgement on a token sequence.
-/

namespace PrintfLint

/-- The judgement on a line. -/
structure Outcome where
  problem? : Option Problem
  specifiers : List Specifier
  arguments : List Argument
deriving DecidableEq, Repr

namespace Outcome

/-- A line without a problem is valid. -/
def valid (o : Outcome) : Bool :=
  o.problem?.isNone

/-- The report on what is wrong. -/
def diagnostic? (o : Outcome) : Option Diagnostic :=
  o.problem?.map Problem.diagnostic

/-- Why the line is invalid. -/
def reason? (o : Outcome) : Option String :=
  o.problem?.map Problem.message

/-- In which way the line is invalid. -/
def kind? (o : Outcome) : Option ProblemKind :=
  o.problem?.map Problem.kind

/-- The types that the directives ask for. -/
def expectedTypes (o : Outcome) : List ValueType :=
  o.specifiers.map Specifier.type

/-- The types of the arguments. -/
def suppliedTypes (o : Outcome) : List ValueType :=
  o.arguments.map Argument.type

/-- The judgement on a line of which nothing is known but its problem. -/
def ofProblem (p : Problem) : Outcome :=
  ⟨some p, [], []⟩

end Outcome

/-! ## Directives against arguments -/

/-- The first directive whose argument does not fit, the pairs being counted from `position`. -/
def typeProblem? (position : Nat) : List Specifier → List Argument → Option Problem
  | s :: ss, a :: as =>
    if s.type.compatible a.type then typeProblem? (position + 1) ss as
    else some (.typeMismatch position s a.type (some a.span))
  | _, _ => none

/-- What is wrong between directives and arguments. -/
def argumentProblem? (specifiers : List Specifier) (arguments : List Argument) : Option Problem :=
  if specifiers.length = arguments.length then typeProblem? 1 specifiers arguments
  else
    some (.countMismatch specifiers.length arguments.length
      (arguments.getLast?.map Argument.span))

/-! ## Directives and arguments of a draft -/

namespace Draft

/-- The directives of the format string; `before` where none has been read. -/
def specifiers (d : Draft) (before : List Specifier) : List Specifier :=
  match d.literal? with
  | some literal => Specifier.extract literal.text
  | none => before

/-- The arguments; `before` where no complete list has been read. -/
def typedArguments (propagate : Bool) (d : Draft) (before : List Argument) : List Argument :=
  match d.arguments? with
  | some es => es.map (Expr.argument propagate)
  | none => before

end Draft

/-- The judgement that an attempt at a statement comes to. -/
def Attempt.outcome (propagate : Bool) (a : Attempt) : Outcome :=
  let specifiers := a.draft.specifiers []
  let arguments := a.draft.typedArguments propagate []
  match a.error? with
  | some e => ⟨some e.problem, specifiers, arguments⟩
  | none => ⟨argumentProblem? specifiers arguments, specifiers, arguments⟩

namespace TokenSeq

/-- Reads the sequence as a statement. -/
def attempt (s : TokenSeq) : Attempt :=
  .statement s.last s.body

/-- The judgement on a token sequence. -/
def outcome (propagate : Bool) (s : TokenSeq) : Outcome :=
  s.attempt.outcome propagate

end TokenSeq

end PrintfLint
