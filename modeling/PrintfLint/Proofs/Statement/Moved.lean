import PrintfLint.Outcome
import PrintfLint.Proofs.Statement.Attempt

/-!
# PrintfLint.Proofs.Statement.Moved — tokens that stand elsewhere

* `Token.move`, `Expr.move`, `Problem.move` — the same thing with all its positions changed;
* `Reads.move`, `Attempts.move` — moved tokens are read as the others are;
* `TokenSeq.outcome_move` — their outcome is the moved outcome.

No reader looks at a position. What a position is changed to is left open, so it may be another
place of the same line, a place in another line, or one place for all tokens, which leaves of an
outcome all but its spans.
-/

namespace PrintfLint

variable (p : Position → Position)

/-! ## Moved things -/

/-- The stretch between the new positions. -/
def Span.move (s : Span) : Span :=
  ⟨p s.start, p s.stop⟩

theorem Span.join_move (a b : Span) : (a.move p).join (b.move p) = (a.join b).move p := rfl

/-- The token at its new place. -/
def Token.move (t : Token) : Token :=
  { t with span := t.span.move p }

namespace Expr

mutual

/-- The expression with all its tokens moved. -/
def move : Expr → Expr
  | number t => number (t.move p)
  | name t => name (t.move p)
  | call f es c => call (f.move p) (moveAll es) (c.move p)
  | group o e c => group (o.move p) (move e) (c.move p)
  | binary l t r => binary (move l) (t.move p) (move r)

/-- The expressions with all their tokens moved. -/
def moveAll : List Expr → List Expr
  | [] => []
  | e :: es => move e :: moveAll es

end

theorem moveAll_eq_map (es : List Expr) : moveAll p es = es.map (move p) := by
  induction es with
  | nil => rfl
  | cons e es ih => rw [moveAll, ih, List.map_cons]

theorem span_move (e : Expr) : (e.move p).span = e.span.move p := by
  match e with
  | number t => rfl
  | name t => rfl
  | call f es c => rfl
  | group o e c => rfl
  | binary l t r => rw [move, span, span_move l, span_move r, Span.join_move, span]

theorem type_move (propagate : Bool) (e : Expr) :
    (e.move p).type propagate = e.type propagate := by
  match e with
  | number t => rfl
  | name t => rfl
  | call f es c => rfl
  | group o e c => rw [move, type, type_move propagate e, type]
  | binary l t r => rw [move, type, type_move propagate l, type_move propagate r, type]

end Expr

/-- The argument at its new place. -/
def Argument.move (a : Argument) : Argument :=
  { a with span := a.span.move p }

theorem Expr.argument_move (propagate : Bool) (e : Expr) :
    (e.move p).argument propagate = (e.argument propagate).move p := by
  rw [Expr.argument, Expr.type_move, Expr.span_move]
  rfl

/-- The error at the moved token. -/
def GrammarError.move (e : GrammarError) : GrammarError :=
  { e with found := e.found.move p }

/-- What is read, with all its tokens moved. -/
def movedResult (r : Except GrammarError (List Expr)) : Except GrammarError (List Expr) :=
  match r with
  | .ok es => .ok (Expr.moveAll p es)
  | .error e => .error (e.move p)

/-- The task that goes on from the moved operand. -/
def Task.move : Task → Task
  | chainFrom l a => chainFrom l (a.move p)
  | task => task

/-- The attempt with all its tokens moved. -/
def Attempt.move (a : Attempt) : Attempt where
  draft := ⟨a.draft.literal?.map (Token.move p), a.draft.arguments?.map (Expr.moveAll p)⟩
  error? := a.error?.map (GrammarError.move p)
  rest := a.rest.map (Token.move p)

/-- The problem at its new place. -/
def Problem.move : Problem → Problem
  | lexical c i m s => lexical c i m (s.map (Span.move p))
  | grammar m s h => grammar m (s.map (Span.move p)) h
  | countMismatch s a sp => countMismatch s a (sp.map (Span.move p))
  | typeMismatch i s t sp => typeMismatch i s t (sp.map (Span.move p))
  | unclassified m s h => unclassified m (s.map (Span.move p)) h

/-- The outcome at its new place. -/
def Outcome.move (o : Outcome) : Outcome where
  problem? := o.problem?.map (Problem.move p)
  specifiers := o.specifiers
  arguments := o.arguments.map (Argument.move p)

/-- The sequence of the moved tokens. -/
def TokenSeq.move (s : TokenSeq) : TokenSeq where
  body := s.body.map (Token.move p)
  last := s.last.move p
  last_kind := s.last_kind

/-! ## What does not move -/

namespace Problem

@[simp] theorem message_move (q : Problem) : (q.move p).message = q.message := by
  cases q <;> rfl

@[simp] theorem kind_move (q : Problem) : (q.move p).kind = q.kind := by
  cases q <;> rfl

@[simp] theorem hint?_move (q : Problem) : (q.move p).hint? = q.hint? := by
  cases q <;> rfl

end Problem

namespace Outcome

variable (o : Outcome)

@[simp] theorem valid_move : (o.move p).valid = o.valid := by
  simp [valid, move]

@[simp] theorem reason?_move : (o.move p).reason? = o.reason? := by
  simp [reason?, move, Function.comp_def]

@[simp] theorem kind?_move : (o.move p).kind? = o.kind? := by
  simp [kind?, move, Function.comp_def]

@[simp] theorem hint?_move :
    (o.move p).diagnostic?.bind Diagnostic.hint? = o.diagnostic?.bind Diagnostic.hint? := by
  cases h : o.problem? <;> simp [diagnostic?, move, h, Problem.diagnostic]

@[simp] theorem specifiers_move : (o.move p).specifiers = o.specifiers := rfl

@[simp] theorem expectedTypes_move : (o.move p).expectedTypes = o.expectedTypes := rfl

@[simp] theorem suppliedTypes_move : (o.move p).suppliedTypes = o.suppliedTypes := by
  simp [suppliedTypes, move, Argument.move, Function.comp_def]

end Outcome

/-! ## Moved tokens are read alike -/

section

variable {p} {fin : Token}

/-- An error at the next token is one at the next of the moved tokens. -/
theorem GrammarError.move_next (expected : Expected) (ts : List Token) :
    GrammarError.move p ⟨expected, ts.headD fin⟩ =
      ⟨expected, (ts.map (Token.move p)).headD (fin.move p)⟩ := by
  cases ts <;> rfl

/-- A condition on the next token that does not look at its place. -/
theorem forall_head?_move {q : Token → Prop} {ts : List Token}
    (hq : ∀ t, q t → q (t.move p)) (h : ∀ t ∈ ts.head?, q t) :
    ∀ t ∈ (ts.map (Token.move p)).head?, q t := by
  intro t ht
  rw [List.head?_map] at ht
  rcases Option.map_eq_some_iff.mp ht with ⟨u, hu, rfl⟩
  exact hq u (h u hu)

theorem movedResult_cons (a : Expr) (r : Except GrammarError (List Expr)) :
    movedResult p (r.map (a :: ·)) = (movedResult p r).map (a.move p :: ·) := by
  cases r <;> rfl

theorem Reads.move {task : Task} {ts rest : List Token} {r : Except GrammarError (List Expr)}
    (h : Reads fin task ts r rest) :
    Reads (fin.move p) (task.move p) (ts.map (Token.move p)) (movedResult p r)
      (rest.map (Token.move p)) := by
  -- every rule asks for kinds and texts only, so it applies to the moved tokens as well
  induction h with
  | chain_error _ ih => exact .chain_error ih
  | chain_from _ _ ih ihmore => exact .chain_from ih ihmore
  | chain_end hstop => exact .chain_end (forall_head?_move (fun _ ht => ht) hstop)
  | join_error hjoin _ ih => exact .join_error hjoin ih
  | join_from hjoin _ _ ih ihmore => exact .join_from hjoin ih ihmore
  | term _ ih => exact .term ih
  | factor _ ih => exact .factor ih
  | no_factor hfound =>
    rw [movedResult, GrammarError.move_next]
    exact .no_factor (forall_head?_move (fun _ ht => ht) hfound)
  | number ht => exact .number ht
  | name ht hstop => exact .name ht (forall_head?_move (fun _ ht => ht) hstop)
  | call_empty ht ho hc => exact .call_empty ht ho hc
  | call_error ht ho hargs _ ih =>
    exact .call_error ht ho (forall_head?_move (fun _ ht => ht) hargs) ih
  | call ht ho hargs _ hc ih =>
    exact .call ht ho (forall_head?_move (fun _ ht => ht) hargs) ih hc
  | call_open ht ho hargs _ hc ih =>
    rw [movedResult, GrammarError.move_next]
    exact .call_open ht ho (forall_head?_move (fun _ ht => ht) hargs) ih
      (forall_head?_move (fun _ ht => ht) hc)
  | group_error ho _ ih => exact .group_error ho ih
  | group ho _ hc ih => exact .group ho ih hc
  | group_open ho _ hc ih =>
    rw [movedResult, GrammarError.move_next]
    exact .group_open ho ih (forall_head?_move (fun _ ht => ht) hc)
  | arguments_error _ ih => exact .arguments_error ih
  | arguments_from _ _ ih ihmore =>
    rw [movedResult_cons]
    exact .arguments_from ih ihmore
  | arguments_end hstop => exact .arguments_end (forall_head?_move (fun _ ht => ht) hstop)
  | comma_error ht _ ih => exact .comma_error ht ih
  | comma_from ht _ _ ih ihmore =>
    rw [movedResult_cons]
    exact .comma_from ht ih ihmore

theorem Expects.move {ks : List Kind} {ts rest : List Token} {e : Option GrammarError}
    (h : Expects fin ks ts e rest) :
    Expects (fin.move p) ks (ts.map (Token.move p)) (e.map (GrammarError.move p))
      (rest.map (Token.move p)) := by
  induction h with
  | nil => exact .nil
  | cons ht _ ih => exact .cons ht ih
  | missing hne =>
    rw [Option.map_some, GrammarError.move_next]
    exact .missing (forall_head?_move (fun _ ht => ht) hne)

theorem BodyReads.move {ts : List Token} {a : Attempt} (h : BodyReads fin ts a) :
    BodyReads (fin.move p) (ts.map (Token.move p)) (a.move p) := by
  cases h with
  | no_literal hne =>
    rw [Attempt.move, Option.map_some, GrammarError.move_next]
    exact .no_literal (forall_head?_move (fun _ ht => ht) hne)
  | bare ht hstop => exact .bare ht (forall_head?_move (fun _ ht => ht) hstop)
  | arguments_error ht hm inner => exact .arguments_error ht hm inner.move
  | supplied ht hm inner => exact .supplied ht hm inner.move

theorem Attempts.move {ts : List Token} {a : Attempt} (h : Attempts fin ts a) :
    Attempts (fin.move p) (ts.map (Token.move p)) (a.move p) := by
  have herror : ∀ {inner : Attempt} {e : Option GrammarError}, inner.error? = e →
      (inner.move p).error? = e.map (GrammarError.move p) := by
    rintro inner e rfl
    rfl
  -- each part of the statement is read as it was, elsewhere
  cases h with
  | opening before => exact .opening before.move
  | body_error before body he => exact .body_error before.move body.move (herror he)
  | closing before body hnone after =>
    exact .closing before.move body.move (herror hnone) after.move
  | trailing before body hnone after ht =>
    exact .trailing before.move body.move (herror hnone) after.move ht
  | done before body hnone after hend =>
    exact .done before.move body.move (herror hnone) after.move
      (forall_head?_move (fun _ ht => ht) hend)

end

/-! ## Outcomes -/

theorem typeProblem?_move (position : Nat) (ss : List Specifier) (as : List Argument) :
    typeProblem? position ss (as.map (Argument.move p)) =
      (typeProblem? position ss as).map (Problem.move p) := by
  induction ss generalizing as position with
  | nil => rfl
  | cons s ss ih =>
    cases as with
    | nil => rfl
    | cons a as =>
      -- moving changes no type, so the same pair is at fault, with its span moved
      have htype : (a.move p).type = a.type := rfl
      rw [List.map_cons, typeProblem?, typeProblem?, htype, ih]
      split <;> rfl

theorem argumentProblem?_move (ss : List Specifier) (as : List Argument) :
    argumentProblem? ss (as.map (Argument.move p)) =
      (argumentProblem? ss as).map (Problem.move p) := by
  rw [argumentProblem?, argumentProblem?, List.length_map, typeProblem?_move]
  split
  · rfl
  · have hspan : Argument.span ∘ Argument.move p = Span.move p ∘ Argument.span := rfl
    simp only [Option.map_some, Problem.move, List.getLast?_map, Option.map_map, hspan]

theorem Attempt.outcome_move (propagate : Bool) (a : Attempt) :
    (a.move p).outcome propagate = (a.outcome propagate).move p := by
  -- the directives are those of the literal, whose text stays the same
  have hspecifiers : (a.move p).draft.specifiers [] = a.draft.specifiers [] := by
    unfold Draft.specifiers Attempt.move
    cases a.draft.literal? <;> rfl
  have harguments : (a.move p).draft.typedArguments propagate [] =
      (a.draft.typedArguments propagate []).map (Argument.move p) := by
    unfold Draft.typedArguments Attempt.move
    -- either there are no arguments, or each of them is moved
    cases a.draft.arguments? with
    | none => rfl
    | some es =>
      have hargument : Expr.argument propagate ∘ Expr.move p =
          Argument.move p ∘ Expr.argument propagate := by
        funext e
        exact Expr.argument_move p propagate e
      simp only [Option.map_some, Expr.moveAll_eq_map, List.map_map, hargument]
  rw [Attempt.outcome, Attempt.outcome, hspecifiers, harguments, argumentProblem?_move]
  have herror : (a.move p).error? = a.error?.map (GrammarError.move p) := rfl
  rw [herror]
  cases a.error? <;> rfl

/-- Moved tokens have the moved outcome. -/
theorem TokenSeq.outcome_move (propagate : Bool) (s : TokenSeq) :
    (s.move p).outcome propagate = (s.outcome propagate).move p := by
  have hread := s.attempts_attempt
  have hattempt : (s.move p).attempt = s.attempt.move p :=
    hread.move.statement_eq (s.move p).last_kind
  rw [outcome, hattempt, Attempt.outcome_move, outcome]

end PrintfLint
