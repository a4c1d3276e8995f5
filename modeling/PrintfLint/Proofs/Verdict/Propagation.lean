import Mathlib.Data.List.Forall2
import PrintfLint.Proofs.Statement.Verdict

/-!
# PrintfLint.Proofs.Verdict.Propagation — propagation of unknown types only relaxes

* `Expr.type_relaxes` — with propagation an expression has the type that it has without, or none;
* `Argument.Relaxes`, `typeProblem?_relaxes` — so no pair is found at fault earlier;
* `Outcome.Relaxes` — an outcome with the same findings, up to types that are not known any more;
* `Verdict.ofLine_propagate` — with propagation every line has such an outcome.

What is read does not depend on the option. Both outcomes are of one attempt at a statement, and
only the types of its arguments differ.
-/

namespace PrintfLint

/-! ## Arguments -/

/-- With propagation, an expression has the type that it has without, or it is of unknown type. -/
theorem Expr.type_relaxes (e : Expr) : e.type true = e.type false ∨ e.type true = .unknown := by
  match e with
  | .number _ => exact .inl rfl
  | .name _ => exact .inl rfl
  | .call .. => exact .inl rfl
  | .group _ inner _ => exact inner.type_relaxes
  | .binary l _ r =>
    rw [type, type]
    -- an unknown operand makes the whole unknown, and known ones have the types without the option
    by_cases hl : l.type true = .unknown
    · right
      rw [hl, ValueType.combine_unknown_left]
    · by_cases hr : r.type true = .unknown
      · right
        rw [hr, ValueType.combine_unknown_right]
      · left
        have hleft : l.type true = l.type false := l.type_relaxes.resolve_right hl
        have hright : r.type true = r.type false := r.type_relaxes.resolve_right hr
        rw [ValueType.combine_of_ne hl hr, ValueType.combine_false, hleft, hright]

/-- The first argument stands where the second one does. It has the same type, or an unknown one. -/
structure Argument.Relaxes (b a : Argument) : Prop where
  span_eq : b.span = a.span
  type_eq : b.type = a.type ∨ b.type = .unknown

theorem Argument.Relaxes.compatible {b a : Argument} (h : b.Relaxes a) {t : ValueType}
    (ha : t.compatible a.type = true) : t.compatible b.type = true := by
  rw [compatible_iff] at ha ⊢
  rcases h.type_eq with hsame | hunknown
  · rwa [hsame]
  · exact .inr (.inr hunknown)

theorem Expr.argument_relaxes (e : Expr) : (e.argument true).Relaxes (e.argument false) where
  span_eq := rfl
  type_eq := e.type_relaxes

theorem Draft.typedArguments_relaxes (d : Draft) :
    List.Forall₂ Argument.Relaxes (d.typedArguments true []) (d.typedArguments false []) := by
  unfold typedArguments
  cases d.arguments? with
  | none => exact .nil
  | some es =>
    rw [List.forall₂_map_left_iff, List.forall₂_map_right_iff, List.forall₂_same]
    intro e _
    exact e.argument_relaxes

/-! ## Directives against arguments -/

section

variable {ss : List Specifier} {as bs : List Argument}

/-- With the other types, the first pair at fault is the same or a later one. -/
theorem typeProblem?_relaxes (h : List.Forall₂ Argument.Relaxes bs as) {position : ℕ} {k : ℤ}
    {s : Specifier} {t : ValueType} {span? : Option Span}
    (hk : typeProblem? position ss bs = some (.typeMismatch k s t span?)) :
    ∃ k' s' t' span?', k' ≤ k ∧
      typeProblem? position ss as = some (.typeMismatch k' s' t' span?') := by
  induction h generalizing ss position with
  | nil =>
    cases ss <;> cases hk
  | @cons b a bs as hhead _ ih =>
    cases ss with
    | nil => cases hk
    | cons s' ss =>
      by_cases ha : s'.type.compatible a.type = true
      · -- the pair fits also with the other type, and both go on
        rw [typeProblem?, if_pos (hhead.compatible ha)] at hk
        rw [typeProblem?, if_pos ha]
        exact ih hk
      · -- this pair is at fault, and all that are found are here or later
        obtain ⟨j, hj, _, _, _, _, heq⟩ := exists_typeMismatch hk
        cases heq
        rw [typeProblem?, if_neg ha]
        exact ⟨position, s', a.type, some a.span, by omega, rfl⟩

theorem spans_relaxes (h : List.Forall₂ Argument.Relaxes bs as) :
    bs.map Argument.span = as.map Argument.span := by
  induction h with
  | nil => rfl
  | cons hhead _ ih => rw [List.map_cons, List.map_cons, hhead.span_eq, ih]

end

/-! ## Outcomes -/

/-- The first outcome has the directives and arguments of the second one, with types that are the
same or unknown. It has the same problem, unless that is one of types: such a problem comes later in
it, or not at all. -/
structure Outcome.Relaxes (o' o : Outcome) : Prop where
  specifiers_eq : o'.specifiers = o.specifiers
  arguments : List.Forall₂ Argument.Relaxes o'.arguments o.arguments
  problem_iff : ∀ p : Problem, p.kind ≠ .typeMismatch →
    (o'.problem? = some p ↔ o.problem? = some p)
  valid : o.valid = true → o'.valid = true
  typeMismatch : ∀ k s t span?, o'.problem? = some (.typeMismatch k s t span?) →
    ∃ k' s' t' span?', k' ≤ k ∧ o.problem? = some (.typeMismatch k' s' t' span?')

section

variable {ss : List Specifier} {as bs : List Argument}

/-- An outcome with the same problem is relaxed if its arguments are. -/
theorem Outcome.relaxes_of_arguments (h : List.Forall₂ Argument.Relaxes bs as)
    (p? : Option Problem) : Outcome.Relaxes ⟨p?, ss, bs⟩ ⟨p?, ss, as⟩ where
  specifiers_eq := rfl
  arguments := h
  problem_iff := fun _ _ => Iff.rfl
  valid := id
  typeMismatch := fun k s t span? hk => ⟨k, s, t, span?, Int.le_refl k, hk⟩

/-- Where there are as many directives as arguments, all problems are of types. -/
theorem Outcome.relaxes_of_typeProblem? (h : List.Forall₂ Argument.Relaxes bs as) :
    Outcome.Relaxes ⟨typeProblem? 1 ss bs, ss, bs⟩ ⟨typeProblem? 1 ss as, ss, as⟩ where
  specifiers_eq := rfl
  arguments := h
  problem_iff := by
    intro p hp
    constructor
    · intro hbs
      exact absurd (typeProblem?_kind hbs) hp
    · intro has
      exact absurd (typeProblem?_kind has) hp
  valid := by
    -- a problem of the second outcome comes with one of the first, which has none
    intro has
    have hnone : typeProblem? 1 ss as = none := Option.isNone_iff_eq_none.mp has
    cases hbs : typeProblem? 1 ss bs with
    | none => rfl
    | some p =>
      obtain ⟨k, _, s, _, b, _, rfl⟩ := exists_typeMismatch hbs
      obtain ⟨_, _, _, _, _, has⟩ := typeProblem?_relaxes h hbs
      rw [hnone] at has
      cases has
  typeMismatch := fun _ _ _ _ hk => typeProblem?_relaxes h hk

theorem Outcome.relaxes_of_argumentProblem? (h : List.Forall₂ Argument.Relaxes bs as) :
    Outcome.Relaxes ⟨argumentProblem? ss bs, ss, bs⟩ ⟨argumentProblem? ss as, ss, as⟩ := by
  have hlength : bs.length = as.length := h.length_eq
  -- there are as many arguments as before, so the numbers agree or differ in both outcomes
  by_cases hcount : ss.length = as.length
  · have hcount' : ss.length = bs.length := hcount.trans hlength.symm
    rw [argumentProblem?, if_pos hcount', argumentProblem?, if_pos hcount]
    exact relaxes_of_typeProblem? h
  · have hcount' : ss.length ≠ bs.length := fun heq => hcount (heq.trans hlength)
    have hlast : bs.getLast?.map Argument.span = as.getLast?.map Argument.span := by
      rw [← List.getLast?_map, ← List.getLast?_map, spans_relaxes h]
    rw [argumentProblem?, if_neg hcount', argumentProblem?, if_neg hcount, hlast, hlength]
    exact relaxes_of_arguments h _

end

theorem Attempt.outcome_relaxes (a : Attempt) : (a.outcome true).Relaxes (a.outcome false) := by
  have harguments := a.draft.typedArguments_relaxes
  unfold outcome
  cases a.error? with
  | some e => exact Outcome.relaxes_of_arguments harguments (some e.problem)
  | none => exact Outcome.relaxes_of_argumentProblem? harguments

/-- Propagation of unknown types only relaxes. A line has the same directives and as many arguments
in the same places with it, each of the type that it has without it or of an unknown one. Problems
of the text, of the grammar and of the count are the same. A valid line stays valid, and the first
type mismatch that is found, if there is one, is no earlier than without propagation. -/
theorem Verdict.ofLine_propagate (strict : Strictness) (line : String) (number : Int) :
    (ofLine ⟨strict, true⟩ line number).outcome.Relaxes
      (ofLine ⟨strict, false⟩ line number).outcome := by
  unfold ofLine
  cases TokenSeq.ofLine strict line number with
  | error e => exact Outcome.relaxes_of_arguments .nil (some e.problem)
  | ok ts => exact ts.attempt.outcome_relaxes

/-- A sum that holds a name is an integer, unless unknown types are propagated. -/
example :
    (Verdict.ofLine ⟨{}, false⟩ "printf(\"%s\", x+1);" 1).outcome.kind? = some .typeMismatch ∧
      (Verdict.ofLine ⟨{}, true⟩ "printf(\"%s\", x+1);" 1).valid = true := by
  decide +kernel

end PrintfLint
