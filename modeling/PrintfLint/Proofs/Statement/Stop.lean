import PrintfLint.Proofs.Statement.Phrase

/-!
# PrintfLint.Proofs.Statement.Stop — where the readers of expressions stop

* `Task.Stops` — what a task has read ends before the rest;
* `Reads.stops` — readers stop nowhere else;
* `reads_iff` — a category is read up to a place exactly if the tokens up to there are one of its
  phrases and end there.

A reader stops at the first token that it cannot use. It need not be the end of the longest phrase:
behind a name a parenthesis is read as that of a call, whether or not it is closed later.
-/

namespace PrintfLint

variable {fin : Token}

/-! ## Ends -/

theorem uncalled_concat {t : Token} (ht : t.kind ≠ .identifier) (us rest : List Token) :
    Uncalled (us ++ [t]) rest := by
  intro i hi o _ hkind
  rw [List.getLast?_concat] at hi
  cases hi
  exact absurd hkind ht

namespace Category.Ends

variable {l : Precedence} {us vs rest : List Token} {t : Token}

/-- Behind a separator, a phrase ends where the one behind the separator does. -/
theorem append_cons {k : Category} (h : k.Ends vs rest) (ht : t.kind ≠ .identifier)
    (us : List Token) : k.Ends (us ++ t :: vs) rest := by
  refine ⟨h.goesOn_eq_false, ?_⟩
  rcases eq_or_ne vs [] with rfl | hvs
  · exact uncalled_concat ht us rest
  · exact (uncalled_append_cons hvs).mpr h.uncalled

/-- A chain ends where its last operand does, if no operator of its level follows. -/
theorem chain (h : (operand l).Ends us rest) (hstop : ∀ t ∈ rest.head?, l.joins t = false) :
    (chain l).Ends us rest := by
  refine ⟨fun t ht => ?_, h.uncalled⟩
  cases l with
  | sum => exact Bool.or_eq_false_iff.mpr ⟨hstop t ht, h.goesOn_eq_false t ht⟩
  | product => exact hstop t ht

/-- A list of arguments ends where the last of them does, if no comma follows. -/
theorem arguments (h : (Category.chain .sum).Ends us rest)
    (hstop : ∀ t ∈ rest.head?, t.kind ≠ .comma) : Category.arguments.Ends us rest := by
  refine ⟨fun t ht => ?_, h.uncalled⟩
  exact Bool.or_eq_false_iff.mpr ⟨h.goesOn_eq_false t ht, decide_eq_false (hstop t ht)⟩

end Category.Ends

/-! ## Stops -/

/-- What a task has read ends before the rest. A task that goes on makes a phrase longer that ends
where the task starts. -/
def Task.Stops : Task → List Token → List Token → Prop
  | chain l, us, rest => (Category.chain l).Ends us rest
  | chainFrom l _, us, rest => ∀ ps, (Category.operand l).Ends ps (us ++ rest) →
      (Category.chain l).Ends (ps ++ us) rest
  | operand l, us, rest => (Category.operand l).Ends us rest
  | factor, us, rest => Category.factor.Ends us rest
  | arguments, us, rest => Category.arguments.Ends us rest
  | argumentsFrom, us, rest => ∀ ps, (Category.chain .sum).Ends ps (us ++ rest) →
      Category.arguments.Ends (ps ++ us) rest

/-- A factor ends wherever no name is called. -/
theorem ends_factor {us rest : List Token} (h : Uncalled us rest) : Category.factor.Ends us rest :=
  ⟨fun _ _ => rfl, h⟩

theorem Reads.stops {task : Task} {ts rest : List Token} {r : Except GrammarError (List Expr)}
    (h : Reads fin task ts r rest) {es : List Expr} (hr : r = .ok es) :
    ∃ us, ts = us ++ rest ∧ task.Stops us rest := by
  -- a loop hands on what it has read, which ends before each separator and so before the last token
  induction h generalizing es with
  | chain_error => cases hr
  | chain_from _ _ ih ihmore =>
    obtain ⟨us, rfl, hleft⟩ := ih rfl
    obtain ⟨vs, rfl, hmore⟩ := ihmore hr
    exact ⟨us ++ vs, by rw [List.append_assoc], hmore us hleft⟩
  | chain_end hstop =>
    refine ⟨[], rfl, fun ps hps => ?_⟩
    rw [List.append_nil]
    exact .chain hps hstop
  | join_error => cases hr
  | @join_from l a b t ts mid rest r hjoin _ _ ih ihmore =>
    obtain ⟨us, rfl, hright⟩ := ih rfl
    obtain ⟨vs, rfl, hmore⟩ := ihmore hr
    have ht : t.kind ≠ .identifier := by simp [Precedence.kind_of_joins hjoin]
    refine ⟨t :: (us ++ vs), by simp, fun ps _ => ?_⟩
    have hends := hmore (ps ++ t :: us) (hright.append_cons ht ps)
    simpa using hends
  | term _ ih =>
    obtain ⟨us, rfl, hinner⟩ := ih hr
    exact ⟨us, rfl, hinner.goesOn_eq_false, hinner.uncalled⟩
  | factor _ ih =>
    obtain ⟨us, rfl, hinner⟩ := ih hr
    exact ⟨us, rfl, hinner.goesOn_eq_false, hinner.uncalled⟩
  | no_factor => cases hr
  | @number t ts ht =>
    exact ⟨[t], rfl, ends_factor (uncalled_concat (by simp [ht]) [] ts)⟩
  | @name t ts ht hstop =>
    exact ⟨[t], rfl, ends_factor fun i _ o ho _ => hstop o ho⟩
  | @call_empty t o c ts ht ho hc =>
    exact ⟨[t, o, c], rfl, ends_factor (uncalled_concat (by simp [hc]) [t, o] ts)⟩
  | call_error => cases hr
  | @call t o c ts rest es ht ho _ _ hc ih =>
    obtain ⟨us, rfl, -⟩ := ih rfl
    exact ⟨t :: o :: us ++ [c], by simp, ends_factor (uncalled_concat (by simp [hc]) _ rest)⟩
  | call_open => cases hr
  | group_error => cases hr
  | @group o c ts rest a ho _ hc ih =>
    obtain ⟨us, rfl, -⟩ := ih rfl
    exact ⟨o :: us ++ [c], by simp, ends_factor (uncalled_concat (by simp [hc]) _ rest)⟩
  | group_open => cases hr
  | arguments_error => cases hr
  | arguments_from _ _ ih ihmore =>
    obtain ⟨es', rfl, rfl⟩ := map_eq_ok hr
    obtain ⟨us, rfl, hfirst⟩ := ih rfl
    obtain ⟨vs, rfl, hmore⟩ := ihmore rfl
    exact ⟨us ++ vs, by rw [List.append_assoc], hmore us hfirst⟩
  | arguments_end hstop =>
    refine ⟨[], rfl, fun ps hps => ?_⟩
    rw [List.append_nil]
    exact .arguments hps hstop
  | comma_error => cases hr
  | @comma_from t ts mid rest a r ht _ _ ih ihmore =>
    obtain ⟨es', rfl, rfl⟩ := map_eq_ok hr
    obtain ⟨us, rfl, hnext⟩ := ih rfl
    obtain ⟨vs, rfl, hmore⟩ := ihmore rfl
    refine ⟨t :: (us ++ vs), by simp, fun ps _ => ?_⟩
    have hends := hmore (ps ++ t :: us) (hnext.append_cons (by simp [ht]) ps)
    simpa using hends

theorem Category.stops_task {k : Category} {us rest : List Token} (h : k.task.Stops us rest) :
    k.Ends us rest := by
  cases k <;> exact h

theorem Category.phrased_task {k : Category} {us : List Token} {es : List Expr}
    (h : k.task.Phrased us es) : Phrase k us es := by
  cases k <;> exact h

/-- A category is read up to a place exactly if the tokens up to there are one of its phrases, and
the phrase ends there. -/
theorem reads_iff {k : Category} {ts rest : List Token} {es : List Expr}
    (hsigned : ∀ t ∈ ts, t.Signed) :
    Reads fin k.task ts (.ok es) rest ↔
      ∃ us, ts = us ++ rest ∧ Phrase k us es ∧ k.Ends us rest := by
  constructor
  · intro h
    obtain ⟨us, hus, hphrased⟩ := h.phrased rfl hsigned
    obtain ⟨vs, hvs, hstops⟩ := h.stops rfl
    -- what is left is the same, so the phrase that is read is the one that stops there
    obtain rfl : vs = us := List.append_cancel_right (hvs.symm.trans hus)
    exact ⟨vs, hvs, Category.phrased_task hphrased, Category.stops_task hstops⟩
  · rintro ⟨us, rfl, hphrase, hends⟩
    exact hphrase.reads hends

end PrintfLint
