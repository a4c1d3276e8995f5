import PrintfLint.Proofs.Statement.Reading

/-!
# PrintfLint.Proofs.Statement.Phrase — the phrases of the grammar

The grammar of expressions, said without any reader.

* `Category`, `Phrase` — the strings of tokens that are expressions, terms, factors and lists of
  arguments, with the expressions that they stand for;
* `Reads.phrased` — what is read is a phrase;
* `Phrase.reads` — every phrase is read to its end, if what comes after it cannot go on with it
  (`Category.Ends`).

Operations group to the left in phrases too, so a chain is built up at its right end, while it is
read from its left. The readers meet this halfway: going on from a left operand turns a phrase that
has been read into a longer one.
-/

namespace PrintfLint

namespace Precedence

/-- The operators of a level. -/
def signs : Precedence → List String
  | sum => ["+", "-"]
  | product => ["*", "/"]

theorem signs_subset_operators (l : Precedence) : l.signs ⊆ l.operators := by
  cases l <;> decide

theorem mem_signs_of_mem_operators (l : Precedence) :
    ∀ s ∈ ["+", "-", "*", "/"], s ∈ l.operators → s ∈ l.signs := by
  cases l <;> decide

theorem notMem_operators_product : ∀ s ∈ sum.signs, s ∉ product.operators := by
  decide

end Precedence

namespace Token

/-- The token is an operator of a level. -/
def IsSign (t : Token) (l : Precedence) : Prop :=
  t.kind = .operator ∧ t.text ∈ l.signs

/-- An operator token is one of the four operators. -/
def Signed (t : Token) : Prop :=
  t.kind = .operator → t.text ∈ ["+", "-", "*", "/"]

/-- The token is not the end of input, and an operator only if it is one of the four. -/
structure Regular (t : Token) : Prop where
  kind_ne : t.kind ≠ .endOfInput
  signed : t.Signed

theorem IsSign.joins {t : Token} {l : Precedence} (h : t.IsSign l) : l.joins t = true := by
  have htext := l.signs_subset_operators h.2
  simp [Precedence.joins, h.1, htext]

theorem IsSign.joins_product {t : Token} (h : t.IsSign .sum) :
    Precedence.product.joins t = false := by
  have htext := Precedence.notMem_operators_product t.text h.2
  simp [Precedence.joins, htext]

/-- Among the four operators, those that join operands of a level are its own. -/
theorem Signed.isSign {t : Token} (ht : t.Signed) {l : Precedence} (h : l.joins t = true) :
    t.IsSign l := by
  obtain ⟨hkind, htext⟩ : t.kind = .operator ∧ t.text ∈ l.operators := by
    simpa [Precedence.joins] using h
  exact ⟨hkind, l.mem_signs_of_mem_operators t.text (ht hkind) htext⟩

end Token

/-! ## Phrases -/

/-- What a phrase can be. A chain of sums is an expression and a chain of products a term; the
operands of the one are terms and of the other factors. -/
inductive Category where
  | chain (level : Precedence)
  | operand (level : Precedence)
  | factor
  | arguments

/-- The phrases of a category, with the expressions that they stand for. -/
inductive Phrase : Category → List Token → List Expr → Prop where
  | single {l : Precedence} {us : List Token} {a : Expr} (left : Phrase (.operand l) us [a]) :
      Phrase (.chain l) us [a]
  | join {l : Precedence} {us vs : List Token} {t : Token} {a b : Expr}
      (left : Phrase (.chain l) us [a]) (ht : t.IsSign l) (right : Phrase (.operand l) vs [b]) :
      Phrase (.chain l) (us ++ t :: vs) [.binary a t b]
  | term {us : List Token} {es : List Expr} (inner : Phrase (.chain .product) us es) :
      Phrase (.operand .sum) us es
  | factor {us : List Token} {es : List Expr} (inner : Phrase .factor us es) :
      Phrase (.operand .product) us es
  | number {t : Token} (ht : t.kind = .number) : Phrase .factor [t] [.number t]
  | name {t : Token} (ht : t.kind = .identifier) : Phrase .factor [t] [.name t]
  | call_empty {t o c : Token} (ht : t.kind = .identifier) (ho : o.kind = .lparen)
      (hc : c.kind = .rparen) : Phrase .factor [t, o, c] [.call t [] c]
  | call {t o c : Token} {us : List Token} {es : List Expr} (ht : t.kind = .identifier)
      (ho : o.kind = .lparen) (inner : Phrase .arguments us es) (hc : c.kind = .rparen) :
      Phrase .factor (t :: o :: (us ++ [c])) [.call t es c]
  | group {o c : Token} {us : List Token} {a : Expr} (ho : o.kind = .lparen)
      (inner : Phrase (.chain .sum) us [a]) (hc : c.kind = .rparen) :
      Phrase .factor (o :: (us ++ [c])) [.group o a c]
  | last {us : List Token} {a : Expr} (only : Phrase (.chain .sum) us [a]) :
      Phrase .arguments us [a]
  | comma {t : Token} {us vs : List Token} {a : Expr} {es : List Expr}
      (first : Phrase (.chain .sum) us [a]) (ht : t.kind = .comma)
      (others : Phrase .arguments vs es) : Phrase .arguments (us ++ t :: vs) (a :: es)

/-- A phrase starts with a token that can start a factor. -/
theorem Phrase.exists_cons {c : Category} {us : List Token} {es : List Expr}
    (h : Phrase c us es) : ∃ t vs, us = t :: vs ∧ t.kind ∈ Expected.operand.kinds := by
  -- by the phrase: its first part is a phrase too, or it starts with the token of a factor
  induction h with
  | single _ ih => exact ih
  | join _ _ _ ih _ =>
    rcases ih with ⟨t, vs, rfl, ht⟩
    exact ⟨t, _, rfl, ht⟩
  | term _ ih => exact ih
  | factor _ ih => exact ih
  | number ht => exact ⟨_, _, rfl, by simp [ht, Expected.kinds]⟩
  | name ht => exact ⟨_, _, rfl, by simp [ht, Expected.kinds]⟩
  | call_empty ht _ _ => exact ⟨_, _, rfl, by simp [ht, Expected.kinds]⟩
  | call ht _ _ _ _ => exact ⟨_, _, rfl, by simp [ht, Expected.kinds]⟩
  | group ho _ _ _ => exact ⟨_, _, rfl, by simp [ho, Expected.kinds]⟩
  | last _ ih => exact ih
  | comma _ _ _ ih _ =>
    rcases ih with ⟨t, vs, rfl, ht⟩
    exact ⟨t, _, rfl, ht⟩

theorem Phrase.ne_nil {c : Category} {us : List Token} {es : List Expr} (h : Phrase c us es) :
    us ≠ [] := by
  rcases h.exists_cons with ⟨t, vs, rfl, _⟩
  exact List.cons_ne_nil t vs

/-- There is no end of input in a phrase. -/
theorem Phrase.kind_ne {c : Category} {us : List Token} {es : List Expr} (h : Phrase c us es) :
    ∀ t ∈ us, t.kind ≠ .endOfInput := by
  -- each token is of a kind that the rules name, or belongs to a part
  induction h with
  | single _ ih => exact ih
  | join _ ht _ ih ihright =>
    rw [List.forall_mem_append, List.forall_mem_cons]
    exact ⟨ih, by simp [ht.1], ihright⟩
  | term _ ih => exact ih
  | factor _ ih => exact ih
  | number ht => simp [ht]
  | name ht => simp [ht]
  | call_empty ht ho hc => simp [ht, ho, hc]
  | call ht ho _ hc ih =>
    rw [List.forall_mem_cons, List.forall_mem_cons, List.forall_mem_append,
      List.forall_mem_singleton]
    exact ⟨by simp [ht], by simp [ho], ih, by simp [hc]⟩
  | group ho _ hc ih =>
    rw [List.forall_mem_cons, List.forall_mem_append, List.forall_mem_singleton]
    exact ⟨by simp [ho], ih, by simp [hc]⟩
  | last _ ih => exact ih
  | comma _ ht _ ih ihothers =>
    rw [List.forall_mem_append, List.forall_mem_cons]
    exact ⟨ih, by simp [ht], ihothers⟩

/-! ## What is read is a phrase -/

/-- The tokens are what a task reads; a task that goes on turns a phrase into a longer one. -/
def Task.Phrased : Task → List Token → List Expr → Prop
  | chain l, us, es => Phrase (.chain l) us es
  | chainFrom l a, us, es => ∀ ps, Phrase (.chain l) ps [a] → Phrase (.chain l) (ps ++ us) es
  | operand l, us, es => Phrase (.operand l) us es
  | factor, us, es => Phrase .factor us es
  | arguments, us, es => Phrase .arguments us es
  | argumentsFrom, us, es =>
    ∀ ps a, Phrase (.chain .sum) ps [a] → Phrase .arguments (ps ++ us) (a :: es)

variable {fin : Token}

theorem Reads.phrased {task : Task} {ts rest : List Token} {r : Except GrammarError (List Expr)}
    (h : Reads fin task ts r rest) {es : List Expr} (hr : r = .ok es)
    (hsigned : ∀ t ∈ ts, t.Signed) : ∃ us, ts = us ++ rest ∧ task.Phrased us es := by
  -- a chain grows to the left: what has been read is a phrase that the next operand makes longer
  induction h generalizing es with
  | chain_error => cases hr
  | chain_from _ _ ih ihmore =>
    rcases ih rfl hsigned with ⟨us, rfl, hleft⟩
    obtain ⟨vs, rfl, hmore⟩ := ihmore hr fun t ht => hsigned t (List.mem_append_right us ht)
    exact ⟨us ++ vs, by rw [List.append_assoc], hmore us (.single hleft)⟩
  | chain_end =>
    cases hr
    exact ⟨[], rfl, fun ps hps => by rwa [List.append_nil]⟩
  | join_error => cases hr
  | @join_from l a b t ts mid rest r hjoin _ _ ih ihmore =>
    rcases List.forall_mem_cons.mp hsigned with ⟨ht, hsigned⟩
    rcases ih rfl hsigned with ⟨us, rfl, hright⟩
    obtain ⟨vs, rfl, hmore⟩ := ihmore hr fun t ht => hsigned t (List.mem_append_right us ht)
    refine ⟨t :: (us ++ vs), by simp, ?_⟩
    intro ps hps
    have hjoined := hmore (ps ++ t :: us) (.join hps (ht.isSign hjoin) hright)
    simpa using hjoined
  | term _ ih =>
    rcases ih hr hsigned with ⟨us, rfl, hinner⟩
    exact ⟨us, rfl, .term hinner⟩
  | factor _ ih =>
    rcases ih hr hsigned with ⟨us, rfl, hinner⟩
    exact ⟨us, rfl, .factor hinner⟩
  | no_factor => cases hr
  | @number t ts ht =>
    cases hr
    exact ⟨[t], rfl, .number ht⟩
  | @name t ts ht =>
    cases hr
    exact ⟨[t], rfl, .name ht⟩
  | @call_empty t o c ts ht ho hc =>
    cases hr
    exact ⟨[t, o, c], rfl, .call_empty ht ho hc⟩
  | call_error => cases hr
  | @call t o c ts rest es ht ho _ _ hc ih =>
    cases hr
    obtain ⟨us, rfl, hinner⟩ := ih rfl fun t ht => hsigned t (by simp [ht])
    exact ⟨t :: o :: (us ++ [c]), by simp, .call ht ho hinner hc⟩
  | call_open => cases hr
  | group_error => cases hr
  | @group o c ts rest a ho _ hc ih =>
    cases hr
    obtain ⟨us, rfl, hinner⟩ := ih rfl fun t ht => hsigned t (by simp [ht])
    exact ⟨o :: (us ++ [c]), by simp, .group ho hinner hc⟩
  | group_open => cases hr
  | arguments_error => cases hr
  | @arguments_from ts mid rest a r _ _ ih ihmore =>
    rcases map_eq_ok hr with ⟨es', rfl, rfl⟩
    rcases ih rfl hsigned with ⟨us, rfl, hfirst⟩
    obtain ⟨vs, rfl, hmore⟩ := ihmore rfl fun t ht => hsigned t (List.mem_append_right us ht)
    exact ⟨us ++ vs, by rw [List.append_assoc], hmore us a hfirst⟩
  | arguments_end =>
    cases hr
    exact ⟨[], rfl, fun ps a hps => by simpa using .last hps⟩
  | comma_error => cases hr
  | @comma_from t ts mid rest a r ht _ _ ih ihmore =>
    rcases map_eq_ok hr with ⟨es', rfl, rfl⟩
    rcases List.forall_mem_cons.mp hsigned with ⟨_, hsigned⟩
    rcases ih rfl hsigned with ⟨us, rfl, hnext⟩
    obtain ⟨vs, rfl, hmore⟩ := ihmore rfl fun t ht => hsigned t (List.mem_append_right us ht)
    refine ⟨t :: (us ++ vs), by simp, ?_⟩
    intro ps b hps
    exact .comma hps ht (hmore us a hnext)

/-! ## Phrases are read -/

namespace Category

/-- The task that reads the phrases of a category. -/
def task : Category → Task
  | chain l => .chain l
  | operand l => .operand l
  | factor => .factor
  | arguments => .arguments

/-- Does a phrase of the category go on with the token? -/
def goesOn : Category → Token → Bool
  | chain .sum, t => Precedence.sum.joins t || Precedence.product.joins t
  | chain .product, t => Precedence.product.joins t
  | operand .sum, t => Precedence.product.joins t
  | operand .product, _ => false
  | factor, _ => false
  | arguments, t =>
    Precedence.sum.joins t || Precedence.product.joins t || t.kind = .comma

end Category

/-- The tokens do not end in a name that the tokens after it would call. -/
def Uncalled (us rest : List Token) : Prop :=
  ∀ i ∈ us.getLast?, ∀ o ∈ rest.head?, i.kind = .identifier → o.kind ≠ .lparen

/-- A phrase of the category ends before the rest. -/
structure Category.Ends (c : Category) (us rest : List Token) : Prop where
  goesOn_eq_false : ∀ t ∈ rest.head?, c.goesOn t = false
  uncalled : Uncalled us rest

theorem uncalled_of_kind_ne {us rest : List Token} {t : Token} (ht : t.kind ≠ .lparen) :
    Uncalled us (t :: rest) := by
  intro i _ o ho _
  cases ho
  exact ht

/-- Behind a separator, only what comes after it can be called. -/
theorem uncalled_append_cons {us vs rest : List Token} {t : Token} (hvs : vs ≠ []) :
    Uncalled (us ++ t :: vs) rest ↔ Uncalled vs rest := by
  have hlast : (us ++ t :: vs).getLast? = vs.getLast? := by
    rw [← List.singleton_append, ← List.append_assoc, List.getLast?_append_of_ne_nil _ hvs]
  unfold Uncalled
  rw [hlast]

/-- How a phrase of the category is read: a chain to its end and from there on, and all others to
their end. -/
def Category.ReadBy (fin : Token) : Category → List Token → List Expr → Prop
  | chain l, us, es => ∀ a, es = [a] → ∀ rest r rest', (operand l).Ends us rest →
      Reads fin (.chainFrom l a) rest r rest' → Reads fin (.chain l) (us ++ rest) r rest'
  | c, us, es => ∀ rest, c.Ends us rest → Reads fin c.task (us ++ rest) (.ok es) rest

theorem goesOn_chain {l : Precedence} {t : Token}
    (h : (Category.chain l).goesOn t = false) :
    l.joins t = false ∧ (Category.operand l).goesOn t = false := by
  cases l with
  | sum => simpa [Category.goesOn] using h
  | product => exact ⟨h, rfl⟩

/-- A chain is read to its end where no operator of its level follows. -/
theorem readBy_chain {l : Precedence} {us : List Token} {a : Expr}
    (h : (Category.chain l).ReadBy fin us [a]) {rest : List Token}
    (hends : (Category.chain l).Ends us rest) :
    Reads fin (.chain l) (us ++ rest) (.ok [a]) rest := by
  have hoperand : (Category.operand l).Ends us rest :=
    ⟨fun t ht => (goesOn_chain (hends.goesOn_eq_false t ht)).2, hends.uncalled⟩
  have hstop : ∀ t ∈ rest.head?, l.joins t = false :=
    fun t ht => (goesOn_chain (hends.goesOn_eq_false t ht)).1
  exact h a rfl rest _ rest hoperand (.chain_end hstop)

/-- No phrase goes on with a token that is neither an operator nor a comma. -/
theorem Category.goesOn_eq_false {t : Token} (hoperator : t.kind ≠ .operator)
    (hcomma : t.kind ≠ .comma) (c : Category) : c.goesOn t = false := by
  have hjoins : ∀ l : Precedence, l.joins t = false := fun l => joins_eq_false hoperator
  unfold goesOn
  split <;> simp [hjoins, hcomma]

/-- Every phrase ends before a closing parenthesis. -/
theorem ends_of_rparen {c : Category} {t : Token} (ht : t.kind = .rparen)
    (us rest : List Token) : c.Ends us (t :: rest) := by
  constructor
  · intro s hs
    cases hs
    exact c.goesOn_eq_false (by simp [ht]) (by simp [ht])
  · exact uncalled_of_kind_ne (by simp [ht])

/-- An expression ends before a comma. -/
theorem ends_of_comma {t : Token} (ht : t.kind = .comma) (us rest : List Token) :
    (Category.chain .sum).Ends us (t :: rest) := by
  constructor
  · intro s hs
    cases hs
    have hjoins : ∀ l : Precedence, l.joins t = false := fun l => joins_eq_false (by simp [ht])
    simp [Category.goesOn, hjoins]
  · exact uncalled_of_kind_ne (by simp [ht])

/-- An operand ends before an operator of its level. -/
theorem ends_of_isSign {l : Precedence} {t : Token} (ht : t.IsSign l) (us rest : List Token) :
    (Category.operand l).Ends us (t :: rest) := by
  constructor
  · intro s hs
    cases hs
    cases l with
    | sum => exact ht.joins_product
    | product => rfl
  · exact uncalled_of_kind_ne (by simp [ht.1])

/-- After a comma, arguments are read as they are from the start. -/
theorem Reads.after_comma {t : Token} {ts rest : List Token} {r : Except GrammarError (List Expr)}
    (h : Reads fin .arguments ts r rest) (ht : t.kind = .comma) :
    Reads fin .argumentsFrom (t :: ts) r rest := by
  cases h with
  | arguments_error first => exact .comma_error ht first
  | arguments_from first more => exact .comma_from ht first more

/-- A phrase that is no list of arguments stands for one expression. -/
theorem Phrase.eq_singleton {c : Category} {us : List Token} {es : List Expr}
    (h : Phrase c us es) (hc : c ≠ .arguments) : ∃ a, es = [a] := by
  induction h with
  | term _ ih => exact ih nofun
  | factor _ ih => exact ih nofun
  | last => exact absurd rfl hc
  | comma => exact absurd rfl hc
  | _ => exact ⟨_, rfl⟩

theorem Phrase.readBy {c : Category} {us : List Token} {es : List Expr} (h : Phrase c us es) :
    c.ReadBy fin us es := by
  -- a phrase nests to the left where the reader loops, so a chain is read up to any further tail
  induction h with
  | single _ ih =>
    intro a ha rest r rest' hends hmore
    cases ha
    exact .chain_from (ih rest hends) hmore
  | @join l us vs t a b _ ht hright ih ihright =>
    intro e he rest r rest' hends hmore
    cases he
    have hnext : (Category.operand l).Ends vs rest :=
      ⟨hends.goesOn_eq_false, (uncalled_append_cons hright.ne_nil).mp hends.uncalled⟩
    have hjoin := Reads.join_from ht.joins (ihright rest hnext) hmore
    rw [List.append_assoc, List.cons_append]
    exact ih a rfl _ r rest' (ends_of_isSign ht us _) hjoin
  | term hinner ih =>
    rcases hinner.eq_singleton nofun with ⟨a, rfl⟩
    intro rest hends
    exact .term (readBy_chain ih ⟨hends.goesOn_eq_false, hends.uncalled⟩)
  | factor _ ih =>
    intro rest hends
    exact .factor (ih rest ⟨by simp [Category.goesOn], hends.uncalled⟩)
  | number ht =>
    intro rest _
    exact .number ht
  | @name t ht =>
    intro rest hends
    exact .name ht fun o ho => hends.uncalled t rfl o ho ht
  | call_empty ht ho hc =>
    intro rest _
    exact .call_empty ht ho hc
  | @call t o c us es ht ho hinner hc ih =>
    intro rest _
    -- arguments that are there start with a factor, so the call is not taken for an empty one
    have hargs : ∀ s ∈ (us ++ c :: rest).head?, s.kind ≠ .rparen := by
      rcases hinner.exists_cons with ⟨s, vs, rfl, hs⟩
      intro x hx
      cases hx
      intro hkind
      simp [hkind, Expected.kinds] at hs
    have hread := ih (c :: rest) (ends_of_rparen hc us rest)
    have htokens : t :: o :: (us ++ [c]) ++ rest = t :: o :: (us ++ c :: rest) := by simp
    rw [htokens]
    exact .call ht ho hargs hread hc
  | @group o c us a ho _ hc ih =>
    intro rest _
    have hread := readBy_chain ih (ends_of_rparen hc us rest)
    have htokens : o :: (us ++ [c]) ++ rest = o :: (us ++ c :: rest) := by simp
    rw [htokens]
    exact .group ho hread hc
  | @last us a _ ih =>
    intro rest hends
    have hexpr : (Category.chain .sum).Ends us rest := by
      refine ⟨?_, hends.uncalled⟩
      intro t ht
      have hstop := hends.goesOn_eq_false t ht
      simp only [Category.goesOn, Bool.or_eq_false_iff] at hstop ⊢
      exact hstop.1
    have hstop : ∀ t ∈ rest.head?, t.kind ≠ .comma := by
      intro t ht
      simpa [Category.goesOn] using (Bool.or_eq_false_iff.mp (hends.goesOn_eq_false t ht)).2
    exact .arguments_from (readBy_chain ih hexpr) (.arguments_end hstop)
  | @comma t us vs a es _ ht hothers ih ihothers =>
    intro rest hends
    have hnext : Category.arguments.Ends vs rest :=
      ⟨hends.goesOn_eq_false, (uncalled_append_cons hothers.ne_nil).mp hends.uncalled⟩
    have hfirst := readBy_chain ih (ends_of_comma ht us (vs ++ rest))
    rw [List.append_assoc, List.cons_append]
    exact .arguments_from hfirst ((ihothers rest hnext).after_comma ht)

/-- Every phrase is read to its end, if it ends there. -/
theorem Phrase.reads {c : Category} {us : List Token} {es : List Expr} (h : Phrase c us es)
    {rest : List Token} (hends : c.Ends us rest) :
    Reads fin c.task (us ++ rest) (.ok es) rest := by
  have hread : c.ReadBy fin us es := h.readBy
  cases c with
  | chain l =>
    rcases h.eq_singleton nofun with ⟨a, rfl⟩
    exact readBy_chain hread hends
  | operand l => exact hread rest hends
  | factor => exact hread rest hends
  | arguments => exact hread rest hends

end PrintfLint
