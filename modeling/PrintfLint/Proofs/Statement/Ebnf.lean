import PrintfLint.Proofs.Statement.Phrase

/-!
# PrintfLint.Proofs.Statement.Ebnf — the grammar of expressions, with repetitions

The grammar as it is written down,

* expression: term { ("+" | "-") term }
* term: factor { ("*" | "/") factor }
* factor: identifier [ "(" [ arguments ] ")" ] | number | "(" expression ")"
* arguments: expression { "," expression }

as a relation on strings of tokens.

* `Category.Derives` — one rule for each line and each alternative of it;
* `Category.derives_iff` — a string is derived exactly if it is a phrase.

A repetition is a list of separators, each with what comes after it. Phrases have no lists in them:
an operation has two operands and a list of arguments a first one. So lists are folded up from the
left for operations and from the right for arguments, and unfolded again.
-/

namespace PrintfLint

/-- The tokens of a repetition: each separator with the tokens that come after it. -/
def repeated (tail : List (Token × List Token)) : List Token :=
  tail.flatMap fun p => p.1 :: p.2

theorem repeated_cons (t : Token) (us : List Token) (tail : List (Token × List Token)) :
    repeated ((t, us) :: tail) = t :: (us ++ repeated tail) :=
  rfl

theorem repeated_concat (tail : List (Token × List Token)) (t : Token) (us : List Token) :
    repeated (tail ++ [(t, us)]) = repeated tail ++ t :: us := by
  simp [repeated]

/-- The strings of tokens that the grammar derives from a category. -/
inductive Category.Derives : Category → List Token → Prop where
  | chain {l : Precedence} {us : List Token} {tail : List (Token × List Token)}
      (first : Derives (.operand l) us) (signs : ∀ p ∈ tail, p.1.IsSign l)
      (operands : ∀ p ∈ tail, Derives (.operand l) p.2) : Derives (.chain l) (us ++ repeated tail)
  | term {us : List Token} (inner : Derives (.chain .product) us) : Derives (.operand .sum) us
  | factor {us : List Token} (inner : Derives .factor us) : Derives (.operand .product) us
  | name {t : Token} (ht : t.kind = .identifier) : Derives .factor [t]
  | call_empty {t o c : Token} (ht : t.kind = .identifier) (ho : o.kind = .lparen)
      (hc : c.kind = .rparen) : Derives .factor [t, o, c]
  | call {t o c : Token} {us : List Token} (ht : t.kind = .identifier) (ho : o.kind = .lparen)
      (inner : Derives .arguments us) (hc : c.kind = .rparen) :
      Derives .factor (t :: o :: (us ++ [c]))
  | number {t : Token} (ht : t.kind = .number) : Derives .factor [t]
  | group {o c : Token} {us : List Token} (ho : o.kind = .lparen)
      (inner : Derives (.chain .sum) us) (hc : c.kind = .rparen) :
      Derives .factor (o :: (us ++ [c]))
  | arguments {us : List Token} {tail : List (Token × List Token)}
      (first : Derives (.chain .sum) us) (commas : ∀ p ∈ tail, p.1.kind = .comma)
      (others : ∀ p ∈ tail, Derives (.chain .sum) p.2) : Derives .arguments (us ++ repeated tail)

/-! ## Repetitions in phrases -/

namespace Phrase

/-- A chain goes on with every further operand. -/
theorem exists_chain {l : Precedence} {us : List Token} {a : Expr} (h : Phrase (.chain l) us [a])
    {tail : List (Token × List Token)} (signs : ∀ p ∈ tail, p.1.IsSign l)
    (operands : ∀ p ∈ tail, ∃ es, Phrase (.operand l) p.2 es) :
    ∃ es, Phrase (.chain l) (us ++ repeated tail) es := by
  -- the chain so far is the left operand of the next sign
  induction tail generalizing us a with
  | nil => exact ⟨[a], by simpa [repeated] using h⟩
  | cons p tail ih =>
    obtain ⟨t, vs⟩ := p
    obtain ⟨es, hvs⟩ := operands (t, vs) List.mem_cons_self
    obtain ⟨b, rfl⟩ := hvs.eq_singleton nofun
    have hjoin := Phrase.join h (signs (t, vs) List.mem_cons_self) hvs
    obtain ⟨es, hall⟩ := ih hjoin (fun p hp => signs p (List.mem_cons_of_mem _ hp))
      fun p hp => operands p (List.mem_cons_of_mem _ hp)
    exact ⟨es, by simpa [repeated_cons] using hall⟩

/-- A list of arguments starts with an expression, and others follow after commas. -/
theorem exists_arguments {us : List Token} {a : Expr} (h : Phrase (.chain .sum) us [a])
    {tail : List (Token × List Token)} (commas : ∀ p ∈ tail, p.1.kind = .comma)
    (others : ∀ p ∈ tail, ∃ es, Phrase (.chain .sum) p.2 es) :
    ∃ es, Phrase .arguments (us ++ repeated tail) es := by
  -- each argument that follows is read as the first of the rest of the list
  induction tail generalizing us a with
  | nil => exact ⟨[a], by simpa [repeated] using Phrase.last h⟩
  | cons p tail ih =>
    obtain ⟨t, vs⟩ := p
    obtain ⟨es, hvs⟩ := others (t, vs) List.mem_cons_self
    obtain ⟨b, rfl⟩ := hvs.eq_singleton nofun
    obtain ⟨es, hall⟩ := ih hvs (fun p hp => commas p (List.mem_cons_of_mem _ hp))
      fun p hp => others p (List.mem_cons_of_mem _ hp)
    exact ⟨a :: es, .comma h (commas (t, vs) List.mem_cons_self) hall⟩

end Phrase

/-! ## Derived strings are phrases -/

namespace Category.Derives

variable {k : Category} {us vs : List Token} {t : Token}

theorem exists_phrase (h : k.Derives us) : ∃ es, Phrase k us es := by
  -- each repetition is folded up, with what its parts stand for
  induction h with
  | chain _ signs _ ihfirst ihoperands =>
    obtain ⟨es, hfirst⟩ := ihfirst
    obtain ⟨a, rfl⟩ := hfirst.eq_singleton nofun
    exact Phrase.exists_chain (.single hfirst) signs ihoperands
  | term _ ih =>
    obtain ⟨es, hinner⟩ := ih
    exact ⟨es, .term hinner⟩
  | factor _ ih =>
    obtain ⟨es, hinner⟩ := ih
    exact ⟨es, .factor hinner⟩
  | name ht => exact ⟨_, .name ht⟩
  | call_empty ht ho hc => exact ⟨_, .call_empty ht ho hc⟩
  | call ht ho _ hc ih =>
    obtain ⟨es, hinner⟩ := ih
    exact ⟨_, .call ht ho hinner hc⟩
  | number ht => exact ⟨_, .number ht⟩
  | group ho _ hc ih =>
    obtain ⟨es, hinner⟩ := ih
    obtain ⟨a, rfl⟩ := hinner.eq_singleton nofun
    exact ⟨_, .group ho hinner hc⟩
  | arguments _ commas _ ihfirst ihothers =>
    obtain ⟨es, hfirst⟩ := ihfirst
    obtain ⟨a, rfl⟩ := hfirst.eq_singleton nofun
    exact Phrase.exists_arguments hfirst commas ihothers

/-- An operand is a chain by itself. -/
theorem single {l : Precedence} (h : (operand l).Derives us) : (Category.chain l).Derives us := by
  have hchain : (Category.chain l).Derives (us ++ repeated []) := .chain h (by simp) (by simp)
  simpa [repeated] using hchain

/-- A chain goes on with one more operand. -/
theorem join {l : Precedence} (h : (Category.chain l).Derives us) (ht : t.IsSign l)
    (hvs : (operand l).Derives vs) : (Category.chain l).Derives (us ++ t :: vs) := by
  cases h with
  | @chain _ us tail first signs operands =>
    rw [List.append_assoc, ← repeated_concat]
    refine .chain first ?_ ?_ <;> rw [List.forall_mem_append, List.forall_mem_singleton]
    · exact ⟨signs, ht⟩
    · exact ⟨operands, hvs⟩

/-- An expression is a list of arguments by itself. -/
theorem last (h : (Category.chain .sum).Derives us) : Category.arguments.Derives us := by
  have harguments : Category.arguments.Derives (us ++ repeated []) :=
    .arguments h (by simp) (by simp)
  simpa [repeated] using harguments

/-- A list of arguments can have one more in front. -/
theorem comma (h : (Category.chain .sum).Derives us) (ht : t.kind = .comma)
    (hvs : Category.arguments.Derives vs) : Category.arguments.Derives (us ++ t :: vs) := by
  cases hvs with
  | @arguments ws tail first commas others =>
    rw [← repeated_cons]
    refine .arguments h ?_ ?_ <;> rw [List.forall_mem_cons]
    · exact ⟨ht, commas⟩
    · exact ⟨first, others⟩

end Category.Derives

theorem Phrase.derives {k : Category} {us : List Token} {es : List Expr} (h : Phrase k us es) :
    k.Derives us := by
  -- each rule for phrases builds one operand or one element; the relation repeats them
  induction h with
  | single _ ih => exact ih.single
  | join _ ht _ ih ihright => exact ih.join ht ihright
  | term _ ih => exact .term ih
  | factor _ ih => exact .factor ih
  | number ht => exact .number ht
  | name ht => exact .name ht
  | call_empty ht ho hc => exact .call_empty ht ho hc
  | call ht ho _ hc ih => exact .call ht ho ih hc
  | group ho _ hc ih => exact .group ho ih hc
  | last _ ih => exact ih.last
  | comma _ ht _ ih ihothers => exact ih.comma ht ihothers

/-- The grammar derives the phrases and nothing else. -/
theorem Category.derives_iff {k : Category} {us : List Token} :
    k.Derives us ↔ ∃ es, Phrase k us es :=
  ⟨Derives.exists_phrase, fun ⟨_, h⟩ => h.derives⟩

end PrintfLint
