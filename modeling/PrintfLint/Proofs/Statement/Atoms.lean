import PrintfLint.Proofs.Statement.Session
import PrintfLint.Proofs.Token.Layout

/-!
# PrintfLint.Proofs.Statement.Atoms — the type of an expression, told from its tokens

* `outsideCalls` — the tokens that stand in no parentheses of a call;
* `ValueType.ofTokens` — the type that these tokens tell, in whatever way they are grouped;
* `Spells` — the tokens of an expression tell its type, also next to those of another one;
* `Reads.spells` — so do the tokens that are read, whichever reader it is;
* `Session.type_expression` — the type of an expression that a session reads.

An expression in parentheses is looked into and the arguments of a call are not. Both are closed by
the parenthesis that matches, and only a count of the open ones tells them apart.
-/

namespace PrintfLint

namespace Token

/-- A number or an identifier. -/
def isAtom (t : Token) : Bool :=
  t.kind = .number || t.kind = .identifier

/-- The text holds a point. -/
def pointed (t : Token) : Bool :=
  t.text.toList.contains '.'

end Token

/-- The type that the tokens outside calls tell. Their order plays no part. -/
def ValueType.ofTokens (propagate : Bool) (us : List Token) : ValueType :=
  let atoms := us.filter Token.isAtom
  if propagate then
    if ∃ t ∈ atoms, t.kind = .identifier then .unknown
    else if ∃ t ∈ atoms, t.pointed then .float
    else .integer
  else if ∃ t ∈ atoms, t.kind = .number ∧ t.pointed then .float
  else if (∃ t ∈ us, t.kind = .operator) ∨ atoms.map Token.kind = [.number] then .integer
  else .unknown

/-- The tokens that stand in no parentheses of a call, `depth` parentheses of one being open at the
start. An identifier right before a parenthesis opens a call. -/
def outsideFrom : Nat → List Token → List Token
  | _, [] => []
  | 0, [t] => [t]
  | 0, t :: o :: ts =>
    if t.kind = .identifier ∧ o.kind = .lparen then t :: outsideFrom 1 ts
    else t :: outsideFrom 0 (o :: ts)
  | depth + 1, t :: ts =>
    if t.kind = .lparen then outsideFrom (depth + 2) ts
    else if t.kind = .rparen then outsideFrom depth ts
    else outsideFrom (depth + 1) ts

/-- The tokens that stand in no parentheses of a call. -/
def outsideCalls (ts : List Token) : List Token :=
  outsideFrom 0 ts

/-! ## Types -/

/-- The type of an expression is a number's or unknown. -/
theorem Expr.type_numeric (propagate : Bool) (e : Expr) :
    e.type propagate ≠ .string ∧ e.type propagate ≠ .char := by
  -- numbers are integers or floats, and names, calls and their combinations are unknown or such
  match e with
  | .number t =>
    rw [type, numberType]
    split <;> simp
  | .name _ => simp [type]
  | .call .. => simp [type]
  | .group _ inner _ => exact inner.type_numeric propagate
  | .binary .. =>
    rw [type, ValueType.combine]
    split
    · simp
    · split <;> simp

namespace ValueType

open Token

theorem ofTokens_number {t : Token} (ht : t.kind = .number) (propagate : Bool) :
    ofTokens propagate [t] = Expr.numberType t := by
  cases propagate <;> simp [ofTokens, Expr.numberType, isAtom, pointed, ht]

theorem ofTokens_identifier {t : Token} (ht : t.kind = .identifier) (propagate : Bool) :
    ofTokens propagate [t] = .unknown := by
  cases propagate <;> simp [ofTokens, isAtom, ht]

/-- Parentheses have no influence. -/
theorem ofTokens_group {o c : Token} (ho : o.kind = .lparen) (hc : c.kind = .rparen)
    (propagate : Bool) (us : List Token) :
    ofTokens propagate (o :: (us ++ [c])) = ofTokens propagate us := by
  have hopening : o.isAtom = false := by simp [isAtom, ho]
  have hclosing : c.isAtom = false := by simp [isAtom, hc]
  have hatoms : (o :: (us ++ [c])).filter isAtom = us.filter isAtom := by
    simp [List.filter_append, hopening, hclosing]
  have hoperator : (∃ t ∈ o :: (us ++ [c]), t.kind = .operator) ↔
      ∃ t ∈ us, t.kind = .operator := by
    simp [or_and_right, exists_or, ho, hc]
  simp only [ofTokens, hatoms, hoperator]

/-- Without propagation a float is told by a number with a point. -/
theorem ofTokens_false_eq_float_iff {us : List Token} :
    ofTokens false us = .float ↔ ∃ t ∈ us.filter isAtom, t.kind = .number ∧ t.pointed := by
  simp only [ofTokens, Bool.false_eq_true, if_false]
  split
  · simp_all
  · split <;> simp_all

/-- With propagation an unknown type is told by an identifier. -/
theorem ofTokens_true_eq_unknown_iff {us : List Token} :
    ofTokens true us = .unknown ↔ ∃ t ∈ us.filter isAtom, t.kind = .identifier := by
  simp only [ofTokens, if_true]
  split
  · simp_all
  · split <;> simp_all

/-- With propagation, and without identifiers, a float is told by a point. -/
theorem ofTokens_true_eq_float_iff {us : List Token}
    (hknown : ¬ ∃ t ∈ us.filter isAtom, t.kind = .identifier) :
    ofTokens true us = .float ↔ ∃ t ∈ us.filter isAtom, t.pointed := by
  simp only [ofTokens, if_true, if_neg hknown]
  split <;> simp_all

/-- Tokens with an operator between them tell the type of an operation. -/
theorem ofTokens_binary {t : Token} (ht : t.kind = .operator) (propagate : Bool)
    (us vs : List Token) : ofTokens propagate (us ++ t :: vs) =
      combine propagate (ofTokens propagate us) (ofTokens propagate vs) := by
  have hatom : t.isAtom = false := by simp [isAtom, ht]
  have hatoms : (us ++ t :: vs).filter isAtom = us.filter isAtom ++ vs.filter isAtom := by
    simp [List.filter_append, hatom]
  have hoperator : ∃ o ∈ us ++ t :: vs, o.kind = .operator := ⟨t, by simp, ht⟩
  have hsplit : ∀ P : Token → Prop, (∃ s ∈ us.filter isAtom ++ vs.filter isAtom, P s) ↔
      (∃ s ∈ us.filter isAtom, P s) ∨ ∃ s ∈ vs.filter isAtom, P s := by
    intro P
    simp only [List.mem_append, or_and_right, exists_or]
  cases propagate with
  | false =>
    rw [combine_false]
    simp only [ofTokens_false_eq_float_iff]
    simp only [ofTokens, Bool.false_eq_true, if_false, hatoms, hsplit, hoperator, true_or, if_true]
  | true =>
    -- an identifier on one of the sides makes both the operands and the whole unknown
    by_cases hus : ∃ s ∈ us.filter isAtom, s.kind = .identifier
    · rw [ofTokens_true_eq_unknown_iff.mpr hus, combine_unknown_left,
        ofTokens_true_eq_unknown_iff, hatoms, hsplit]
      exact .inl hus
    · by_cases hvs : ∃ s ∈ vs.filter isAtom, s.kind = .identifier
      · rw [ofTokens_true_eq_unknown_iff.mpr hvs, combine_unknown_right,
          ofTokens_true_eq_unknown_iff, hatoms, hsplit]
        exact .inr hvs
      · have hleft : ofTokens true us ≠ .unknown := mt ofTokens_true_eq_unknown_iff.mp hus
        have hright : ofTokens true vs ≠ .unknown := mt ofTokens_true_eq_unknown_iff.mp hvs
        rw [combine_of_ne hleft hright]
        simp only [ofTokens_true_eq_float_iff hus, ofTokens_true_eq_float_iff hvs]
        simp only [ofTokens, if_true, hatoms, hsplit, hus, hvs, or_false, if_false]

end ValueType

theorem filter_isAtom_map_face {us vs : List Token} (h : us.map Token.face = vs.map Token.face) :
    (us.filter Token.isAtom).map Token.face = (vs.filter Token.isAtom).map Token.face := by
  have hface : Token.isAtom =
      (fun f : Kind × String => f.1 = .number || f.1 = .identifier) ∘ Token.face := rfl
  rw [hface, ← List.filter_map, ← List.filter_map, h]

theorem exists_mem_of_map_face {us vs : List Token} (h : us.map Token.face = vs.map Token.face)
    (P : Kind × String → Prop) : (∃ t ∈ us, P t.face) ↔ ∃ t ∈ vs, P t.face := by
  have hmap : ∀ ws : List Token, (∃ t ∈ ws, P t.face) ↔ ∃ f ∈ ws.map Token.face, P f := by
    intro ws
    simp
  rw [hmap, hmap, h]

/-- The type depends on the kinds and texts of the tokens only. -/
theorem ValueType.ofTokens_congr {us vs : List Token}
    (h : us.map Token.face = vs.map Token.face) (propagate : Bool) :
    ofTokens propagate us = ofTokens propagate vs := by
  -- each condition speaks of one of three lists: the atoms, their kinds, or all tokens
  have hatoms := filter_isAtom_map_face h
  have hname : (∃ t ∈ us.filter Token.isAtom, t.kind = .identifier) ↔
      ∃ t ∈ vs.filter Token.isAtom, t.kind = .identifier :=
    exists_mem_of_map_face hatoms fun f => f.1 = .identifier
  have hpoint : (∃ t ∈ us.filter Token.isAtom, t.pointed) ↔
      ∃ t ∈ vs.filter Token.isAtom, t.pointed :=
    exists_mem_of_map_face hatoms fun f => f.2.toList.contains '.'
  have hfloat : (∃ t ∈ us.filter Token.isAtom, t.kind = .number ∧ t.pointed) ↔
      ∃ t ∈ vs.filter Token.isAtom, t.kind = .number ∧ t.pointed :=
    exists_mem_of_map_face hatoms fun f => f.1 = .number ∧ f.2.toList.contains '.'
  have hoperator : (∃ t ∈ us, t.kind = .operator) ↔ ∃ t ∈ vs, t.kind = .operator :=
    exists_mem_of_map_face h fun f => f.1 = .operator
  have hkinds : (us.filter Token.isAtom).map Token.kind =
      (vs.filter Token.isAtom).map Token.kind := by
    have hkind : Token.kind = Prod.fst ∘ Token.face := rfl
    rw [hkind, ← List.map_map, ← List.map_map, hatoms]
  simp only [ofTokens, hname, hpoint, hfloat, hoperator, hkinds]

/-! ## Tokens outside calls -/

section

variable {t o c : Token} {us vs : List Token}

/-- A token that is no callee is followed by what stands outside calls after it. -/
theorem outsideCalls_cons (ht : t.kind = .identifier → ∀ o ∈ us.head?, o.kind ≠ .lparen) :
    outsideCalls (t :: us) = t :: outsideCalls us := by
  unfold outsideCalls
  cases us with
  | nil => rfl
  | cons o us =>
    have hname : ¬ (t.kind = .identifier ∧ o.kind = .lparen) := fun h => ht h.1 o rfl h.2
    rw [outsideFrom, if_neg hname]

/-- The tokens leave no parenthesis open, and inside of a call they are passed over. -/
def Enclosed (us : List Token) : Prop :=
  ∀ depth ts, outsideFrom (depth + 1) (us ++ ts) = outsideFrom (depth + 1) ts

theorem enclosed_nil : Enclosed [] := fun _ _ => rfl

theorem enclosed_singleton (ho : t.kind ≠ .lparen) (hc : t.kind ≠ .rparen) : Enclosed [t] := by
  intro depth ts
  rw [List.singleton_append, outsideFrom, if_neg ho, if_neg hc]

theorem Enclosed.append (hus : Enclosed us) (hvs : Enclosed vs) : Enclosed (us ++ vs) := by
  intro depth ts
  rw [List.append_assoc, hus, hvs]

theorem Enclosed.cons (hvs : Enclosed vs) (ho : t.kind ≠ .lparen) (hc : t.kind ≠ .rparen) :
    Enclosed (t :: vs) :=
  (enclosed_singleton ho hc).append hvs

/-- A closing parenthesis takes back what the opening one has added to the count. -/
theorem Enclosed.parenthesised (hus : Enclosed us) (ho : o.kind = .lparen)
    (hc : c.kind = .rparen) : Enclosed (o :: (us ++ [c])) := by
  have hne : c.kind ≠ .lparen := by simp [hc]
  intro depth ts
  rw [List.cons_append, List.append_assoc, outsideFrom, if_pos ho, hus, List.singleton_append,
    outsideFrom, if_neg hne, if_pos hc]

/-- Of a call, only the callee stands outside. -/
theorem outsideCalls_call (ht : t.kind = .identifier) (ho : o.kind = .lparen)
    (hus : Enclosed us) (hc : c.kind = .rparen) (ts : List Token) :
    outsideCalls (t :: o :: (us ++ c :: ts)) = t :: outsideCalls ts := by
  have hne : c.kind ≠ .lparen := by simp [hc]
  rw [outsideCalls, outsideFrom, if_pos ⟨ht, ho⟩, hus, outsideFrom, if_neg hne, if_pos hc,
    outsideCalls]

/-! ## Expressions -/

/-- The tokens are those of an expression: they leave no parenthesis open, what stands outside calls
in them stays so before other tokens, unless these would make a call of a name, and it tells the
type. -/
structure Spells (us : List Token) (e : Expr) : Prop where
  enclosed : Enclosed us
  outside_append : ∀ ts, (∀ o ∈ ts.head?, o.kind ≠ .lparen) →
    outsideCalls (us ++ ts) = outsideCalls us ++ outsideCalls ts
  type_eq : ∀ propagate, e.type propagate = .ofTokens propagate (outsideCalls us)

theorem spells_number (ht : t.kind = .number) : Spells [t] (.number t) where
  enclosed := enclosed_singleton (by simp [ht]) (by simp [ht])
  outside_append := by
    intro ts _
    exact outsideCalls_cons (by simp [ht])
  type_eq := by
    intro propagate
    exact (ValueType.ofTokens_number ht propagate).symm

theorem spells_name (ht : t.kind = .identifier) : Spells [t] (.name t) where
  enclosed := enclosed_singleton (by simp [ht]) (by simp [ht])
  outside_append := by
    intro ts hts
    exact outsideCalls_cons fun _ => hts
  type_eq := by
    intro propagate
    exact (ValueType.ofTokens_identifier ht propagate).symm

theorem spells_call (ht : t.kind = .identifier) (ho : o.kind = .lparen) (hus : Enclosed us)
    (hc : c.kind = .rparen) (es : List Expr) :
    Spells (t :: o :: (us ++ [c])) (.call t es c) where
  enclosed := (hus.parenthesised ho hc).cons (by simp [ht]) (by simp [ht])
  outside_append := by
    -- the arguments are enclosed, so they are passed over up to the parenthesis
    intro ts _
    have htokens : t :: o :: (us ++ [c]) ++ ts = t :: o :: (us ++ c :: ts) := by simp
    rw [htokens, outsideCalls_call ht ho hus hc, outsideCalls_call ht ho hus hc]
    rfl
  type_eq := by
    intro propagate
    rw [outsideCalls_call ht ho hus hc]
    exact (ValueType.ofTokens_identifier ht propagate).symm

/-- Nothing in parentheses stands outside calls or not because of them. -/
theorem Spells.outsideCalls_group {e : Expr} (hus : Spells us e) (ho : o.kind = .lparen)
    (hc : c.kind = .rparen) (ts : List Token) :
    outsideCalls (o :: (us ++ c :: ts)) = o :: (outsideCalls us ++ c :: outsideCalls ts) := by
  have hclosing : ∀ s ∈ (c :: ts).head?, s.kind ≠ .lparen := by simp [hc]
  rw [outsideCalls_cons (by simp [ho]), hus.outside_append _ hclosing,
    outsideCalls_cons (by simp [hc])]

theorem Spells.group {e : Expr} (hus : Spells us e) (ho : o.kind = .lparen)
    (hc : c.kind = .rparen) : Spells (o :: (us ++ [c])) (.group o e c) where
  enclosed := hus.enclosed.parenthesised ho hc
  outside_append := by
    intro ts _
    have htokens : o :: (us ++ [c]) ++ ts = o :: (us ++ c :: ts) := by simp
    rw [htokens, hus.outsideCalls_group ho hc, hus.outsideCalls_group ho hc]
    simp [outsideCalls, outsideFrom]
  type_eq := by
    intro propagate
    rw [hus.outsideCalls_group ho hc, Expr.type, hus.type_eq]
    exact (ValueType.ofTokens_group ho hc propagate _).symm

theorem Spells.outsideCalls_binary {a : Expr} (hus : Spells us a) (ht : t.kind = .operator)
    (ts : List Token) :
    outsideCalls (us ++ t :: ts) = outsideCalls us ++ t :: outsideCalls ts := by
  have hstop : ∀ o ∈ (t :: ts).head?, o.kind ≠ .lparen := by simp [ht]
  rw [hus.outside_append _ hstop, outsideCalls_cons (by simp [ht])]

theorem Spells.binary {a b : Expr} (hus : Spells us a) (ht : t.kind = .operator)
    (hvs : Spells vs b) : Spells (us ++ t :: vs) (.binary a t b) where
  enclosed := hus.enclosed.append (hvs.enclosed.cons (by simp [ht]) (by simp [ht]))
  outside_append := by
    intro ts hts
    rw [List.append_assoc, List.cons_append, hus.outsideCalls_binary ht,
      hus.outsideCalls_binary ht, hvs.outside_append ts hts, List.append_assoc, List.cons_append]
  type_eq := by
    intro propagate
    rw [hus.outsideCalls_binary ht, Expr.type, hus.type_eq, hvs.type_eq,
      ValueType.ofTokens_binary ht]

end

/-! ## Readers -/

/-- The tokens are what a task reads. An expression goes on from those that have been read, and of
arguments only their parentheses count. -/
def Task.Spelled : Task → List Token → List Expr → Prop
  | chainFrom _ a, us, es => ∀ ps, Spells ps a → ∃ e, es = [e] ∧ Spells (ps ++ us) e
  | arguments, us, _ => Enclosed us
  | argumentsFrom, us, _ => Enclosed us
  | _, us, es => ∃ e, es = [e] ∧ Spells us e

theorem Reads.spells {fin : Token} {task : Task} {ts rest : List Token}
    {r : Except GrammarError (List Expr)} (h : Reads fin task ts r rest) {es : List Expr}
    (hr : r = .ok es) : ∃ us, ts = us ++ rest ∧ task.Spelled us es := by
  -- a chain grows to the left: the operand that has been read is joined with the next one
  induction h generalizing es with
  | chain_error => cases hr
  | chain_from _ _ ih ihmore =>
    obtain ⟨us, rfl, a, ha, hleft⟩ := ih rfl
    cases ha
    obtain ⟨vs, rfl, hmore⟩ := ihmore hr
    exact ⟨us ++ vs, by rw [List.append_assoc], hmore us hleft⟩
  | chain_end =>
    cases hr
    exact ⟨[], rfl, fun ps hps => ⟨_, rfl, by rwa [List.append_nil]⟩⟩
  | join_error => cases hr
  | @join_from l a b t ts mid rest r hjoin _ _ ih ihmore =>
    obtain ⟨us, rfl, b, hb, hright⟩ := ih rfl
    cases hb
    obtain ⟨vs, rfl, hmore⟩ := ihmore hr
    refine ⟨t :: (us ++ vs), by simp, ?_⟩
    intro ps hps
    have hjoined := hmore (ps ++ t :: us) (hps.binary (l.kind_of_joins hjoin) hright)
    simpa using hjoined
  | term _ ih => exact ih hr
  | factor _ ih => exact ih hr
  | no_factor => cases hr
  | @number t ts ht =>
    cases hr
    exact ⟨[t], rfl, _, rfl, spells_number ht⟩
  | @name t ts ht =>
    cases hr
    exact ⟨[t], rfl, _, rfl, spells_name ht⟩
  | @call_empty t o c ts ht ho hc =>
    cases hr
    exact ⟨[t, o, c], rfl, _, rfl, spells_call ht ho enclosed_nil hc []⟩
  | call_error => cases hr
  | @call t o c ts rest es ht ho _ _ hc ih =>
    cases hr
    obtain ⟨us, rfl, hinner⟩ := ih rfl
    exact ⟨t :: o :: (us ++ [c]), by simp, _, rfl, spells_call ht ho hinner hc es⟩
  | call_open => cases hr
  | group_error => cases hr
  | @group o c ts rest a ho _ hc ih =>
    cases hr
    obtain ⟨us, rfl, a, ha, hinner⟩ := ih rfl
    cases ha
    exact ⟨o :: (us ++ [c]), by simp, _, rfl, hinner.group ho hc⟩
  | group_open => cases hr
  | arguments_error => cases hr
  | arguments_from _ _ ih ihmore =>
    rcases map_eq_ok hr with ⟨es', rfl, rfl⟩
    obtain ⟨us, rfl, a, _, hfirst⟩ := ih rfl
    obtain ⟨vs, rfl, hmore⟩ := ihmore rfl
    exact ⟨us ++ vs, by rw [List.append_assoc], hfirst.enclosed.append hmore⟩
  | arguments_end =>
    cases hr
    exact ⟨[], rfl, enclosed_nil⟩
  | comma_error => cases hr
  | @comma_from t ts mid rest a r ht _ _ ih ihmore =>
    rcases map_eq_ok hr with ⟨es', rfl, rfl⟩
    obtain ⟨us, rfl, a, _, hnext⟩ := ih rfl
    obtain ⟨vs, rfl, hmore⟩ := ihmore rfl
    have hvs : Enclosed (us ++ vs) := hnext.enclosed.append hmore
    exact ⟨t :: (us ++ vs), by simp, hvs.cons (by simp [ht]) (by simp [ht])⟩

/-! ## Sessions -/

namespace Session

variable {s s' : Session}

/-- The tokens that the session has passed over when it stands where the other one does. -/
def passed (s s' : Session) : List Token :=
  (s.tokens.toList.drop s.index).take (s'.index - s.index)

/-- The session has passed over the tokens that are not left. -/
theorem passed_moveTo {us left : List Token} (h : s.rest = us ++ left) :
    (s.moveTo left).index = s.index + us.length ∧ s.passed (s.moveTo left) = us := by
  have hindex := index_moveTo_of_append h
  have hdrop : s.tokens.toList.drop s.index =
      us ++ (left ++ [s.tokens.last].drop (s.index - s.tokens.body.length)) := by
    rw [TokenSeq.toList, List.drop_append, ← List.append_assoc, ← h]
    rfl
  refine ⟨hindex, ?_⟩
  rw [passed, hindex, hdrop, Nat.add_sub_cancel_left, List.take_left]

/-- What a session reads as an expression is the tokens of one. -/
theorem exists_spells_of_perform {reply : Reply}
    (h : s.perform .expression = (.ok reply, s')) :
    ∃ e, reply = .argument (e.argument s.propagate) ∧ s'.index = s.index + (s.passed s').length ∧
      Spells (s.passed s') e := by
  obtain ⟨e, left, hreads, rfl, rfl⟩ := perform_expression_eq_ok_iff.mp h
  obtain ⟨us, hus, e', he, hspells⟩ := hreads.spells rfl
  cases he
  obtain ⟨hindex, hpassed⟩ := passed_moveTo hus
  rw [hpassed]
  exact ⟨e, rfl, hindex, hspells⟩

/-- The arguments of a statement are those that expressions make. -/
theorem exists_argument_of_mem_judge {b : Argument} (hb : b ∈ s.judge.1.arguments) :
    ∃ e : Expr, b = e.argument s.propagate := by
  have hmem : b ∈ s.tokens.attempt.draft.typedArguments s.propagate [] := by
    rw [judge, Attempt.outcome] at hb
    split at hb <;> exact hb
  rw [Draft.typedArguments] at hmem
  split at hmem
  · rcases List.mem_map.mp hmem with ⟨e, _, rfl⟩
    exact ⟨e, rfl⟩
  · cases hmem

/-- The type of an expression that is read is told by its tokens outside calls: by the numbers and
identifiers, and by whether there is an operator. So precedence, the order in which operations are
grouped and parentheses have no influence on it, and neither do the arguments of calls, which may be
any others. It is never the type of a string or a character, nor are those of a statement's
arguments. -/
theorem type_expression {a : Argument} (h : s.perform .expression = (.ok (.argument a), s')) :
    s'.index = s.index + (s.passed s').length ∧
      a.type = .ofTokens s.propagate (outsideCalls (s.passed s')) ∧
      (∀ (t t' : Session) (b : Argument), t.perform .expression = (.ok (.argument b), t') →
        t.propagate = s.propagate →
        (outsideCalls (t.passed t')).map Token.face = (outsideCalls (s.passed s')).map Token.face →
        b.type = a.type) ∧
      ∀ b ∈ a :: s.judge.1.arguments, b.type ≠ .string ∧ b.type ≠ .char := by
  obtain ⟨e, he, hindex, hspells⟩ := exists_spells_of_perform h
  cases he
  refine ⟨hindex, hspells.type_eq s.propagate, ?_, ?_⟩
  · intro t t' b ht hpropagate hfaces
    -- the other session reads another expression, but it has the same tokens outside calls
    obtain ⟨e', he', _, hspells'⟩ := exists_spells_of_perform ht
    cases he'
    have htype : e'.type t.propagate = .ofTokens t.propagate (outsideCalls (t.passed t')) :=
      hspells'.type_eq t.propagate
    rw [hpropagate, ValueType.ofTokens_congr hfaces, ← hspells.type_eq] at htype
    rw [Expr.argument, Expr.argument, hpropagate]
    exact htype
  · intro b hb
    obtain ⟨e', rfl⟩ : ∃ e' : Expr, b = e'.argument s.propagate := by
      -- every argument that a judgement keeps was read as an expression
      rcases List.mem_cons.mp hb with rfl | hb
      · exact ⟨e, rfl⟩
      · exact exists_argument_of_mem_judge hb
    exact e'.type_numeric s.propagate

/-- The tokens of `f(1.5)+(x)`. -/
def callInSum : TokenSeq where
  body := [⟨.identifier, "f", ⟨.ofIndex 1 0, .ofIndex 1 1⟩⟩,
    ⟨.lparen, "(", ⟨.ofIndex 1 1, .ofIndex 1 2⟩⟩,
    ⟨.number, "1.5", ⟨.ofIndex 1 2, .ofIndex 1 5⟩⟩,
    ⟨.rparen, ")", ⟨.ofIndex 1 5, .ofIndex 1 6⟩⟩,
    ⟨.operator, "+", ⟨.ofIndex 1 6, .ofIndex 1 7⟩⟩,
    ⟨.lparen, "(", ⟨.ofIndex 1 7, .ofIndex 1 8⟩⟩,
    ⟨.identifier, "x", ⟨.ofIndex 1 8, .ofIndex 1 9⟩⟩,
    ⟨.rparen, ")", ⟨.ofIndex 1 9, .ofIndex 1 10⟩⟩]
  last := .ended 1 10
  last_kind := rfl

/-- The sum is an integer: of the call only its name counts, and names are unknown. -/
theorem type_expression_callInSum : ∃ a s',
    (start false callInSum).perform .expression = (.ok (.argument a), s') ∧
      (outsideCalls ((start false callInSum).passed s')).map Token.text =
        ["f", "+", "(", "x", ")"] ∧ a.type = .integer := by
  have hreply : ((start false callInSum).perform .expression).1 =
      .ok (.argument ⟨.integer, ⟨.ofIndex 1 0, .ofIndex 1 10⟩⟩) := by decide +kernel
  have houtside : (outsideCalls ((start false callInSum).passed
      ((start false callInSum).perform .expression).2)).map Token.text =
        ["f", "+", "(", "x", ")"] := by decide +kernel
  have hread : (start false callInSum).perform .expression =
      (.ok (.argument ⟨.integer, ⟨.ofIndex 1 0, .ofIndex 1 10⟩⟩),
        ((start false callInSum).perform .expression).2) := Prod.ext hreply rfl
  obtain ⟨_, htype, _⟩ := type_expression hread
  refine ⟨_, _, hread, houtside, ?_⟩
  rw [htype]
  decide +kernel

end Session

end PrintfLint
