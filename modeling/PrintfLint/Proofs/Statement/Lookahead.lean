import PrintfLint.Proofs.Statement.Attempt

/-!
# PrintfLint.Proofs.Statement.Lookahead — one token of lookahead

* `Reads.lookahead`, `Attempts.lookahead` — what is read depends on the tokens that are passed over
  and on the next one, and not on those behind it;
* `Attempt.statement_lookahead` — the same for the reader of statements.

The next token counts, because it may go on with what has been read or be the one that an error
names.
-/

namespace PrintfLint

variable {fin : Token}

section

variable {rest rest' : List Token}

/-- With other tokens behind the next one, the token in front stays the same. -/
theorem head?_append_eq (us : List Token) (h : rest'.head? = rest.head?) :
    (us ++ rest').head? = (us ++ rest).head? := by
  rw [List.head?_append, List.head?_append, h]

theorem headD_eq (h : rest'.head? = rest.head?) : rest'.headD fin = rest.headD fin := by
  rw [List.headD_eq_head?_getD, List.headD_eq_head?_getD, h]

/-- A condition on the token in front stays true. -/
theorem forall_head?_eq {q : Token → Prop} (h : rest'.head? = rest.head?)
    (hq : ∀ t ∈ rest.head?, q t) : ∀ t ∈ rest'.head?, q t := by
  rwa [h]

theorem forall_head?_append {q : Token → Prop} {us : List Token} (h : rest'.head? = rest.head?)
    (hq : ∀ t ∈ (us ++ rest).head?, q t) : ∀ t ∈ (us ++ rest').head?, q t :=
  forall_head?_eq (head?_append_eq us h) hq

end

/-- What is read stays the same with other tokens behind the next one. -/
theorem Reads.lookahead {task : Task} {ts rest : List Token}
    {r : Except GrammarError (List Expr)} (h : Reads fin task ts r rest) :
    ∃ us, ts = us ++ rest ∧
      ∀ rest', rest'.head? = rest.head? → Reads fin task (us ++ rest') r rest' := by
  -- where one reader follows another, the tokens of the second are the rest of the first
  induction h with
  | chain_error _ ih =>
    rcases ih with ⟨us, rfl, hread⟩
    exact ⟨us, rfl, fun rest' hhead => .chain_error (hread rest' hhead)⟩
  | chain_from _ _ ih ihmore =>
    rcases ihmore with ⟨vs, rfl, hmore⟩
    rcases ih with ⟨us, rfl, hread⟩
    refine ⟨us ++ vs, by rw [List.append_assoc], ?_⟩
    intro rest' hhead
    rw [List.append_assoc]
    exact .chain_from (hread _ (head?_append_eq vs hhead)) (hmore rest' hhead)
  | chain_end hstop =>
    refine ⟨[], rfl, ?_⟩
    intro rest' hhead
    exact .chain_end (forall_head?_eq hhead hstop)
  | @join_error l a t ts rest e hjoin _ ih =>
    rcases ih with ⟨us, rfl, hread⟩
    exact ⟨t :: us, rfl, fun rest' hhead => .join_error hjoin (hread rest' hhead)⟩
  | @join_from l a b t ts mid rest r hjoin _ _ ih ihmore =>
    rcases ihmore with ⟨vs, rfl, hmore⟩
    rcases ih with ⟨us, rfl, hread⟩
    refine ⟨t :: (us ++ vs), by simp, ?_⟩
    intro rest' hhead
    rw [List.cons_append, List.append_assoc]
    exact .join_from hjoin (hread _ (head?_append_eq vs hhead)) (hmore rest' hhead)
  | term _ ih =>
    rcases ih with ⟨us, rfl, hread⟩
    exact ⟨us, rfl, fun rest' hhead => .term (hread rest' hhead)⟩
  | factor _ ih =>
    rcases ih with ⟨us, rfl, hread⟩
    exact ⟨us, rfl, fun rest' hhead => .factor (hread rest' hhead)⟩
  | no_factor hfound =>
    refine ⟨[], rfl, ?_⟩
    intro rest' hhead
    rw [← headD_eq hhead]
    exact .no_factor (forall_head?_eq hhead hfound)
  | @number t ts ht => exact ⟨[t], rfl, fun rest' _ => .number ht⟩
  | @name t ts ht hstop =>
    refine ⟨[t], rfl, ?_⟩
    intro rest' hhead
    exact .name ht (forall_head?_eq hhead hstop)
  | @call_empty t o c ts ht ho hc =>
    exact ⟨[t, o, c], rfl, fun rest' _ => .call_empty ht ho hc⟩
  | @call_error t o ts rest e ht ho hargs _ ih =>
    rcases ih with ⟨us, rfl, hread⟩
    refine ⟨t :: o :: us, rfl, ?_⟩
    intro rest' hhead
    exact .call_error ht ho (forall_head?_append hhead hargs) (hread rest' hhead)
  | @call t o c ts rest es ht ho hargs _ hc ih =>
    rcases ih with ⟨us, rfl, hread⟩
    refine ⟨t :: o :: (us ++ [c]), by simp, ?_⟩
    intro rest' _
    have hhead : (c :: rest').head? = (c :: rest).head? := rfl
    have htokens : t :: o :: (us ++ [c]) ++ rest' = t :: o :: (us ++ c :: rest') := by simp
    rw [htokens]
    exact .call ht ho (forall_head?_append hhead hargs) (hread (c :: rest') hhead) hc
  | @call_open t o ts rest es ht ho hargs _ hc ih =>
    rcases ih with ⟨us, rfl, hread⟩
    refine ⟨t :: o :: us, rfl, ?_⟩
    intro rest' hhead
    rw [← headD_eq hhead]
    exact .call_open ht ho (forall_head?_append hhead hargs) (hread rest' hhead)
      (forall_head?_eq hhead hc)
  | @group_error o ts rest e ho _ ih =>
    rcases ih with ⟨us, rfl, hread⟩
    exact ⟨o :: us, rfl, fun rest' hhead => .group_error ho (hread rest' hhead)⟩
  | @group o c ts rest a ho _ hc ih =>
    rcases ih with ⟨us, rfl, hread⟩
    refine ⟨o :: (us ++ [c]), by simp, ?_⟩
    intro rest' _
    have htokens : o :: (us ++ [c]) ++ rest' = o :: (us ++ c :: rest') := by simp
    rw [htokens]
    exact .group ho (hread (c :: rest') rfl) hc
  | @group_open o ts rest a ho _ hc ih =>
    rcases ih with ⟨us, rfl, hread⟩
    refine ⟨o :: us, rfl, ?_⟩
    intro rest' hhead
    rw [← headD_eq hhead]
    exact .group_open ho (hread rest' hhead) (forall_head?_eq hhead hc)
  | arguments_error _ ih =>
    rcases ih with ⟨us, rfl, hread⟩
    exact ⟨us, rfl, fun rest' hhead => .arguments_error (hread rest' hhead)⟩
  | arguments_from _ _ ih ihmore =>
    rcases ihmore with ⟨vs, rfl, hmore⟩
    rcases ih with ⟨us, rfl, hread⟩
    refine ⟨us ++ vs, by rw [List.append_assoc], ?_⟩
    intro rest' hhead
    rw [List.append_assoc]
    exact .arguments_from (hread _ (head?_append_eq vs hhead)) (hmore rest' hhead)
  | arguments_end hstop =>
    refine ⟨[], rfl, ?_⟩
    intro rest' hhead
    exact .arguments_end (forall_head?_eq hhead hstop)
  | @comma_error t ts rest e ht _ ih =>
    rcases ih with ⟨us, rfl, hread⟩
    exact ⟨t :: us, rfl, fun rest' hhead => .comma_error ht (hread rest' hhead)⟩
  | @comma_from t ts mid rest a r ht _ _ ih ihmore =>
    rcases ihmore with ⟨vs, rfl, hmore⟩
    rcases ih with ⟨us, rfl, hread⟩
    refine ⟨t :: (us ++ vs), by simp, ?_⟩
    intro rest' hhead
    rw [List.cons_append, List.append_assoc]
    exact .comma_from ht (hread _ (head?_append_eq vs hhead)) (hmore rest' hhead)

theorem Expects.lookahead {ks : List Kind} {ts rest : List Token} {e : Option GrammarError}
    (h : Expects fin ks ts e rest) :
    ∃ us, ts = us ++ rest ∧
      ∀ rest', rest'.head? = rest.head? → Expects fin ks (us ++ rest') e rest' := by
  induction h with
  | nil => exact ⟨[], rfl, fun rest' _ => .nil⟩
  | @cons k ks t ts rest e ht _ ih =>
    rcases ih with ⟨us, rfl, hread⟩
    exact ⟨t :: us, rfl, fun rest' hhead => .cons ht (hread rest' hhead)⟩
  | missing hne =>
    refine ⟨[], rfl, ?_⟩
    intro rest' hhead
    rw [← headD_eq hhead]
    exact .missing (forall_head?_eq hhead hne)

theorem BodyReads.lookahead {ts : List Token} {a : Attempt} (h : BodyReads fin ts a) :
    ∃ us, ts = us ++ a.rest ∧
      ∀ rest', rest'.head? = a.rest.head? →
        BodyReads fin (us ++ rest') { a with rest := rest' } := by
  -- the body stops at the literal, behind it, or where its arguments stop
  cases h with
  | no_literal hne =>
    refine ⟨[], rfl, ?_⟩
    intro rest' hhead
    rw [← headD_eq hhead]
    exact .no_literal (forall_head?_eq hhead hne)
  | @bare t ts ht hstop =>
    refine ⟨[t], rfl, ?_⟩
    intro rest' hhead
    exact .bare ht (forall_head?_eq hhead hstop)
  | @arguments_error t m _ _ _ ht hm inner =>
    rcases inner.lookahead with ⟨us, rfl, hread⟩
    exact ⟨t :: m :: us, rfl, fun rest' hhead => .arguments_error ht hm (hread rest' hhead)⟩
  | @supplied t m _ _ _ ht hm inner =>
    rcases inner.lookahead with ⟨us, rfl, hread⟩
    exact ⟨t :: m :: us, rfl, fun rest' hhead => .supplied ht hm (hread rest' hhead)⟩

/-- What stands before the body, the body and what stands after it. -/
theorem lookahead_parts {ks ks' : List Kind} {ts mid rest : List Token} {inner : Attempt}
    {e : Option GrammarError} (before : Expects fin ks ts none mid)
    (body : BodyReads fin mid inner) (after : Expects fin ks' inner.rest e rest) :
    ∃ us, ts = us ++ rest ∧ ∀ rest', rest'.head? = rest.head? →
      ∃ mid' left, Expects fin ks (us ++ rest') none mid' ∧
        BodyReads fin mid' { inner with rest := left } ∧ Expects fin ks' left e rest' := by
  -- from behind to the front, because what a part stops at is the start of the next one
  rcases after.lookahead with ⟨ws, hws, hafter⟩
  rcases body.lookahead with ⟨vs, rfl, hbody⟩
  rcases before.lookahead with ⟨us, rfl, hbefore⟩
  refine ⟨us ++ (vs ++ ws), by simp [hws], ?_⟩
  intro rest' hhead
  have hleft : (ws ++ rest').head? = inner.rest.head? := by rw [hws, head?_append_eq ws hhead]
  refine ⟨vs ++ (ws ++ rest'), ws ++ rest', ?_, hbody _ hleft, hafter rest' hhead⟩
  rw [List.append_assoc, List.append_assoc]
  exact hbefore _ (head?_append_eq vs hleft)

/-- An attempt comes to the same with other tokens behind the one where it stops. -/
theorem Attempts.lookahead {ts : List Token} {a : Attempt} (h : Attempts fin ts a) :
    ∃ us, ts = us ++ a.rest ∧
      ∀ rest', rest'.head? = a.rest.head? →
        Attempts fin (us ++ rest') { a with rest := rest' } := by
  cases h with
  | opening before =>
    rcases before.lookahead with ⟨us, rfl, hbefore⟩
    exact ⟨us, rfl, fun rest' hhead => .opening (hbefore rest' hhead)⟩
  | body_error before body he =>
    rcases body.lookahead with ⟨vs, rfl, hbody⟩
    rcases before.lookahead with ⟨us, rfl, hbefore⟩
    refine ⟨us ++ vs, by rw [List.append_assoc], ?_⟩
    intro rest' hhead
    rw [List.append_assoc]
    exact .body_error (hbefore _ (head?_append_eq vs hhead)) (hbody rest' hhead) he
  | closing before body hnone after =>
    rcases lookahead_parts before body after with ⟨us, rfl, hparts⟩
    refine ⟨us, rfl, ?_⟩
    intro rest' hhead
    rcases hparts rest' hhead with ⟨mid', left, hbefore, hbody, hafter⟩
    have hread := Attempts.closing hbefore hbody hnone hafter
    exact hread
  | @trailing mid rest inner t before body hnone after ht =>
    rcases lookahead_parts before body after with ⟨us, rfl, hparts⟩
    refine ⟨us, rfl, ?_⟩
    intro rest' hhead
    -- the token behind the statement is given, so the others start with it too
    rcases List.head?_eq_some_iff.mp hhead with ⟨tail, rfl⟩
    rcases hparts (t :: tail) rfl with ⟨mid', left, hbefore, hbody, hafter⟩
    have hread := Attempts.trailing hbefore hbody hnone hafter ht
    exact hread
  | done before body hnone after hend =>
    rcases lookahead_parts before body after with ⟨us, rfl, hparts⟩
    refine ⟨us, rfl, ?_⟩
    intro rest' hhead
    rcases hparts rest' hhead with ⟨mid', left, hbefore, hbody, hafter⟩
    have hread := Attempts.done hbefore hbody hnone hafter (forall_head?_eq hhead hend)
    exact hread

/-- The reading of a statement depends on the tokens that it passes over and on the next one. -/
theorem Attempt.statement_lookahead (hfin : fin.kind = .endOfInput) (ts : List Token) :
    ∃ us, ts = us ++ (statement fin ts).rest ∧
      ∀ rest', rest'.head? = (statement fin ts).rest.head? →
        statement fin (us ++ rest') = { statement fin ts with rest := rest' } := by
  rcases (attempts_statement hfin ts).lookahead with ⟨us, hus, hread⟩
  exact ⟨us, hus, fun rest' hhead => (hread rest' hhead).statement_eq hfin⟩

end PrintfLint
