import Mathlib.Algebra.Order.Group.Int
import PrintfLint.Proofs.Statement.Judgement

/-!
# PrintfLint.Proofs.Statement.Depth — commas and the parentheses around them

* `depth` — how many parentheses some tokens leave open;
* `commasAt` — how many commas stand at a depth;
* `Level` — tokens that close what they open, with their commas outside of that;
* `Phrase.level` — phrases are such tokens, and their commas outside of parentheses separate the
  arguments;
* `IsStatement.commasAt_one` — each argument of a statement comes after a comma at depth one;
* `TokenSeq.length_arguments` — so the arguments of a sequence are counted by such commas.

Commas come after the literal, between arguments and between those of calls at any depth. A call or
a group is passed over as a whole, because what stands in it is deeper than the tokens around it.
-/

namespace PrintfLint

/-- How many parentheses the tokens open and do not close. -/
def depth (ts : List Token) : ℤ :=
  (ts.countP fun t => t.kind = .lparen : ℕ) - (ts.countP fun t => t.kind = .rparen : ℕ)

/-- How many commas come after tokens that leave `d` parentheses open. -/
def commasAt (d : ℤ) (ts : List Token) : ℕ :=
  ts.zipIdx.countP fun (t, i) => t.kind = .comma ∧ depth (ts.take i) = d

section

variable {o c t : Token} {us vs : List Token} {m n : ℕ}

/-! ## Counting -/

@[simp] theorem depth_nil : depth [] = 0 := rfl

theorem depth_append (us vs : List Token) : depth (us ++ vs) = depth us + depth vs := by
  unfold depth
  rw [List.countP_append, List.countP_append]
  omega

theorem depth_cons (t : Token) (ts : List Token) : depth (t :: ts) = depth [t] + depth ts :=
  depth_append [t] ts

theorem depth_opening (ho : o.kind = .lparen) : depth [o] = 1 := by
  simp [depth, ho]

theorem depth_closing (hc : c.kind = .rparen) : depth [c] = -1 := by
  simp [depth, hc]

theorem depth_other (ho : t.kind ≠ .lparen) (hc : t.kind ≠ .rparen) : depth [t] = 0 := by
  simp [depth, ho, hc]

@[simp] theorem commasAt_nil (d : ℤ) : commasAt d [] = 0 := rfl

/-- The commas of two parts; those of the second part are deeper by what the first leaves open. -/
theorem commasAt_append (d : ℤ) (us vs : List Token) :
    commasAt d (us ++ vs) = commasAt d us + commasAt (d - depth us) vs := by
  have hfirst : us.zipIdx.countP (fun (t, i) => t.kind = .comma ∧ depth ((us ++ vs).take i) = d) =
      commasAt d us := by
    apply List.countP_congr
    rintro ⟨t, i⟩ hmem
    have hi : i < us.length := by simpa using List.snd_lt_of_mem_zipIdx hmem
    simp only [List.take_append_of_le_length hi.le]
  have hsecond : (vs.zipIdx us.length).countP
      (fun (t, i) => t.kind = .comma ∧ depth ((us ++ vs).take i) = d) =
        commasAt (d - depth us) vs := by
    -- the count of the second part goes on where that of the first one ends
    have hcount : vs.zipIdx us.length = vs.zipIdx.map (Prod.map id (· + us.length)) := by
      rw [List.map_snd_add_zipIdx_eq_zipIdx, Nat.add_zero]
    rw [hcount, List.countP_map]
    apply List.countP_congr
    rintro ⟨t, i⟩ _
    have htake : (us ++ vs).take (i + us.length) = us ++ vs.take i := by
      rw [Nat.add_comm, List.take_length_add_append]
    have hdepth : depth us + depth (vs.take i) = d ↔ depth (vs.take i) = d - depth us := by
      omega
    simp only [Function.comp_apply, Prod.map_apply, id_eq, htake, depth_append, hdepth]
  rw [commasAt, List.zipIdx_append, List.countP_append, hfirst, Nat.zero_add, hsecond]

theorem commasAt_cons (d : ℤ) (t : Token) (ts : List Token) :
    commasAt d (t :: ts) = commasAt d [t] + commasAt (d - depth [t]) ts :=
  commasAt_append d [t] ts

theorem commasAt_comma (ht : t.kind = .comma) (d : ℤ) :
    commasAt d [t] = if d = 0 then 1 else 0 := by
  by_cases hd : d = 0
  · simp [commasAt, ht, hd]
  · simp [commasAt, ht, hd, Ne.symm hd]

theorem commasAt_eq_zero {ts : List Token} (h : ∀ t ∈ ts, t.kind ≠ .comma) (d : ℤ) :
    commasAt d ts = 0 := by
  unfold commasAt
  rw [List.countP_eq_zero]
  rintro ⟨t, i⟩ hmem
  have ht := h t (List.fst_mem_of_mem_zipIdx hmem)
  simp [ht]

theorem commasAt_other (ht : t.kind ≠ .comma) (d : ℤ) : commasAt d [t] = 0 :=
  commasAt_eq_zero (by simpa using ht) d

/-! ## Levels -/

/-- The tokens close what they open and nothing else, and have `n` commas outside of that. -/
structure Level (us : List Token) (n : ℕ) : Prop where
  depth_eq : depth us = 0
  commas_eq : commasAt 0 us = n
  commas_below : ∀ d < 0, commasAt d us = 0

theorem level_nil : Level [] 0 where
  depth_eq := depth_nil
  commas_eq := commasAt_nil 0
  commas_below := fun d _ => commasAt_nil d

theorem level_word (ho : t.kind ≠ .lparen) (hc : t.kind ≠ .rparen) (hm : t.kind ≠ .comma) :
    Level [t] 0 where
  depth_eq := depth_other ho hc
  commas_eq := commasAt_other hm 0
  commas_below := fun d _ => commasAt_other hm d

theorem level_comma (ht : t.kind = .comma) : Level [t] 1 where
  depth_eq := depth_other (by simp [ht]) (by simp [ht])
  commas_eq := commasAt_comma ht 0
  commas_below := by
    intro d hd
    rw [commasAt_comma ht, if_neg hd.ne]

theorem Level.append (hus : Level us m) (hvs : Level vs n) : Level (us ++ vs) (m + n) where
  depth_eq := by rw [depth_append, hus.depth_eq, hvs.depth_eq, add_zero]
  commas_eq := by rw [commasAt_append, hus.depth_eq, sub_zero, hus.commas_eq, hvs.commas_eq]
  commas_below := by
    intro d hd
    rw [commasAt_append, hus.depth_eq, sub_zero, hus.commas_below d hd, hvs.commas_below d hd]

theorem Level.cons_word (hvs : Level vs n) (ho : t.kind ≠ .lparen) (hc : t.kind ≠ .rparen)
    (hm : t.kind ≠ .comma) : Level (t :: vs) n := by
  have happend := (level_word ho hc hm).append hvs
  rwa [Nat.zero_add] at happend

/-- What is put in parentheses has its commas there. -/
theorem Level.parenthesised (hus : Level us n) (ho : o.kind = .lparen) (hc : c.kind = .rparen) :
    Level (o :: (us ++ [c])) 0 := by
  -- inside the parentheses the depth is one more, so no comma there is at this depth
  have hdeeper : ∀ d ≤ 0, commasAt d (o :: (us ++ [c])) = 0 := by
    intro d hd
    rw [commasAt_cons, commasAt_append, depth_opening ho, commasAt_other (by simp [ho]),
      commasAt_other (by simp [hc]), hus.commas_below (d - 1) (by omega)]
  constructor
  · rw [depth_cons, depth_append, depth_opening ho, hus.depth_eq, depth_closing hc]
    rfl
  · exact hdeeper 0 le_rfl
  · intro d hd
    exact hdeeper d hd.le

theorem Phrase.exprs_ne_nil {k : Category} {es : List Expr} (h : Phrase k us es) : es ≠ [] := by
  induction h with
  | term _ ih => exact ih
  | factor _ ih => exact ih
  | _ => exact List.cons_ne_nil _ _

/-- A phrase closes what it opens, and outside of that commas separate its arguments. -/
theorem Phrase.level {k : Category} {es : List Expr} (h : Phrase k us es) :
    Level us (es.length - 1) := by
  induction h with
  | single _ ih => exact ih
  | @join l us vs t a b _ ht _ ih ihright =>
    have hkind : t.kind = .operator := ht.1
    exact ih.append (ihright.cons_word (by simp [hkind]) (by simp [hkind]) (by simp [hkind]))
  | term _ ih => exact ih
  | factor _ ih => exact ih
  | number ht => exact level_word (by simp [ht]) (by simp [ht]) (by simp [ht])
  | name ht => exact level_word (by simp [ht]) (by simp [ht]) (by simp [ht])
  | call_empty ht ho hc =>
    exact (level_nil.parenthesised ho hc).cons_word (by simp [ht]) (by simp [ht]) (by simp [ht])
  | call ht ho _ hc ih =>
    exact (ih.parenthesised ho hc).cons_word (by simp [ht]) (by simp [ht]) (by simp [ht])
  | group ho _ hc ih => exact ih.parenthesised ho hc
  | last _ ih => exact ih
  | @comma t us vs a es _ ht hothers ih ihothers =>
    -- the comma makes up for the argument in front of it
    have hlist : Level (us ++ ([t] ++ vs)) (0 + (1 + (es.length - 1))) :=
      ih.append ((level_comma ht).append ihothers)
    have hpos := List.length_pos_of_ne_nil hothers.exprs_ne_nil
    have hcount : 0 + (1 + (es.length - 1)) = (a :: es).length - 1 := by
      rw [List.length_cons]
      omega
    rwa [hcount] at hlist

/-! ## Statements -/

namespace IsStatement

variable {ts : List Token} {literal : Token} {es : List Expr}

/-- The literal of a statement is its third token. -/
theorem getElem?_two (h : IsStatement ts literal es) : ts[2]? = some literal := by
  cases h <;> rfl

/-- Each argument of a statement comes after a comma in the outer parentheses. -/
theorem commasAt_one (h : IsStatement ts literal es) : commasAt 1 ts = es.length := by
  cases h with
  | bare hp ho ht hc hs he =>
    apply commasAt_eq_zero
    simp [hp, ho, ht, hc, hs, he]
  | @supplied p o _ m c s e us _ hp ho ht hm inner hc hs he =>
    have hpos := List.length_pos_of_ne_nil inner.exprs_ne_nil
    -- three tokens open the call, the list is at depth one, and three tokens end the statement
    have htokens : p :: o :: literal :: m :: (us ++ [c, s, e]) =
        [p, o, literal] ++ ([m] ++ (us ++ [c, s, e])) := rfl
    have hfront : depth [p, o, literal] = 1 := by simp [depth, hp, ho, ht]
    have hbefore : commasAt 1 [p, o, literal] = 0 :=
      commasAt_eq_zero (by simp [hp, ho, ht]) 1
    have hbehind : ∀ d, commasAt d [c, s, e] = 0 :=
      commasAt_eq_zero (by simp [hc, hs, he])
    have hlist : Level ([m] ++ us) (1 + (es.length - 1)) := (level_comma hm).append inner.level
    rw [htokens, commasAt_append, hbefore, hfront, sub_self, ← List.append_assoc,
      commasAt_append, hlist.commas_eq, hbehind]
    omega

end IsStatement

end

/-! ## Outcomes -/

namespace Specifier

theorem length_extractFrom (offset : ℕ) (cs : List Char) :
    (extractFrom offset cs).length = cs.count '%' := by
  induction cs generalizing offset with
  | nil => rfl
  | cons c cs ih =>
    rw [extractFrom]
    split
    · rename_i hc
      rw [List.length_cons, ih, hc, List.count_cons_self]
    · rename_i hc
      rw [ih, List.count_cons_of_ne hc]

/-- Each percent sign of a literal starts a directive. -/
theorem length_extract (literal : String) :
    (extract literal).length = literal.toList.count '%' :=
  length_extractFrom 0 literal.toList

end Specifier

namespace TokenSeq

variable {s : TokenSeq} {propagate : Bool} {literal : Token} {es : List Expr}

/-- The outcome of a statement is that of its directives and arguments. -/
theorem outcome_of_isStatement (h : IsStatement s.toList literal es) :
    s.outcome propagate = ⟨misfit? propagate literal es, Specifier.extract literal.text,
      es.map (Expr.argument propagate)⟩ := by
  have hattempt : s.attempt = ⟨⟨some literal, some es⟩, none, []⟩ :=
    attempt_of_isStatement s.last_kind h
  rw [outcome, hattempt]
  rfl

/-- Where the grammar is not at fault, there is a statement. -/
theorem exists_isStatement (hregular : ∀ t ∈ s.body, t.Regular)
    (h : (s.outcome propagate).kind? ≠ some .grammar) :
    ∃ literal es, IsStatement s.toList literal es := by
  have hattempts := s.attempts_attempt
  have hnone : s.attempt.error? = none := by
    by_contra herror
    exact h ((Attempt.kind?_eq_grammar_iff s.attempt propagate).mpr herror)
  obtain ⟨literal, es, hstatement, -⟩ := hattempts.isStatement hnone s.last_kind hregular
  exact ⟨literal, es, hstatement⟩

/-- Directives and arguments differ in number exactly if that is what is reported. -/
theorem misfit?_kind_eq_countMismatch_iff :
    (misfit? propagate literal es).map Problem.kind = some .countMismatch ↔
      ¬ Counted literal es := by
  constructor
  · intro hkind
    rcases Option.map_eq_some_iff.mp hkind with ⟨p, hp, hmismatch⟩
    rcases misfit?_kind hp with ⟨-, hcount⟩ | ⟨htype, -⟩
    · exact hcount
    · rw [hmismatch] at htype
      cases htype
  · intro hcount
    rw [misfit?_of_not_counted hcount]
    rfl

/-- A sequence in which the grammar finds no fault has as many arguments as it has commas at depth
one, however deep the commas of calls are nested in them. So its arguments are found to be too many
or too few exactly if these commas differ in number from the percent signs of its third token. -/
theorem length_arguments (hregular : ∀ t ∈ s.body, t.Regular)
    (h : (s.outcome propagate).kind? ≠ some .grammar) :
    (s.outcome propagate).arguments.length = commasAt 1 s.toList ∧
      ∃ t, s.toList[2]? = some t ∧
        ((s.outcome propagate).kind? = some .countMismatch ↔
          commasAt 1 s.toList ≠ t.text.toList.count '%') := by
  obtain ⟨literal, es, hstatement⟩ := exists_isStatement hregular h
  rw [outcome_of_isStatement hstatement, hstatement.commasAt_one]
  refine ⟨List.length_map _, literal, hstatement.getElem?_two, ?_⟩
  unfold Outcome.kind?
  rw [misfit?_kind_eq_countMismatch_iff, Counted, Specifier.length_extract, ne_comm]

/-- The tokens of `printf("%d", f(1, (2)), 5);`. -/
def callsInCalls : TokenSeq where
  body := [⟨.printf, "printf", ⟨.ofIndex 1 0, .ofIndex 1 6⟩⟩,
    ⟨.lparen, "(", ⟨.ofIndex 1 6, .ofIndex 1 7⟩⟩,
    ⟨.literal, "\"%d\"", ⟨.ofIndex 1 7, .ofIndex 1 11⟩⟩,
    ⟨.comma, ",", ⟨.ofIndex 1 11, .ofIndex 1 12⟩⟩,
    ⟨.identifier, "f", ⟨.ofIndex 1 13, .ofIndex 1 14⟩⟩,
    ⟨.lparen, "(", ⟨.ofIndex 1 14, .ofIndex 1 15⟩⟩,
    ⟨.number, "1", ⟨.ofIndex 1 15, .ofIndex 1 16⟩⟩,
    ⟨.comma, ",", ⟨.ofIndex 1 16, .ofIndex 1 17⟩⟩,
    ⟨.lparen, "(", ⟨.ofIndex 1 18, .ofIndex 1 19⟩⟩,
    ⟨.number, "2", ⟨.ofIndex 1 19, .ofIndex 1 20⟩⟩,
    ⟨.rparen, ")", ⟨.ofIndex 1 20, .ofIndex 1 21⟩⟩,
    ⟨.rparen, ")", ⟨.ofIndex 1 21, .ofIndex 1 22⟩⟩,
    ⟨.comma, ",", ⟨.ofIndex 1 22, .ofIndex 1 23⟩⟩,
    ⟨.number, "5", ⟨.ofIndex 1 24, .ofIndex 1 25⟩⟩,
    ⟨.rparen, ")", ⟨.ofIndex 1 25, .ofIndex 1 26⟩⟩,
    ⟨.semicolon, ";", ⟨.ofIndex 1 26, .ofIndex 1 27⟩⟩]
  last := .ended 1 27
  last_kind := rfl

/-- The comma in the call does not count, so there are two arguments for one directive. -/
theorem length_arguments_callsInCalls :
    callsInCalls.body.countP (fun t => t.kind = .comma) = 3 ∧
      (callsInCalls.outcome false).arguments.length = 2 ∧
      (callsInCalls.outcome false).kind? = some .countMismatch := by
  have hs : ofLine {} "printf(\"%d\", f(1, (2)), 5);" 1 = .ok callsInCalls := by decide +kernel
  have hkind : (callsInCalls.outcome false).kind? ≠ some .grammar := by decide +kernel
  have hcommas : commasAt 1 callsInCalls.toList = 2 := by decide +kernel
  obtain ⟨hcount, t, ht, hmismatch⟩ :=
    length_arguments (fun t ht => regular_of_ofLine hs ht) hkind
  rw [hcommas] at hcount hmismatch
  refine ⟨by decide +kernel, hcount, hmismatch.mpr ?_⟩
  cases ht
  decide

end TokenSeq

end PrintfLint
