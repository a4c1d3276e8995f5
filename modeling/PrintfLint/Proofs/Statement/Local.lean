import PrintfLint.Proofs.Statement.Ebnf
import PrintfLint.Proofs.Statement.Extent
import PrintfLint.Proofs.Statement.Session
import PrintfLint.Proofs.Statement.Stop

/-!
# PrintfLint.Proofs.Statement.Local — what is read from one place of a sequence

* `TokenSeq.between` — the tokens from one index up to another;
* `TokenSeq.Extent` — these tokens are derived from a category, which the next one does not go on
  with;
* `TokenSeq.extent_iff` — such an extent is that of a phrase that ends there;
* `TokenSeq.Spanned`, `TokenSeq.Elements` — what is answered for an extent;
* `Session.perform_part_iff` — a command that reads a category reads the extent at its place, if
  there is one, and fails otherwise.

It is not the longest phrase that is read: from `x (` nothing is, although `x` is an expression. The
single token behind a phrase decides whether it is read.
-/

namespace PrintfLint

/-! ## Places in a sequence -/

namespace TokenSeq

variable {s : TokenSeq} {i j : ℕ} {us left : List Token}

/-- The tokens from one index up to another. -/
def between (s : TokenSeq) (i j : ℕ) : List Token :=
  (s.toList.drop i).take (j - i)

theorem drop_toList (h : i ≤ s.body.length) : s.toList.drop i = s.body.drop i ++ [s.last] :=
  List.drop_append_of_le_length h

theorem between_of_drop (h : s.toList.drop i = us ++ left) : s.between i (i + us.length) = us := by
  rw [between, h, Nat.add_sub_cancel_left, List.take_left]

theorem getElem?_start (h : s.toList.drop i = us ++ left) (hus : us ≠ []) :
    s.toList[i]? = us.head? := by
  rw [← List.head?_drop, h, List.head?_append_of_ne_nil _ hus]

theorem getElem?_stop (h : s.toList.drop i = us ++ left) (hus : us ≠ []) :
    s.toList[i + us.length - 1]? = us.getLast? := by
  have hpos := List.length_pos_iff.mpr hus
  have hindex : i + us.length - 1 = i + (us.length - 1) := by omega
  rw [hindex, ← List.getElem?_drop, h, List.getElem?_append_left (by omega),
    List.getLast?_eq_getElem?]

/-- Tokens without the end of input are tokens before the last one. -/
theorem drop_body_of_between (hne : s.between i j ≠ [])
    (hkind : ∀ t ∈ s.between i j, t.kind ≠ .endOfInput) :
    s.body.drop i = s.between i j ++ s.body.drop j ∧ j = i + (s.between i j).length ∧
      j ≤ s.body.length := by
  have hlength : s.toList.length = s.body.length + 1 := by simp [toList]
  have hi : i ≤ s.body.length := by
    by_contra hi
    exact hne (by rw [between, List.drop_of_length_le (by omega), List.take_nil])
  have hij : i < j := by
    by_contra hij
    exact hne (by rw [between, Nat.sub_eq_zero_of_le (by omega), List.take_zero])
  have hdrop := drop_toList hi
  have hj : j ≤ s.body.length := by
    -- any more tokens would be all that are left, with the end of input among them
    by_contra hj
    refine hkind s.last ?_ s.last_kind
    rw [between, List.take_of_length_le (by rw [List.length_drop]; omega), hdrop]
    exact List.mem_append_right _ (List.mem_singleton_self _)
  have hbetween : s.between i j = (s.body.drop i).take (j - i) := by
    rw [between, hdrop, List.take_append_of_le_length (by rw [List.length_drop]; omega)]
  refine ⟨?_, ?_, hj⟩
  · have hsplit := (List.take_append_drop (j - i) (s.body.drop i)).symm
    rwa [List.drop_drop, Nat.add_sub_cancel' hij.le, ← hbetween] at hsplit
  · rw [hbetween, List.length_take, List.length_drop]
    omega

/-- The token at an index is the next one before the last one, or the last one. -/
theorem forall_getElem?_iff {P : Token → Prop} (hj : j ≤ s.body.length) (hlast : P s.last) :
    (∀ t ∈ s.toList[j]?, P t) ↔ ∀ t ∈ (s.body.drop j).head?, P t := by
  rw [List.head?_drop, toList]
  rcases hj.lt_or_eq with hlt | rfl
  · rw [List.getElem?_append_left hlt]
  · simp [hlast]

end TokenSeq

/-! ## What is read from a place -/

/-- The category does not go on with the token: it is no operator that can come behind an operand in
it, and behind an argument no comma. -/
def Category.StopsBefore : Category → Token → Prop
  | chain .sum, t => t.kind ≠ .operator
  | chain .product, t => ¬ (t.kind = .operator ∧ t.text ∈ ["*", "/"])
  | operand .sum, t => ¬ (t.kind = .operator ∧ t.text ∈ ["*", "/"])
  | operand .product, _ => True
  | factor, _ => True
  | arguments, t => t.kind ≠ .operator ∧ t.kind ≠ .comma

theorem Token.Signed.joins_iff {t : Token} (ht : t.Signed) {l : Precedence} :
    l.joins t = true ↔ t.IsSign l :=
  ⟨ht.isSign, Token.IsSign.joins⟩

theorem Token.Signed.isSign_or_isSign {t : Token} (ht : t.Signed) (hkind : t.kind = .operator) :
    t.IsSign .sum ∨ t.IsSign .product := by
  have htext := ht hkind
  simp only [IsSign, hkind, true_and, Precedence.signs]
  simpa [or_assoc] using htext

/-- Among the four operators, the readers go on with just those that a category knows of. -/
theorem Category.stopsBefore_iff {k : Category} {t : Token} (ht : t.Signed) :
    k.StopsBefore t ↔ k.goesOn t = false := by
  -- a sum goes on with every operator, since there are none but the four
  have hsum : (t.kind ≠ .operator) ↔
      (Precedence.sum.joins t || Precedence.product.joins t) = false := by
    rw [← Bool.not_eq_true, Bool.or_eq_true, ht.joins_iff, ht.joins_iff, not_iff_not]
    exact ⟨ht.isSign_or_isSign, fun h => h.elim And.left And.left⟩
  have hproduct : ¬ t.IsSign .product ↔ Precedence.product.joins t = false := by
    rw [← Bool.not_eq_true, ht.joins_iff]
  cases k with
  | chain l => cases l with
    | sum => exact hsum
    | product => exact hproduct
  | operand l => cases l with
    | sum => exact hproduct
    | product => exact iff_of_true trivial rfl
  | factor => exact iff_of_true trivial rfl
  | arguments =>
    simp only [StopsBefore, goesOn, hsum, Bool.or_eq_false_iff, decide_eq_false_iff_not]

namespace TokenSeq

variable {s : TokenSeq} {k : Category} {i j : ℕ} {us left : List Token}

/-- The tokens from `i` up to `j` are derived from the category, and what comes next does not go on
with them. -/
structure Extent (s : TokenSeq) (k : Category) (i j : ℕ) : Prop where
  derives : k.Derives (s.between i j)
  /-- The next token is no operator or comma that the category can go on with. -/
  stops : ∀ t ∈ s.toList[j]?, k.StopsBefore t
  /-- The next token does not make a call of a name. -/
  uncalled : ∀ o ∈ s.toList[j]?, o.kind = .lparen →
    ∀ t ∈ s.toList[j - 1]?, t.kind ≠ .identifier

/-- Tokens that are there before the last one, and what comes after them. -/
theorem split_of_drop_body (h : s.body.drop i = us ++ left) (hus : us ≠ []) :
    s.toList.drop i = us ++ (left ++ [s.last]) ∧ i + us.length ≤ s.body.length ∧
      s.body.drop (i + us.length) = left := by
  have hpos := List.length_pos_iff.mpr hus
  have hlength := congrArg List.length h
  rw [List.length_drop, List.length_append] at hlength
  refine ⟨?_, by omega, ?_⟩
  · rw [drop_toList (by omega), h, List.append_assoc]
  · rw [← List.drop_drop, h, List.drop_left]

/-- A phrase ends before what is left exactly if the token behind it lets it. -/
theorem ends_iff (hsigned : ∀ t ∈ s.toList, t.Signed) (h : s.body.drop i = us ++ left)
    (hus : us ≠ []) :
    k.Ends us left ↔ (∀ t ∈ s.toList[i + us.length]?, k.StopsBefore t) ∧
      ∀ o ∈ s.toList[i + us.length]?, o.kind = .lparen →
        ∀ t ∈ s.toList[i + us.length - 1]?, t.kind ≠ .identifier := by
  obtain ⟨hdrop, hle, hleft⟩ := split_of_drop_body h hus
  -- the token behind the phrase may be the last one, which stops every category and opens no call
  have hlast : s.last.Signed := fun hkind => by simp [s.last_kind] at hkind
  have hstop : k.StopsBefore s.last := by
    rw [Category.stopsBefore_iff hlast]
    exact k.goesOn_eq_false (by simp [s.last_kind]) (by simp [s.last_kind])
  have hmem : ∀ t ∈ left.head?, t.Signed := by
    intro t ht
    have htail : t ∈ s.toList.drop i := by simp [hdrop, List.mem_of_mem_head? ht]
    exact hsigned t (List.mem_of_mem_drop htail)
  rw [forall_getElem?_iff hle hstop, forall_getElem?_iff hle (by simp [s.last_kind]), hleft,
    getElem?_stop hdrop hus]
  -- one side speaks of the token in front of what is left, the other of its index in the line
  constructor
  · intro hends
    refine ⟨fun t ht => ?_, fun o ho hkind t ht htkind => hends.uncalled t ht o ho htkind hkind⟩
    exact (Category.stopsBefore_iff (hmem t ht)).mpr (hends.goesOn_eq_false t ht)
  · rintro ⟨hstops, huncalled⟩
    refine ⟨fun t ht => ?_, fun t ht o ho htkind hkind => huncalled o ho hkind t ht htkind⟩
    exact (Category.stopsBefore_iff (hmem t ht)).mp (hstops t ht)

/-- What has an extent is a phrase that ends before what is left. -/
theorem extent_iff (hsigned : ∀ t ∈ s.toList, t.Signed) :
    s.Extent k i j ↔ ∃ us es left, s.body.drop i = us ++ left ∧ Phrase k us es ∧ k.Ends us left ∧
      j = i + us.length := by
  constructor
  · -- what lies between the two indices is the phrase, and what is behind them the rest
    rintro ⟨hderives, hstops, huncalled⟩
    obtain ⟨es, hphrase⟩ := Category.derives_iff.mp hderives
    obtain ⟨hdrop, hj, -⟩ := drop_body_of_between hphrase.ne_nil hphrase.kind_ne
    rw [hj] at hstops huncalled
    exact ⟨_, es, _, hdrop, hphrase, (ends_iff hsigned hdrop hphrase.ne_nil).mpr
      ⟨hstops, huncalled⟩, hj⟩
  · rintro ⟨us, es, left, hdrop, hphrase, hends, rfl⟩
    have hall := (split_of_drop_body hdrop hphrase.ne_nil).1
    obtain ⟨hstops, huncalled⟩ := (ends_iff hsigned hdrop hphrase.ne_nil).mp hends
    refine ⟨?_, hstops, huncalled⟩
    rw [between_of_drop hall]
    exact hphrase.derives

/-! ## Answers -/

/-- The span goes from the start of the token at `i` to the end of the one before `j`. -/
structure Spanned (s : TokenSeq) (i j : ℕ) (span : Span) : Prop where
  start_eq : s.toList[i]?.map (fun t => t.span.start) = some span.start
  stop_eq : s.toList[j - 1]?.map (fun t => t.span.stop) = some span.stop

/-- From `i` up to `j` there are expressions with commas between them, one for each argument. -/
inductive Elements (s : TokenSeq) : ℕ → ℕ → List Argument → Prop where
  | last {i j : ℕ} {a : Argument} (derives : (Category.chain .sum).Derives (s.between i j))
      (spanned : s.Spanned i j a.span) : Elements s i j [a]
  | comma {i m j : ℕ} {t : Token} {a : Argument} {as : List Argument}
      (derives : (Category.chain .sum).Derives (s.between i m)) (spanned : s.Spanned i m a.span)
      (hm : s.toList[m]? = some t) (ht : t.kind = .comma) (others : Elements s (m + 1) j as) :
      Elements s i j (a :: as)

theorem spanned_of_spans {span : Span} (h : s.toList.drop i = us ++ left) (hus : us ≠ [])
    (hspans : Spans us span) : s.Spanned i (i + us.length) span := by
  refine ⟨?_, ?_⟩
  · rw [getElem?_start h hus, hspans.start_eq]
  · rw [getElem?_stop h hus, hspans.stop_eq]

/-- The expressions of a list of arguments are its elements. -/
theorem elements_of_phrase {es : List Expr} (propagate : Bool) (h : Phrase .arguments us es)
    (hdrop : s.toList.drop i = us ++ left) :
    s.Elements i (i + us.length) (es.map (Expr.argument propagate)) := by
  generalize hk : Category.arguments = k at h
  -- each element is a phrase of its own, and the next one starts two places behind the end of it
  induction h generalizing i with
  | @last us a only =>
    refine .last ?_ (spanned_of_spans hdrop only.ne_nil (only.spans rfl))
    rw [between_of_drop hdrop]
    exact only.derives
  | @comma t us vs a es first ht others _ ih =>
    rw [List.append_assoc, List.cons_append] at hdrop
    -- the comma and what follows it, by their places
    have hcomma : s.toList.drop (i + us.length) = t :: (vs ++ left) := by
      rw [← List.drop_drop, hdrop, List.drop_left]
    have hothers : s.toList.drop (i + us.length + 1) = vs ++ left := by
      rw [← List.drop_drop, hcomma, List.drop_one, List.tail_cons]
    have hj : i + (us ++ t :: vs).length = i + us.length + 1 + vs.length := by
      rw [List.length_append, List.length_cons]
      omega
    rw [hj]
    refine .comma ?_ (spanned_of_spans hdrop first.ne_nil (first.spans rfl)) ?_ ht (ih hothers rfl)
    · rw [between_of_drop hdrop]
      exact first.derives
    · rw [← List.head?_drop, hcomma, List.head?_cons]
  | _ => cases hk

/-- What is answered for an extent: its span, or the elements of a list. -/
def Answers (s : TokenSeq) (i j : ℕ) : Category → Session.Reply → Prop
  | .arguments, reply => ∃ as, reply = .arguments as ∧ s.Elements i j as
  | _, reply => ∃ a, reply = .argument a ∧ s.Spanned i j a.span

end TokenSeq

/-! ## Commands -/

namespace Session

variable {s s' : Session} {c : Command} {k : Category} {reply : Reply}

/-- The category that a command reads. -/
def Command.category? : Command → Option Category
  | expression => some (.chain .sum)
  | term => some (.chain .product)
  | factor => some .factor
  | arguments => some .arguments
  | _ => none

/-- The answer with the expressions of a phrase. -/
def answer (s : Session) : Category → List Expr → Option Reply
  | .arguments, es => some (.arguments (s.typed es))
  | _, [e] => some (.argument (e.argument s.propagate))
  | _, _ => none

theorem answer_eq_some_iff (hk : k ≠ .arguments) {es : List Expr} :
    s.answer k es = some reply ↔ ∃ e, es = [e] ∧ reply = .argument (e.argument s.propagate) := by
  match k, es with
  | .arguments, _ => exact absurd rfl hk
  | .chain _, [] | .operand _, [] | .factor, [] => simp [answer]
  | .chain _, [e] | .operand _, [e] | .factor, [e] => simp [answer, eq_comm]
  | .chain _, _ :: _ :: _ | .operand _, _ :: _ :: _ | .factor, _ :: _ :: _ => simp [answer]

/-- The answer to a reader of one expression is that for its category. -/
theorem reportExpr_category_eq_ok_iff (hk : k ≠ .arguments) {n : ℕ} {r : Reading Expr n}
    (hread : k.task.read s.tokens.last s.rest = r.single) :
    s.reportExpr r = (.ok reply, s') ↔
      ∃ es left, Reads s.tokens.last k.task s.rest (.ok es) left ∧ s.answer k es = some reply ∧
        s' = s.moveTo left := by
  simp only [reportExpr_eq_ok_iff, ← read_eq_iff s.tokens.last_kind, hread, answer_eq_some_iff hk]
  constructor
  · rintro ⟨e, left, hsingle, hreply, hs'⟩
    exact ⟨[e], left, hsingle, ⟨e, rfl, hreply⟩, hs'⟩
  · rintro ⟨_, left, hsingle, ⟨e, rfl, hreply⟩, hs'⟩
    exact ⟨e, left, hsingle, hreply, hs'⟩

/-- A command that reads a category answers with what the reader reads, and moves there. -/
theorem perform_category_eq_ok_iff (hk : c.category? = some k) :
    s.perform c = (.ok reply, s') ↔ ∃ es left, Reads s.tokens.last k.task s.rest (.ok es) left ∧
      s.answer k es = some reply ∧ s' = s.moveTo left := by
  -- one expression is answered with its type and span, and a list with those of its elements
  cases c with
  | expression | term | factor =>
    cases hk
    exact reportExpr_category_eq_ok_iff (by nofun) rfl
  | arguments =>
    cases hk
    simp only [← read_eq_iff s.tokens.last_kind, answer, Option.some.injEq, eq_comm (b := reply)]
    exact report_eq_ok_iff
  | _ => cases hk

/-- What a command that reads a category can do: it reads a phrase up to where it ends. -/
theorem perform_category_iff_phrase (hsigned : ∀ t ∈ s.tokens.toList, t.Signed)
    (hk : c.category? = some k) :
    s.perform c = (.ok reply, s') ↔ ∃ us es left, s.rest = us ++ left ∧ Phrase k us es ∧
      k.Ends us left ∧ s.answer k es = some reply ∧ s' = s.moveTo left := by
  have hrest : ∀ t ∈ s.rest, t.Signed := fun t ht =>
    hsigned t (List.mem_append_left _ (List.mem_of_mem_drop ht))
  rw [perform_category_eq_ok_iff hk]
  simp only [reads_iff hrest]
  constructor
  · rintro ⟨es, left, ⟨us, hus, hphrase, hends⟩, hanswer, hs'⟩
    exact ⟨us, es, left, hus, hphrase, hends, hanswer, hs'⟩
  · rintro ⟨us, es, left, hus, hphrase, hends, hanswer, hs'⟩
    exact ⟨es, left, ⟨us, hus, hphrase, hends⟩, hanswer, hs'⟩

/-- There is an answer to every phrase. -/
theorem exists_answer {us : List Token} {es : List Expr} (h : Phrase k us es) :
    ∃ reply, s.answer k es = some reply := by
  by_cases hk : k = .arguments
  · subst hk
    exact ⟨_, rfl⟩
  · obtain ⟨a, rfl⟩ := h.eq_singleton hk
    exact ⟨_, (answer_eq_some_iff hk).mpr ⟨a, rfl, rfl⟩⟩

/-- The answer to a phrase is the one for the tokens that it covers. -/
theorem answers_of_phrase {us left : List Token} {es : List Expr} (h : Phrase k us es)
    (hrest : s.rest = us ++ left) (hanswer : s.answer k es = some reply) :
    s.tokens.Answers s.index (s.index + us.length) k reply := by
  have hdrop := (TokenSeq.split_of_drop_body hrest h.ne_nil).1
  -- the tokens of a list are those of its elements, and an expression has one span
  by_cases hk : k = .arguments
  · subst hk
    cases hanswer
    exact ⟨s.typed es, rfl, TokenSeq.elements_of_phrase s.propagate h hdrop⟩
  · obtain ⟨a, rfl, rfl⟩ := (answer_eq_some_iff hk).mp hanswer
    have hspanned := TokenSeq.spanned_of_spans hdrop h.ne_nil (h.spans rfl)
    cases k with
    | arguments => exact absurd rfl hk
    | _ => exact ⟨_, rfl, hspanned⟩

/-- A command that reads a category comes to an index exactly if the category has its extent up to
there. There is one such index at most, and the answer is that for the extent. -/
theorem perform_part_iff (hsigned : ∀ t ∈ s.tokens.toList, t.Signed)
    (hk : c.category? = some k) :
    (∀ j, (∃ reply, (s.perform c).1 = .ok reply ∧ (s.perform c).2.index = j) ↔
      s.tokens.Extent k s.index j) ∧
    (∀ i j, s.tokens.Extent k s.index i → s.tokens.Extent k s.index j → i = j) ∧
    ∀ reply, (s.perform c).1 = .ok reply →
      s.tokens.Answers s.index (s.perform c).2.index k reply := by
  have hphrase : ∀ {reply}, (s.perform c).1 = .ok reply ↔ ∃ us es left, s.rest = us ++ left ∧
      Phrase k us es ∧ k.Ends us left ∧ s.answer k es = some reply ∧
        (s.perform c).2 = s.moveTo left := by
    intro reply
    rw [← perform_category_iff_phrase hsigned hk, Prod.ext_iff]
    simp
  have hiff : ∀ j, (∃ reply, (s.perform c).1 = .ok reply ∧ (s.perform c).2.index = j) ↔
      s.tokens.Extent k s.index j := by
    intro j
    rw [TokenSeq.extent_iff hsigned]
    constructor
    · rintro ⟨reply, h, rfl⟩
      obtain ⟨us, es, left, hrest, hus, hends, -, hmove⟩ := hphrase.mp h
      refine ⟨us, es, left, hrest, hus, hends, ?_⟩
      rw [hmove, index_moveTo_of_append hrest]
    · rintro ⟨us, es, left, hrest, hus, hends, rfl⟩
      obtain ⟨reply, hanswer⟩ := exists_answer (s := s) hus
      have hperform := (perform_category_iff_phrase hsigned hk).mpr
        ⟨us, es, left, hrest, hus, hends, hanswer, rfl⟩
      exact ⟨reply, by rw [hperform], by rw [hperform, index_moveTo_of_append hrest]⟩
  refine ⟨hiff, ?_, ?_⟩
  · -- a command comes to one index only
    intro i j hi hj
    obtain ⟨_, -, rfl⟩ := (hiff i).mpr hi
    obtain ⟨_, -, rfl⟩ := (hiff j).mpr hj
    rfl
  · intro reply h
    obtain ⟨us, es, left, hrest, hus, -, hanswer, hmove⟩ := hphrase.mp h
    rw [hmove, index_moveTo_of_append hrest]
    exact answers_of_phrase hus hrest hanswer

/-- The tokens of `x, 2 * f() (`. -/
def callBefore : TokenSeq where
  body := [⟨.identifier, "x", ⟨.ofIndex 1 0, .ofIndex 1 1⟩⟩,
    ⟨.comma, ",", ⟨.ofIndex 1 1, .ofIndex 1 2⟩⟩,
    ⟨.number, "2", ⟨.ofIndex 1 3, .ofIndex 1 4⟩⟩,
    ⟨.operator, "*", ⟨.ofIndex 1 5, .ofIndex 1 6⟩⟩,
    ⟨.identifier, "f", ⟨.ofIndex 1 7, .ofIndex 1 8⟩⟩,
    ⟨.lparen, "(", ⟨.ofIndex 1 8, .ofIndex 1 9⟩⟩,
    ⟨.rparen, ")", ⟨.ofIndex 1 9, .ofIndex 1 10⟩⟩,
    ⟨.lparen, "(", ⟨.ofIndex 1 11, .ofIndex 1 12⟩⟩]
  last := .ended 1 12
  last_kind := rfl

/-- The last parenthesis comes after a call and not after a name, so both arguments are read. The
second one, read by itself, ends there too, and not behind the number. -/
theorem perform_part_iff_callBefore :
    callBefore.Extent .arguments 0 7 ∧ callBefore.Elements 0 7
        [⟨.unknown, ⟨.ofIndex 1 0, .ofIndex 1 1⟩⟩, ⟨.integer, ⟨.ofIndex 1 3, .ofIndex 1 10⟩⟩] ∧
      ∀ j, callBefore.Extent (.chain .product) 2 j ↔ j = 7 := by
  have hsigned : ∀ t ∈ callBefore.toList, t.Signed := by
    unfold Token.Signed
    decide
  obtain ⟨hlist, -, hanswers⟩ :=
    perform_part_iff (s := start false callBefore) (c := .arguments) hsigned rfl
  obtain ⟨hterm, -⟩ :=
    perform_part_iff (s := { start false callBefore with index := 2 }) (c := .term) hsigned rfl
  -- the answers are evaluated; extents and elements follow from the theorem
  have harguments : ((start false callBefore).perform .arguments).1 =
      .ok (.arguments [⟨.unknown, ⟨.ofIndex 1 0, .ofIndex 1 1⟩⟩,
        ⟨.integer, ⟨.ofIndex 1 3, .ofIndex 1 10⟩⟩]) := by
    decide +kernel
  have hindex : ((start false callBefore).perform .arguments).2.index = 7 := by decide +kernel
  have hread : ({ start false callBefore with index := 2 }.perform .term).1 =
      .ok (.argument ⟨.integer, ⟨.ofIndex 1 3, .ofIndex 1 10⟩⟩) := by
    decide +kernel
  have hstop : ({ start false callBefore with index := 2 }.perform .term).2.index = 7 := by
    decide +kernel
  refine ⟨(hlist 7).mp ⟨_, harguments, hindex⟩, ?_, fun j => ⟨fun hj => ?_, ?_⟩⟩
  · obtain ⟨as, has, helements⟩ := hanswers _ harguments
    rw [hindex] at helements
    cases has
    exact helements
  · obtain ⟨_, -, hj⟩ := (hterm j).mpr hj
    exact hj.symm.trans hstop
  · rintro rfl
    exact (hterm 7).mp ⟨_, hread, hstop⟩

end Session

end PrintfLint
