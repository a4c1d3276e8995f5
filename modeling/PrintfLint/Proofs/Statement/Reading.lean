import Mathlib.Data.List.Basic
import PrintfLint.Expr.Reading

/-!
# PrintfLint.Proofs.Statement.Reading — what the readers of expressions do

* `Task`, `Task.read` — the six readers as one;
* `Reads` — what each of them can do, one rule for each branch;
* `read_eq_iff` — `Reads` is the graph of the readers.

Whatever is proved about the readers is proved by induction on `Reads`, and never opens them.
-/

namespace PrintfLint

/-- What is read: one of the readers, with the operand that it goes on from. -/
inductive Task where
  | chain (level : Precedence)
  | chainFrom (level : Precedence) (left : Expr)
  | operand (level : Precedence)
  | factor
  | arguments
  | argumentsFrom

/-- Does the task start with a factor? The others go on from something that has been read. -/
def Task.startsFactor : Task → Bool
  | chainFrom .. => false
  | argumentsFrom => false
  | _ => true

/-! ## The rules -/

/-- The expressions that a task reads, or the error that it meets, and the tokens from there on. -/
inductive Reads (fin : Token) :
    Task → List Token → Except GrammarError (List Expr) → List Token → Prop where
  | chain_error {l : Precedence} {ts rest : List Token} {e : GrammarError}
      (left : Reads fin (.operand l) ts (.error e) rest) :
      Reads fin (.chain l) ts (.error e) rest
  | chain_from {l : Precedence} {ts mid rest : List Token} {a : Expr}
      {r : Except GrammarError (List Expr)} (left : Reads fin (.operand l) ts (.ok [a]) mid)
      (more : Reads fin (.chainFrom l a) mid r rest) : Reads fin (.chain l) ts r rest
  | chain_end {l : Precedence} {a : Expr} {ts : List Token}
      (hstop : ∀ t ∈ ts.head?, l.joins t = false) : Reads fin (.chainFrom l a) ts (.ok [a]) ts
  | join_error {l : Precedence} {a : Expr} {t : Token} {ts rest : List Token} {e : GrammarError}
      (hjoin : l.joins t = true) (right : Reads fin (.operand l) ts (.error e) rest) :
      Reads fin (.chainFrom l a) (t :: ts) (.error e) rest
  | join_from {l : Precedence} {a b : Expr} {t : Token} {ts mid rest : List Token}
      {r : Except GrammarError (List Expr)} (hjoin : l.joins t = true)
      (right : Reads fin (.operand l) ts (.ok [b]) mid)
      (more : Reads fin (.chainFrom l (.binary a t b)) mid r rest) :
      Reads fin (.chainFrom l a) (t :: ts) r rest
  | term {ts rest : List Token} {r : Except GrammarError (List Expr)}
      (inner : Reads fin (.chain .product) ts r rest) : Reads fin (.operand .sum) ts r rest
  | factor {ts rest : List Token} {r : Except GrammarError (List Expr)}
      (inner : Reads fin .factor ts r rest) : Reads fin (.operand .product) ts r rest
  | no_factor {ts : List Token}
      (hfound : ∀ t ∈ ts.head?, t.kind ∉ Expected.operand.kinds) :
      Reads fin .factor ts (.error ⟨.operand, ts.headD fin⟩) ts
  | number {t : Token} {ts : List Token} (ht : t.kind = .number) :
      Reads fin .factor (t :: ts) (.ok [.number t]) ts
  | name {t : Token} {ts : List Token} (ht : t.kind = .identifier)
      (hstop : ∀ o ∈ ts.head?, o.kind ≠ .lparen) :
      Reads fin .factor (t :: ts) (.ok [.name t]) ts
  | call_empty {t o c : Token} {ts : List Token} (ht : t.kind = .identifier)
      (ho : o.kind = .lparen) (hc : c.kind = .rparen) :
      Reads fin .factor (t :: o :: c :: ts) (.ok [.call t [] c]) ts
  | call_error {t o : Token} {ts rest : List Token} {e : GrammarError}
      (ht : t.kind = .identifier) (ho : o.kind = .lparen)
      (hargs : ∀ c ∈ ts.head?, c.kind ≠ .rparen)
      (inner : Reads fin .arguments ts (.error e) rest) :
      Reads fin .factor (t :: o :: ts) (.error e) rest
  | call {t o c : Token} {ts rest : List Token} {es : List Expr} (ht : t.kind = .identifier)
      (ho : o.kind = .lparen) (hargs : ∀ c ∈ ts.head?, c.kind ≠ .rparen)
      (inner : Reads fin .arguments ts (.ok es) (c :: rest)) (hc : c.kind = .rparen) :
      Reads fin .factor (t :: o :: ts) (.ok [.call t es c]) rest
  | call_open {t o : Token} {ts rest : List Token} {es : List Expr} (ht : t.kind = .identifier)
      (ho : o.kind = .lparen) (hargs : ∀ c ∈ ts.head?, c.kind ≠ .rparen)
      (inner : Reads fin .arguments ts (.ok es) rest) (hc : ∀ c ∈ rest.head?, c.kind ≠ .rparen) :
      Reads fin .factor (t :: o :: ts) (.error ⟨.kind .rparen, rest.headD fin⟩) rest
  | group_error {o : Token} {ts rest : List Token} {e : GrammarError} (ho : o.kind = .lparen)
      (inner : Reads fin (.chain .sum) ts (.error e) rest) :
      Reads fin .factor (o :: ts) (.error e) rest
  | group {o c : Token} {ts rest : List Token} {a : Expr} (ho : o.kind = .lparen)
      (inner : Reads fin (.chain .sum) ts (.ok [a]) (c :: rest)) (hc : c.kind = .rparen) :
      Reads fin .factor (o :: ts) (.ok [.group o a c]) rest
  | group_open {o : Token} {ts rest : List Token} {a : Expr} (ho : o.kind = .lparen)
      (inner : Reads fin (.chain .sum) ts (.ok [a]) rest)
      (hc : ∀ c ∈ rest.head?, c.kind ≠ .rparen) :
      Reads fin .factor (o :: ts) (.error ⟨.kind .rparen, rest.headD fin⟩) rest
  | arguments_error {ts rest : List Token} {e : GrammarError}
      (first : Reads fin (.chain .sum) ts (.error e) rest) :
      Reads fin .arguments ts (.error e) rest
  | arguments_from {ts mid rest : List Token} {a : Expr} {r : Except GrammarError (List Expr)}
      (first : Reads fin (.chain .sum) ts (.ok [a]) mid)
      (more : Reads fin .argumentsFrom mid r rest) :
      Reads fin .arguments ts (r.map (a :: ·)) rest
  | arguments_end {ts : List Token} (hstop : ∀ t ∈ ts.head?, t.kind ≠ .comma) :
      Reads fin .argumentsFrom ts (.ok []) ts
  | comma_error {t : Token} {ts rest : List Token} {e : GrammarError} (ht : t.kind = .comma)
      (next : Reads fin (.chain .sum) ts (.error e) rest) :
      Reads fin .argumentsFrom (t :: ts) (.error e) rest
  | comma_from {t : Token} {ts mid rest : List Token} {a : Expr}
      {r : Except GrammarError (List Expr)} (ht : t.kind = .comma)
      (next : Reads fin (.chain .sum) ts (.ok [a]) mid)
      (more : Reads fin .argumentsFrom mid r rest) :
      Reads fin .argumentsFrom (t :: ts) (r.map (a :: ·)) rest

theorem Precedence.kind_of_joins {l : Precedence} {t : Token} (h : l.joins t = true) :
    t.kind = .operator := by
  have hjoins : t.kind = .operator ∧ t.text ∈ l.operators := by
    simpa [Precedence.joins] using h
  exact hjoins.1

theorem joins_eq_false {l : Precedence} {t : Token} (ht : t.kind ≠ .operator) :
    l.joins t = false := by
  simp [Precedence.joins, ht]

theorem map_eq_ok {ε α β : Type} {f : α → β} {r : Except ε α} {b : β} (h : r.map f = .ok b) :
    ∃ a, r = .ok a ∧ f a = b := by
  cases r with
  | error e => cases h
  | ok a =>
    cases h
    exact ⟨a, rfl, rfl⟩

theorem map_eq_error {ε α β : Type} {f : α → β} {r : Except ε α} {e : ε}
    (h : r.map f = .error e) : r = .error e := by
  cases r with
  | error e' =>
    cases h
    rfl
  | ok a => cases h

namespace Reads

variable {fin : Token} {task : Task} {ts rest : List Token} {r : Except GrammarError (List Expr)}

/-- What is left is the end of the tokens. -/
theorem suffix (h : Reads fin task ts r rest) : rest <:+ ts := by
  -- each rule leaves the end of what its last premise leaves, or passes over a few tokens itself
  induction h with
  | chain_error _ ih => exact ih
  | chain_from _ _ ih ihmore => exact ihmore.trans ih
  | chain_end => exact List.suffix_rfl
  | join_error _ _ ih => exact ih.trans (List.suffix_cons ..)
  | join_from _ _ _ ih ihmore => exact (ihmore.trans ih).trans (List.suffix_cons ..)
  | term _ ih => exact ih
  | factor _ ih => exact ih
  | no_factor => exact List.suffix_rfl
  | number => exact List.suffix_cons ..
  | name => exact List.suffix_cons ..
  | @call_empty t o c ts => exact ⟨[t, o, c], rfl⟩
  | @call_error t o ts _ _ _ _ _ _ ih => exact ih.trans ⟨[t, o], rfl⟩
  | @call t o c ts rest es _ _ _ _ _ ih =>
    exact (List.suffix_cons c rest).trans (ih.trans ⟨[t, o], rfl⟩)
  | @call_open t o ts _ _ _ _ _ _ _ ih => exact ih.trans ⟨[t, o], rfl⟩
  | group_error _ _ ih => exact ih.trans (List.suffix_cons ..)
  | @group o c ts rest a _ _ _ ih =>
    exact (List.suffix_cons c rest).trans (ih.trans (List.suffix_cons ..))
  | group_open _ _ _ ih => exact ih.trans (List.suffix_cons ..)
  | arguments_error _ ih => exact ih
  | arguments_from _ _ ih ihmore => exact ihmore.trans ih
  | arguments_end => exact List.suffix_rfl
  | comma_error _ _ ih => exact ih.trans (List.suffix_cons ..)
  | comma_from _ _ _ ih ihmore => exact (ihmore.trans ih).trans (List.suffix_cons ..)

/-- An error is found at the first token that is left. -/
theorem found_eq (h : Reads fin task ts r rest) {e : GrammarError} (hr : r = .error e) :
    e.found = rest.headD fin := by
  -- an error stands where the rule that finds it stops, and other rules only pass it on
  induction h with
  | chain_error _ ih => exact ih hr
  | chain_from _ _ _ ihmore => exact ihmore hr
  | chain_end => cases hr
  | join_error _ _ ih => exact ih hr
  | join_from _ _ _ _ ihmore => exact ihmore hr
  | term _ ih => exact ih hr
  | factor _ ih => exact ih hr
  | no_factor => cases hr; rfl
  | number => cases hr
  | name => cases hr
  | call_empty => cases hr
  | call_error _ _ _ _ ih => exact ih hr
  | call => cases hr
  | call_open => cases hr; rfl
  | group_error _ _ ih => exact ih hr
  | group => cases hr
  | group_open => cases hr; rfl
  | arguments_error _ ih => exact ih hr
  | arguments_from _ _ _ ihmore => exact ihmore (map_eq_error hr)
  | arguments_end => cases hr
  | comma_error _ _ ih => exact ih hr
  | comma_from _ _ _ _ ihmore => exact ihmore (map_eq_error hr)

/-- Where no factor can start, a task that starts with one fails at once. -/
theorem of_not_operand (h : Reads fin task ts r rest) (htask : task.startsFactor = true)
    (hne : ∀ t ∈ ts.head?, t.kind ∉ Expected.operand.kinds) :
    (∃ e, r = .error e) ∧ rest = ts := by
  -- no rule reads a token that starts a factor, and so no task comes to go on
  have hok : ∀ {es : List Expr}, ¬ ∃ e : GrammarError,
      (.ok es : Except GrammarError (List Expr)) = .error e := by
    rintro es ⟨e, he⟩
    cases he
  induction h with
  | chain_error _ ih => exact ih rfl hne
  | chain_from _ _ ih _ => exact absurd (ih rfl hne).1 hok
  | term _ ih => exact ih rfl hne
  | factor _ ih => exact ih rfl hne
  | no_factor => exact ⟨⟨_, rfl⟩, rfl⟩
  | number ht => simp [ht, Expected.kinds] at hne
  | name ht => simp [ht, Expected.kinds] at hne
  | call_empty ht => simp [ht, Expected.kinds] at hne
  | call_error ht => simp [ht, Expected.kinds] at hne
  | call ht => simp [ht, Expected.kinds] at hne
  | call_open ht => simp [ht, Expected.kinds] at hne
  | group_error ho => simp [ho, Expected.kinds] at hne
  | group ho => simp [ho, Expected.kinds] at hne
  | group_open ho => simp [ho, Expected.kinds] at hne
  | arguments_error _ ih => exact ih rfl hne
  | arguments_from _ _ ih _ => exact absurd (ih rfl hne).1 hok
  | chain_end => cases htask
  | join_error => cases htask
  | join_from => cases htask
  | arguments_end => cases htask
  | comma_error => cases htask
  | comma_from => cases htask

end Reads

/-! ## The readers -/

namespace Reading

/-- The expressions that are read: one, or those of a list. -/
def single {n : Nat} (r : Reading Expr n) : Except GrammarError (List Expr) × List Token :=
  (r.map fun e => [e]).result

variable {α β : Type} {m n : Nat}

@[simp] theorem result_widen (h : m ≤ n) (r : Reading α m) : (r.widen h).result = r.result := by
  cases r <;> rfl

@[simp] theorem single_widen (h : m ≤ n) (r : Reading Expr m) :
    (r.widen h).single = r.single := by
  cases r <;> rfl

@[simp] theorem result_ok (a : α) (rest : List Token) (h : rest.length < n) :
    (ok a rest h).result = (.ok a, rest) := rfl

@[simp] theorem result_fail (e : GrammarError) (rest : List Token) (h : rest.length ≤ n) :
    (fail (α := α) e rest h).result = (.error e, rest) := rfl

@[simp] theorem single_ok (a : Expr) (rest : List Token) (h : rest.length < n) :
    (ok a rest h).single = (.ok [a], rest) := rfl

@[simp] theorem single_fail (e : GrammarError) (rest : List Token) (h : rest.length ≤ n) :
    (fail (α := Expr) e rest h).single = (.error e, rest) := rfl

theorem result_map (f : α → β) (r : Reading α n) :
    (r.map f).result = (r.result.1.map f, r.result.2) := by
  cases r <;> rfl

theorem single_map (f : α → Expr) (r : Reading α n) :
    (r.map f).single = (r.result.1.map fun a => [f a], r.result.2) := by
  cases r <;> rfl

theorem single_snd (r : Reading Expr n) : r.single.2 = r.result.2 := by
  cases r <;> rfl

theorem single_eq_ok_iff {r : Reading Expr n} {a : Expr} {rest : List Token} :
    r.single = (.ok [a], rest) ↔ r.result = (.ok a, rest) := by
  cases r <;> simp

theorem single_eq_error_iff {r : Reading Expr n} {e : GrammarError} {rest : List Token} :
    r.single = (.error e, rest) ↔ r.result = (.error e, rest) := by
  cases r <;> simp

/-! ### Single tokens -/

variable {fin : Token}

/-- Reading a token of a kind that is there. -/
theorem expect_cons {t : Token} {k : Kind} {ts : List Token} (ht : t.kind = k)
    (hk : k ≠ .endOfInput) : (expect fin k (t :: ts)).result = (.ok t, ts) := by
  subst ht
  have hpass : pass (t :: ts) = ts := if_neg hk
  simp [expect, hpass]

/-- Reading a token of a kind that is not there. -/
theorem expect_of_ne {k : Kind} (hfin : fin.kind ≠ k) {ts : List Token}
    (h : ∀ t ∈ ts.head?, t.kind ≠ k) :
    (expect fin k ts).result = (.error ⟨.kind k, ts.headD fin⟩, ts) := by
  have hne : (ts.headD fin).kind ≠ k := by
    cases ts with
    | nil => exact hfin
    | cons t ts => exact h t rfl
  rw [expect, if_neg hne]
  rfl

/-- A token of a kind comes next or not. -/
theorem eq_cons_or_head?_ne (k : Kind) (ts : List Token) :
    (∃ t rest, ts = t :: rest ∧ t.kind = k) ∨ ∀ t ∈ ts.head?, t.kind ≠ k := by
  cases ts with
  | nil => exact .inr (by simp)
  | cons t rest =>
    by_cases ht : t.kind = k
    · exact .inl ⟨t, rest, rfl, ht⟩
    · exact .inr (by simpa using ht)

theorem startsWith_eq_false_iff {k : Kind} {ts : List Token} :
    startsWith k ts = false ↔ ∀ t ∈ ts.head?, t.kind ≠ k := by
  cases ts <;> simp [startsWith]

/-- Closing what has been opened. -/
theorem single_close {c : Token} {rest : List Token} (hc : c.kind = .rparen) (f : Token → Expr) :
    ((expect fin .rparen (c :: rest)).map f).single = (.ok [f c], rest) := by
  rw [single_map, expect_cons hc (by decide)]
  rfl

/-- What has been opened is not closed. -/
theorem single_open (hfin : fin.kind = .endOfInput) {rest : List Token}
    (hc : ∀ c ∈ rest.head?, c.kind ≠ .rparen) (f : Token → Expr) :
    ((expect fin .rparen rest).map f).single =
      (.error ⟨.kind .rparen, rest.headD fin⟩, rest) := by
  have hne : fin.kind ≠ .rparen := by simp [hfin]
  rw [single_map, expect_of_ne hne hc]
  rfl

/-! ### Lists and chains -/

theorem single_chain (l : Precedence) (ts : List Token) : (chain fin l ts).single =
    match (operand fin l ts).result with
    | (.error e, rest) => (.error e, rest)
    | (.ok a, rest) => (chainFrom fin l a rest).single := by
  rw [chain]
  cases operand fin l ts <;> simp

theorem single_chainFrom_end {l : Precedence} (a : Expr) {ts : List Token}
    (hstop : ∀ t ∈ ts.head?, l.joins t = false) :
    (chainFrom fin l a ts).single = (.ok [a], ts) := by
  cases ts with
  | nil =>
    rw [chainFrom]
    rfl
  | cons t ts =>
    have ht : l.joins t = false := hstop t rfl
    rw [chainFrom, ht]
    rfl

theorem single_chainFrom_join {l : Precedence} (a : Expr) {t : Token} (ht : l.joins t = true)
    (ts : List Token) : (chainFrom fin l a (t :: ts)).single =
      match (operand fin l ts).result with
      | (.error e, rest) => (.error e, rest)
      | (.ok b, rest) => (chainFrom fin l (.binary a t b) rest).single := by
  rw [chainFrom, if_pos ht]
  cases operand fin l ts <;> simp

theorem result_arguments (ts : List Token) : (arguments fin ts).result =
    match (chain fin .sum ts).result with
    | (.error e, rest) => (.error e, rest)
    | (.ok a, rest) => ((argumentsFrom fin rest).map (a :: ·)).result := by
  rw [arguments]
  cases chain fin .sum ts <;> simp

theorem result_argumentsFrom_end {ts : List Token} (hstop : ∀ t ∈ ts.head?, t.kind ≠ .comma) :
    (argumentsFrom fin ts).result = (.ok [], ts) := by
  cases ts with
  | nil =>
    rw [argumentsFrom]
    rfl
  | cons t ts =>
    have ht : t.kind ≠ .comma := hstop t rfl
    rw [argumentsFrom, if_neg ht]
    rfl

theorem result_argumentsFrom_comma {t : Token} (ht : t.kind = .comma) (ts : List Token) :
    (argumentsFrom fin (t :: ts)).result =
      match (chain fin .sum ts).result with
      | (.error e, rest) => (.error e, rest)
      | (.ok a, rest) => ((argumentsFrom fin rest).map (a :: ·)).result := by
  rw [argumentsFrom, if_pos ht]
  cases chain fin .sum ts <;> simp

/-! ### Factors -/

theorem factor_nil : (factor fin []).single = (.error ⟨.operand, fin⟩, []) := by
  rw [factor.eq_def]
  rfl

theorem factor_none {t : Token} (ht : t.kind ∉ Expected.operand.kinds) (ts : List Token) :
    (factor fin (t :: ts)).single = (.error ⟨.operand, t⟩, t :: ts) := by
  rw [factor.eq_def]
  cases hkind : t.kind <;> simp_all [Expected.kinds]

theorem factor_number {t : Token} (ht : t.kind = .number) (ts : List Token) :
    (factor fin (t :: ts)).single = (.ok [.number t], ts) := by
  rw [factor.eq_def]
  simp only [ht, single_ok]

theorem factor_name {t : Token} (ht : t.kind = .identifier) {ts : List Token}
    (hstop : ∀ o ∈ ts.head?, o.kind ≠ .lparen) :
    (factor fin (t :: ts)).single = (.ok [.name t], ts) := by
  rw [factor.eq_def]
  cases ts with
  | nil => simp only [ht, single_ok]
  | cons o ts =>
    have ho : o.kind ≠ .lparen := hstop o rfl
    simp only [ht, if_neg ho, single_ok]

theorem factor_call_empty {t o c : Token} (ht : t.kind = .identifier) (ho : o.kind = .lparen)
    (hc : c.kind = .rparen) (ts : List Token) :
    (factor fin (t :: o :: c :: ts)).single = (.ok [.call t [] c], ts) := by
  have hempty : startsWith .rparen (c :: ts) = true := by simpa [startsWith] using hc
  rw [factor.eq_def]
  simp only [ht, if_pos ho, hempty, if_true, single_widen, single_close hc]

theorem factor_call {t o : Token} (ht : t.kind = .identifier) (ho : o.kind = .lparen)
    {ts : List Token} (hargs : ∀ c ∈ ts.head?, c.kind ≠ .rparen) :
    (factor fin (t :: o :: ts)).single =
      match (arguments fin ts).result with
      | (.error e, rest) => (.error e, rest)
      | (.ok es, rest) => ((expect fin .rparen rest).map (.call t es)).single := by
  have hargs := startsWith_eq_false_iff.mpr hargs
  rw [factor.eq_def]
  cases h : arguments fin ts <;> simp [ht, ho, hargs, h]

theorem factor_group {o : Token} (ho : o.kind = .lparen) (ts : List Token) :
    (factor fin (o :: ts)).single =
      match (chain fin .sum ts).result with
      | (.error e, rest) => (.error e, rest)
      | (.ok a, rest) => ((expect fin .rparen rest).map (.group o a)).single := by
  rw [factor.eq_def]
  cases h : chain fin .sum ts <;> simp [ho, h]

end Reading

/-- The reader of a task. -/
def Task.read (fin : Token) : Task → List Token → Except GrammarError (List Expr) × List Token
  | chain l, ts => (Reading.chain fin l ts).single
  | chainFrom l a, ts => (Reading.chainFrom fin l a ts).single
  | operand l, ts => (Reading.operand fin l ts).single
  | factor, ts => (Reading.factor fin ts).single
  | arguments, ts => (Reading.arguments fin ts).result
  | argumentsFrom, ts => (Reading.argumentsFrom fin ts).result

/-! ## The readers follow the rules -/

namespace Reading

variable {fin : Token}

theorem reads_call (hfin : fin.kind = .endOfInput) {t o : Token} (ht : t.kind = .identifier)
    (ho : o.kind = .lparen) {ts : List Token} (hargs : ∀ c ∈ ts.head?, c.kind ≠ .rparen)
    (hinner : Reads fin .arguments ts (arguments fin ts).result.1 (arguments fin ts).result.2) :
    Reads fin .factor (t :: o :: ts) (factor fin (t :: o :: ts)).single.1
      (factor fin (t :: o :: ts)).single.2 := by
  -- the arguments break off, or are closed, or are not
  rw [factor_call ht ho hargs]
  cases h : arguments fin ts with
  | fail e rest _ =>
    rw [h] at hinner
    exact .call_error ht ho hargs hinner
  | ok es mid _ =>
    rw [h] at hinner
    simp only [result_ok]
    rcases eq_cons_or_head?_ne .rparen mid with ⟨c, rest, rfl, hc⟩ | hc
    · rw [single_close hc]
      exact .call ht ho hargs hinner hc
    · rw [single_open hfin hc]
      exact .call_open ht ho hargs hinner hc

theorem reads_group (hfin : fin.kind = .endOfInput) {o : Token} (ho : o.kind = .lparen)
    {ts : List Token}
    (hinner : Reads fin (.chain .sum) ts (chain fin .sum ts).single.1
      (chain fin .sum ts).single.2) :
    Reads fin .factor (o :: ts) (factor fin (o :: ts)).single.1
      (factor fin (o :: ts)).single.2 := by
  rw [factor_group ho]
  -- as in a call, the inside breaks off, or is closed, or is not
  cases h : chain fin .sum ts with
  | fail e rest _ =>
    rw [h] at hinner
    exact .group_error ho hinner
  | ok a mid _ =>
    rw [h] at hinner
    simp only [result_ok]
    rcases eq_cons_or_head?_ne .rparen mid with ⟨c, rest, rfl, hc⟩ | hc
    · rw [single_close hc]
      exact .group ho hinner hc
    · rw [single_open hfin hc]
      exact .group_open ho hinner hc

-- The readers call each other, so what they read is proved for all six at once, with the measure by
-- which they end.
mutual

theorem reads_chain (hfin : fin.kind = .endOfInput) (l : Precedence) (ts : List Token) :
    Reads fin (.chain l) ts (chain fin l ts).single.1 (chain fin l ts).single.2 := by
  have hleft := reads_operand hfin l ts
  rw [chain]
  cases h : operand fin l ts with
  | fail e rest _ =>
    rw [h] at hleft
    exact .chain_error hleft
  | ok a mid hshort =>
    rw [h] at hleft
    have hmore := reads_chainFrom hfin l a mid
    simp only [single_widen]
    exact .chain_from hleft hmore
termination_by 6 * ts.length + l.rank + 1

theorem reads_chainFrom (hfin : fin.kind = .endOfInput) (l : Precedence) (a : Expr)
    (ts : List Token) : Reads fin (.chainFrom l a) ts (chainFrom fin l a ts).single.1
      (chainFrom fin l a ts).single.2 := by
  match ts with
  | [] =>
    rw [chainFrom]
    exact .chain_end (by simp)
  | t :: ts =>
    rw [chainFrom]
    -- a token that joins asks for another operand, and any other one ends the chain
    by_cases hjoin : l.joins t
    · have hright := reads_operand hfin l ts
      rw [if_pos hjoin]
      cases h : operand fin l ts with
      | fail e rest _ =>
        rw [h] at hright
        exact .join_error hjoin hright
      | ok b mid hshort =>
        rw [h] at hright
        have hmore := reads_chainFrom hfin l (.binary a t b) mid
        simp only [single_widen]
        exact .join_from hjoin hright hmore
    · rw [if_neg hjoin]
      exact .chain_end (by simpa using hjoin)
termination_by 6 * ts.length
decreasing_by
  · have := l.rank_le
    simp only [List.length_cons]
    omega
  · simp only [List.length_cons]
    omega

theorem reads_operand (hfin : fin.kind = .endOfInput) (l : Precedence) (ts : List Token) :
    Reads fin (.operand l) ts (operand fin l ts).single.1 (operand fin l ts).single.2 := by
  match l with
  | .sum =>
    rw [operand]
    exact .term (reads_chain hfin .product ts)
  | .product =>
    rw [operand]
    exact .factor (reads_factor hfin ts)
termination_by 6 * ts.length + l.rank
decreasing_by
  all_goals
    simp only [Precedence.rank]
    omega

theorem reads_factor (hfin : fin.kind = .endOfInput) (ts : List Token) :
    Reads fin .factor ts (factor fin ts).single.1 (factor fin ts).single.2 := by
  match ts with
  | [] =>
    rw [factor_nil]
    exact .no_factor (by simp)
  | t :: ts =>
    by_cases hoperand : t.kind ∈ Expected.operand.kinds
    · -- an identifier, a number, or an opening parenthesis
      rcases (by simpa [Expected.kinds] using hoperand) with ht | ht | ht
      · -- an identifier is called if a parenthesis follows it
        rcases eq_cons_or_head?_ne .lparen ts with ⟨o, args, hts, ho⟩ | hstop
        · have hinner := reads_arguments hfin args
          subst hts
          -- a call may have no arguments
          rcases eq_cons_or_head?_ne .rparen args with ⟨c, rest, rfl, hc⟩ | hargs
          · rw [factor_call_empty ht ho hc]
            exact .call_empty ht ho hc
          · exact reads_call hfin ht ho hargs hinner
        · rw [factor_name ht hstop]
          exact .name ht hstop
      · rw [factor_number ht]
        exact .number ht
      · exact reads_group hfin ht (reads_chain hfin .sum ts)
    · rw [factor_none hoperand]
      exact .no_factor (by simpa using hoperand)
termination_by 6 * ts.length
decreasing_by
  · simp only [hts, List.length_cons]
    omega
  · simp only [Precedence.rank, List.length_cons]
    omega

theorem reads_arguments (hfin : fin.kind = .endOfInput) (ts : List Token) :
    Reads fin .arguments ts (arguments fin ts).result.1 (arguments fin ts).result.2 := by
  have hfirst := reads_chain hfin .sum ts
  rw [arguments]
  cases h : chain fin .sum ts with
  | fail e rest _ =>
    rw [h] at hfirst
    exact .arguments_error hfirst
  | ok a mid hshort =>
    rw [h] at hfirst
    have hmore := reads_argumentsFrom hfin mid
    simp only [result_widen, result_map]
    exact .arguments_from hfirst hmore
termination_by 6 * ts.length + 5
decreasing_by
  · simp only [Precedence.rank]
    omega
  · omega

theorem reads_argumentsFrom (hfin : fin.kind = .endOfInput) (ts : List Token) :
    Reads fin .argumentsFrom ts (argumentsFrom fin ts).result.1
      (argumentsFrom fin ts).result.2 := by
  match ts with
  | [] =>
    rw [argumentsFrom]
    exact .arguments_end (by simp)
  | t :: ts =>
    rw [argumentsFrom]
    -- a comma asks for another argument, and any other token ends the list
    by_cases ht : t.kind = .comma
    · have hnext := reads_chain hfin .sum ts
      rw [if_pos ht]
      cases h : chain fin .sum ts with
      | fail e rest _ =>
        rw [h] at hnext
        exact .comma_error ht hnext
      | ok a mid hshort =>
        rw [h] at hnext
        have hmore := reads_argumentsFrom hfin mid
        simp only [result_widen, result_map]
        exact .comma_from ht hnext hmore
    · rw [if_neg ht]
      exact .arguments_end (by simpa using ht)
termination_by 6 * ts.length
decreasing_by
  · simp only [Precedence.rank, List.length_cons]
    omega
  · simp only [List.length_cons]
    omega

end

end Reading

section

variable {fin : Token} (hfin : fin.kind = .endOfInput)

include hfin

theorem reads_read (task : Task) (ts : List Token) :
    Reads fin task ts (task.read fin ts).1 (task.read fin ts).2 := by
  cases task with
  | chain l => exact Reading.reads_chain hfin l ts
  | chainFrom l a => exact Reading.reads_chainFrom hfin l a ts
  | operand l => exact Reading.reads_operand hfin l ts
  | factor => exact Reading.reads_factor hfin ts
  | arguments => exact Reading.reads_arguments hfin ts
  | argumentsFrom => exact Reading.reads_argumentsFrom hfin ts

/-- The rules leave no choice: they say what the reader returns. -/
theorem Reads.read_eq {task : Task} {ts rest : List Token} {r : Except GrammarError (List Expr)}
    (h : Reads fin task ts r rest) : task.read fin ts = (r, rest) := by
  -- each rule is the equation of one reader; what the premises read is put into it
  induction h with
  | chain_error _ ih =>
    have hleft := Reading.single_eq_error_iff.mp ih
    simp only [Task.read, Reading.single_chain, hleft]
  | chain_from _ _ ih ihmore =>
    have hleft := Reading.single_eq_ok_iff.mp ih
    simp only [Task.read, Reading.single_chain, hleft]
    exact ihmore
  | chain_end hstop => exact Reading.single_chainFrom_end _ hstop
  | join_error hjoin _ ih =>
    have hright := Reading.single_eq_error_iff.mp ih
    simp only [Task.read, Reading.single_chainFrom_join _ hjoin, hright]
  | join_from hjoin _ _ ih ihmore =>
    have hright := Reading.single_eq_ok_iff.mp ih
    simp only [Task.read, Reading.single_chainFrom_join _ hjoin, hright]
    exact ihmore
  | term _ ih =>
    rw [Task.read, Reading.operand]
    exact ih
  | factor _ ih =>
    rw [Task.read, Reading.operand]
    exact ih
  | @no_factor ts hfound =>
    -- there is no token, or one that starts no factor
    cases ts with
    | nil => exact Reading.factor_nil
    | cons t ts => exact Reading.factor_none (hfound t rfl) ts
  | number ht => exact Reading.factor_number ht _
  | name ht hstop => exact Reading.factor_name ht hstop
  | call_empty ht ho hc => exact Reading.factor_call_empty ht ho hc _
  | call_error ht ho hargs _ ih =>
    simp only [Task.read] at ih
    simp only [Task.read, Reading.factor_call ht ho hargs, ih]
  | call ht ho hargs _ hc ih =>
    simp only [Task.read] at ih
    simp only [Task.read, Reading.factor_call ht ho hargs, ih, Reading.single_close hc]
  | call_open ht ho hargs _ hc ih =>
    simp only [Task.read] at ih
    simp only [Task.read, Reading.factor_call ht ho hargs, ih, Reading.single_open hfin hc]
  | group_error ho _ ih =>
    have hinner := Reading.single_eq_error_iff.mp ih
    simp only [Task.read, Reading.factor_group ho, hinner]
  | group ho _ hc ih =>
    have hinner := Reading.single_eq_ok_iff.mp ih
    simp only [Task.read, Reading.factor_group ho, hinner, Reading.single_close hc]
  | group_open ho _ hc ih =>
    have hinner := Reading.single_eq_ok_iff.mp ih
    simp only [Task.read, Reading.factor_group ho, hinner, Reading.single_open hfin hc]
  | arguments_error _ ih =>
    have hfirst := Reading.single_eq_error_iff.mp ih
    simp only [Task.read, Reading.result_arguments, hfirst]
  | arguments_from _ _ ih ihmore =>
    have hfirst := Reading.single_eq_ok_iff.mp ih
    simp only [Task.read] at ihmore
    simp only [Task.read, Reading.result_arguments, hfirst, Reading.result_map, ihmore]
  | arguments_end hstop => exact Reading.result_argumentsFrom_end hstop
  | comma_error ht _ ih =>
    have hnext := Reading.single_eq_error_iff.mp ih
    simp only [Task.read, Reading.result_argumentsFrom_comma ht, hnext]
  | comma_from ht _ _ ih ihmore =>
    have hnext := Reading.single_eq_ok_iff.mp ih
    simp only [Task.read] at ihmore
    simp only [Task.read, Reading.result_argumentsFrom_comma ht, hnext, Reading.result_map, ihmore]

/-- The readers return what the rules say. -/
theorem read_eq_iff {task : Task} {ts rest : List Token} {r : Except GrammarError (List Expr)} :
    task.read fin ts = (r, rest) ↔ Reads fin task ts r rest := by
  constructor
  · intro h
    have hreads := reads_read hfin task ts
    rwa [h] at hreads
  · intro h
    exact h.read_eq hfin

end

end PrintfLint
