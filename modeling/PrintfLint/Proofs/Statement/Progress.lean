import PrintfLint.Proofs.Statement.Attempt
import PrintfLint.Proofs.Statement.Session

/-!
# PrintfLint.Proofs.Statement.Progress — readers move on and stop at an end of input

* `Passes` — tokens are passed over, none of them an end of input;
* `Reads.passes`, `Attempts.passes` — no reader does anything else;
* `Session.Confined` — where a session can be after a command that reads;
* `Session.perform_confined` — each such command comes to an answer there, from any place.

A reader that returns a value leaves fewer tokens than it was given, so both loops come to an end.
An end of input is looked at and never passed over, wherever in the sequence it stands, and behind
the last token there is nothing but another look at it.
-/

namespace PrintfLint

variable {fin : Token}

/-! ## Tokens that are passed over -/

/-- The tokens before the rest are passed over, and none of them is an end of input. -/
def Passes (ts rest : List Token) : Prop :=
  ∃ us, ts = us ++ rest ∧ ∀ t ∈ us, t.kind ≠ .endOfInput

namespace Passes

variable {ts mid rest : List Token}

theorem refl (ts : List Token) : Passes ts ts :=
  ⟨[], rfl, by simp⟩

theorem trans (h : Passes ts mid) (h' : Passes mid rest) : Passes ts rest := by
  rcases h with ⟨us, rfl, hus⟩
  rcases h' with ⟨vs, rfl, hvs⟩
  refine ⟨us ++ vs, by rw [List.append_assoc], ?_⟩
  intro t ht
  rcases List.mem_append.mp ht with ht | ht
  · exact hus t ht
  · exact hvs t ht

theorem cons {k : Kind} {t : Token} (h : Passes ts rest) (ht : t.kind = k)
    (hk : k ≠ .endOfInput) : Passes (t :: ts) rest := by
  rcases h with ⟨us, rfl, hus⟩
  refine ⟨t :: us, rfl, List.forall_mem_cons.mpr ⟨?_, hus⟩⟩
  rwa [ht]

end Passes

/-- No reader of expressions passes over an end of input. -/
theorem Reads.passes {task : Task} {ts rest : List Token} {r : Except GrammarError (List Expr)}
    (h : Reads fin task ts r rest) : Passes ts rest := by
  -- a rule passes over tokens whose kinds it names, none of which is the end of input
  induction h with
  | chain_error _ ih => exact ih
  | chain_from _ _ ih ihmore => exact ih.trans ihmore
  | chain_end => exact .refl _
  | join_error hjoin _ ih => exact ih.cons (Precedence.kind_of_joins hjoin) (by decide)
  | join_from hjoin _ _ ih ihmore =>
    exact (ih.trans ihmore).cons (Precedence.kind_of_joins hjoin) (by decide)
  | term _ ih => exact ih
  | factor _ ih => exact ih
  | no_factor => exact .refl _
  | number ht => exact (Passes.refl _).cons ht (by decide)
  | name ht => exact (Passes.refl _).cons ht (by decide)
  | call_empty ht ho hc =>
    exact (((Passes.refl _).cons hc (by decide)).cons ho (by decide)).cons ht (by decide)
  | call_error ht ho _ _ ih => exact (ih.cons ho (by decide)).cons ht (by decide)
  | call ht ho _ _ hc ih =>
    have hclosed := ih.trans ((Passes.refl _).cons hc (by decide))
    exact (hclosed.cons ho (by decide)).cons ht (by decide)
  | call_open ht ho _ _ _ ih => exact (ih.cons ho (by decide)).cons ht (by decide)
  | group_error ho _ ih => exact ih.cons ho (by decide)
  | group ho _ hc ih =>
    have hclosed := ih.trans ((Passes.refl _).cons hc (by decide))
    exact hclosed.cons ho (by decide)
  | group_open ho _ _ ih => exact ih.cons ho (by decide)
  | arguments_error _ ih => exact ih
  | arguments_from _ _ ih ihmore => exact ih.trans ihmore
  | arguments_end => exact .refl _
  | comma_error ht _ ih => exact ih.cons ht (by decide)
  | comma_from ht _ _ ih ihmore => exact (ih.trans ihmore).cons ht (by decide)

theorem Expects.passes {ks : List Kind} {ts rest : List Token} {e : Option GrammarError}
    (h : Expects fin ks ts e rest) (hks : .endOfInput ∉ ks) : Passes ts rest := by
  induction h with
  | nil => exact .refl _
  | cons ht _ ih =>
    rcases List.ne_and_not_mem_of_not_mem_cons hks with ⟨hk, hks⟩
    exact (ih hks).cons ht hk.symm
  | missing => exact .refl _

theorem BodyReads.passes {ts : List Token} {a : Attempt} (h : BodyReads fin ts a) :
    Passes ts a.rest := by
  cases h with
  | no_literal => exact .refl _
  | bare ht => exact (Passes.refl _).cons ht (by decide)
  | arguments_error ht hm inner => exact (inner.passes.cons hm (by decide)).cons ht (by decide)
  | supplied ht hm inner => exact (inner.passes.cons hm (by decide)).cons ht (by decide)

/-- No reader of statements passes over an end of input. -/
theorem Attempts.passes {ts : List Token} {a : Attempt} (h : Attempts fin ts a) :
    Passes ts a.rest := by
  -- the tokens on both sides of the body are as they should be, so none is an end of input
  have haround : ∀ {mid rest : List Token} {inner : Attempt} {e : Option GrammarError},
      Expects fin [.printf, .lparen] ts none mid → BodyReads fin mid inner →
        Expects fin [.rparen, .semicolon] inner.rest e rest → Passes ts rest := by
    intro mid rest inner e before body after
    exact ((before.passes (by decide)).trans body.passes).trans (after.passes (by decide))
  cases h with
  | opening before => exact before.passes (by decide)
  | body_error before body => exact (before.passes (by decide)).trans body.passes
  | closing before body _ after => exact haround before body after
  | trailing before body _ after => exact haround before body after
  | done before body _ after => exact haround before body after

/-- Where no token is left there is no statement. -/
theorem Attempts.error?_of_nil {ts : List Token} {a : Attempt} (h : Attempts fin ts a)
    (hts : ts = []) : a.error? ≠ none := by
  subst hts
  cases h with
  | opening => simp
  | body_error _ _ he => simp [he]
  | closing => simp
  | trailing => simp
  | done before => cases before

/-- Where no token is left there is nothing between parentheses. -/
theorem BodyReads.error?_of_nil {ts : List Token} {a : Attempt} (h : BodyReads fin ts a)
    (hts : ts = []) : a.error? ≠ none := by
  subst hts
  cases h
  simp

/-! ## Sessions -/

namespace Session

/-- The commands that read a part of a statement that is never empty. -/
def partReaders : List Command :=
  [.arguments, .expression, .term, .factor]

/-- The commands that read a statement or a part of one. -/
def readers : List Command :=
  .statement :: .body :: partReaders

/-- What comes of a command that reads: an answer or an error of the grammar, and a place that is
not before that of the session and not behind the next end of input. Behind the last token there is
an error, and the session stays where it is. -/
structure Confined (s : Session) (r : Except Problem Reply × Session) : Prop where
  answered : (∃ reply, r.1 = .ok reply) ∨ ∃ e : GrammarError, r.1 = .error e.problem
  index_le : s.index ≤ r.2.index
  index_le_ending : ∀ (j : ℕ) (t : Token), s.index ≤ j → s.tokens.toList[j]? = some t →
    t.kind = .endOfInput → r.2.index ≤ j
  behind : s.tokens.toList.length ≤ s.index →
    (∃ e : GrammarError, r.1 = .error e.problem) ∧ r.2.index = s.index

variable {s : Session} {left : List Token}

/-- The tokens that a session stands before are those of its sequence from its place on. -/
theorem getElem?_toList_of_rest {us : List Token} (h : s.rest = us ++ left) {j : ℕ}
    (hj : s.index ≤ j) (hlt : j < s.index + us.length) :
    s.tokens.toList[j]? = us[j - s.index]? := by
  have hrest : s.rest[j - s.index]? = s.tokens.body[j]? := by
    rw [rest, List.getElem?_drop, Nat.add_sub_cancel' hj]
  have hlength : us.length ≤ s.tokens.body.length - s.index := by
    rw [← List.length_drop, ← rest, h, List.length_append]
    omega
  rw [TokenSeq.toList, List.getElem?_append_left (by omega), ← hrest, h,
    List.getElem?_append_left (by omega)]

/-- A session that moves on over tokens that are passed over is confined. -/
theorem confined_of_passes {r : Except Problem Reply × Session} (hpasses : Passes s.rest left)
    (hindex : r.2.index = (s.moveTo left).index)
    (hanswer : (∃ reply, r.1 = .ok reply) ∨ ∃ e : GrammarError, r.1 = .error e.problem)
    (hnil : s.rest = [] → ∃ e : GrammarError, r.1 = .error e.problem) : s.Confined r := by
  rcases hpasses with ⟨us, hsplit, hus⟩
  rw [index_moveTo_of_append hsplit] at hindex
  refine ⟨hanswer, by omega, ?_, ?_⟩
  · intro j t hj ht hend
    -- an end of input before the new place would be among the tokens that are passed over
    by_contra hbeyond
    rw [getElem?_toList_of_rest hsplit hj (by omega)] at ht
    exact hus t (List.mem_of_getElem? ht) hend
  · intro hbehind
    have hrest : s.rest = [] := by
      rw [TokenSeq.toList, List.length_append] at hbehind
      exact List.drop_eq_nil_of_le (by omega)
    have hnone : us = [] := by
      rw [hrest] at hsplit
      exact (List.nil_eq_append_iff.mp hsplit).1
    refine ⟨hnil hrest, ?_⟩
    rw [hindex, hnone]
    rfl

/-- A reading that does not pass over an end of input confines the session, and moves it on if it
succeeds. -/
theorem report_confined {α : Type} (r : Reading α s.rest.length) (reply : α → Reply)
    (h : Passes s.rest r.result.2) : s.Confined (s.report r reply) ∧
      ∀ a, (s.report r reply).1 = .ok a → s.index < (s.report r reply).2.index := by
  cases r with
  | ok a left hshort =>
    constructor
    · refine confined_of_passes h rfl (.inl ⟨_, rfl⟩) ?_
      -- something was read, so there was a token to read
      intro hnil
      rw [hnil] at hshort
      exact absurd hshort (Nat.not_lt_zero _)
    · intro _ _
      simp only [report, Reading.result, moveTo]
      omega
  | fail e left _ =>
    constructor
    · exact confined_of_passes h rfl (.inr ⟨e, rfl⟩) fun _ => ⟨e, rfl⟩
    · intro _ ha
      cases ha

theorem settle_confined {a : Attempt} (h : Passes s.rest a.rest)
    (hnil : s.rest = [] → a.error? ≠ none) : s.Confined (s.settle a) := by
  unfold settle
  cases he : a.error? with
  | some e => exact confined_of_passes h rfl (.inr ⟨e, rfl⟩) fun _ => ⟨e, rfl⟩
  | none => exact confined_of_passes h rfl (.inl ⟨_, rfl⟩) fun hrest => absurd he (hnil hrest)

theorem reportExpr_confined (r : Reading Expr s.rest.length) (h : Passes s.rest r.single.2) :
    s.Confined (s.reportExpr r) ∧
      ∀ a, (s.reportExpr r).1 = .ok a → s.index < (s.reportExpr r).2.index := by
  rw [Reading.single_snd] at h
  exact report_confined r _ h

/-- A command that reads a part of a statement confines the session, and moves it on if it
succeeds. -/
theorem perform_part (s : Session) {c : Command} (hc : c ∈ partReaders) :
    s.Confined (s.perform c) ∧
      ∀ reply, (s.perform c).1 = .ok reply → s.index < (s.perform c).2.index := by
  have hfin := s.tokens.last_kind
  simp only [partReaders, List.mem_cons, List.not_mem_nil, or_false] at hc
  rcases hc with rfl | rfl | rfl | rfl
  · exact report_confined _ _ (Reading.reads_arguments hfin s.rest).passes
  · exact reportExpr_confined _ (Reading.reads_chain hfin .sum s.rest).passes
  · exact reportExpr_confined _ (Reading.reads_chain hfin .product s.rest).passes
  · exact reportExpr_confined _ (Reading.reads_factor hfin s.rest).passes

/-- Each command that reads comes to an answer or to an error of the grammar, whatever the tokens
and wherever the session stands. It never moves the session back and never behind the next end of
input, be that the last token or one before it. A part of a statement that is read moves the session
on, and behind the last token there is only the error. -/
theorem perform_confined (s : Session) {c : Command} (hc : c ∈ readers) :
    s.Confined (s.perform c) ∧
      (c ∈ partReaders → ∀ reply, (s.perform c).1 = .ok reply →
        s.index < (s.perform c).2.index) := by
  have hfin := s.tokens.last_kind
  have hparts : c ∈ partReaders → ∀ reply, (s.perform c).1 = .ok reply →
      s.index < (s.perform c).2.index := fun h => (perform_part s h).2
  refine ⟨?_, hparts⟩
  -- a statement, its body, or one of the readers of a part
  rcases List.mem_cons.mp hc with rfl | hc
  · have hreads := Attempt.attempts_statement hfin s.rest
    exact settle_confined hreads.passes fun hnil => hreads.error?_of_nil hnil
  · rcases List.mem_cons.mp hc with rfl | hc
    · have hreads := Attempt.bodyReads_body hfin s.rest
      exact settle_confined hreads.passes fun hnil => hreads.error?_of_nil hnil
    · exact (perform_part s hc).1

/-- The tokens of `f(1`, and after an end of input those of `* 2`. The operator has a text that no
scan finds. -/
def endInCall : TokenSeq where
  body := [⟨.identifier, "f", ⟨.ofIndex 1 0, .ofIndex 1 1⟩⟩,
    ⟨.lparen, "(", ⟨.ofIndex 1 1, .ofIndex 1 2⟩⟩,
    ⟨.number, "1", ⟨.ofIndex 1 2, .ofIndex 1 3⟩⟩,
    ⟨.endOfInput, "", ⟨.ofIndex 1 3, .ofIndex 1 3⟩⟩,
    ⟨.operator, "*/", ⟨.ofIndex 1 4, .ofIndex 1 6⟩⟩,
    ⟨.number, "2", ⟨.ofIndex 1 7, .ofIndex 1 8⟩⟩]
  last := ⟨.endOfInput, "", ⟨.ofIndex 1 8, .ofIndex 1 8⟩⟩
  last_kind := rfl

/-- The number is read as a term, and the end of input behind it is where the session then stands,
although tokens follow with which the term could go on. Behind the last token there is none. -/
theorem perform_confined_endInCall :
    (∃ reply, ({ start false endInCall with index := 2 }.perform .term).1 = .ok reply) ∧
      ({ start false endInCall with index := 2 }.perform .term).2.index = 3 ∧
      ({ start false endInCall with index := 7 }.perform .term).2.index = 7 := by
  obtain ⟨hconfined, hmoves⟩ :=
    perform_confined { start false endInCall with index := 2 } (c := .term) (by decide)
  obtain ⟨hbehind, -⟩ :=
    perform_confined { start false endInCall with index := 7 } (c := .term) (by decide)
  have hreply : ({ start false endInCall with index := 2 }.perform .term).1 =
      .ok (.argument ⟨.integer, ⟨.ofIndex 1 2, .ofIndex 1 3⟩⟩) := by
    decide +kernel
  -- the term moves on by one token at least, and does not go behind the end of input
  have hlt : 2 < _ := hmoves (by decide) _ hreply
  have hle := hconfined.index_le_ending 3 _ (by decide) rfl rfl
  exact ⟨⟨_, hreply⟩, Nat.le_antisymm hle hlt, (hbehind.behind (by decide)).2⟩

end Session

end PrintfLint
