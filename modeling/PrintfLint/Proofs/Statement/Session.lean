import PrintfLint.Proofs.Statement.Reading
import PrintfLint.Session

/-!
# PrintfLint.Proofs.Statement.Session — where a session stands

* `rest_moveTo`, `moveTo_moveTo`, `index_moveTo_of_append` — a session that has moved on;
* `current_kind_ne_iff`, `rest_of_current` — the token before which it stands;
* `report_eq_ok_iff`, `reportExpr_eq_ok_iff` — the answers to the readers;
* `perform_advance`, `perform_expression_eq_ok_iff` — a token passed over and an expression read.
-/

namespace PrintfLint.Session

variable {s s' : Session} {left mid : List Token}

/-! ## Places -/

/-- A session before the tokens that are left of its own has them before it. -/
theorem rest_moveTo (h : left <:+ s.rest) : (s.moveTo left).rest = left := by
  rcases h with ⟨us, hus⟩
  have hsplit : s.tokens.body.drop s.index = us ++ left := hus.symm
  change s.tokens.body.drop (s.index + (s.rest.length - left.length)) = left
  rw [← hus, List.length_append, Nat.add_sub_cancel, ← List.drop_drop, hsplit, List.drop_left]

theorem moveTo_moveTo (hmid : mid <:+ s.rest) (hleft : left <:+ mid) :
    (s.moveTo mid).moveTo left = s.moveTo left := by
  have hlong := hmid.length_le
  have hshort := hleft.length_le
  have hrest := rest_moveTo hmid
  rw [moveTo, hrest]
  simp only [moveTo, mk.injEq, true_and, and_true]
  omega

theorem index_moveTo_of_append {us : List Token} (h : s.rest = us ++ left) :
    (s.moveTo left).index = s.index + us.length := by
  rw [moveTo, h, List.length_append, Nat.add_sub_cancel]

/-- The next token is of another kind exactly if there is none of that kind left in front. -/
theorem current_kind_ne_iff {k : Kind} (hk : k ≠ .endOfInput) :
    s.current.kind ≠ k ↔ ∀ t ∈ s.rest.head?, t.kind ≠ k := by
  have hlast := s.tokens.last_kind
  unfold current
  cases s.rest with
  | nil => simpa [hlast] using hk.symm
  | cons t ts => simp

theorem rest_of_current {k : Kind} (hk : k ≠ .endOfInput) (h : s.current.kind = k) :
    ∃ t ts, s.rest = t :: ts ∧ t.kind = k := by
  rcases Reading.eq_cons_or_head?_ne k s.rest with hcons | hne
  · exact hcons
  · exact absurd h ((current_kind_ne_iff hk).mpr hne)

/-! ## Commands -/

theorem perform_advance {t : Token} {ts : List Token} (h : s.rest = t :: ts)
    (ht : t.kind ≠ .endOfInput) : (s.perform .advance).2 = s.moveTo ts := by
  have hpass : Reading.pass s.rest = ts := by rw [h, Reading.pass, if_neg ht]
  simp only [perform, hpass]

/-- What has been read is answered, and the session moves behind it. -/
theorem report_eq_ok_iff {α : Type} {n : ℕ} {r : Reading α n} {f : α → Reply} {reply : Reply} :
    s.report r f = (.ok reply, s') ↔
      ∃ a left, r.result = (.ok a, left) ∧ reply = f a ∧ s' = s.moveTo left := by
  unfold report
  rcases r.result with ⟨_ | a, left⟩
  · simp
  · constructor
    · intro h
      cases h
      exact ⟨a, left, rfl, rfl, rfl⟩
    · rintro ⟨_, _, h, rfl, rfl⟩
      cases h
      rfl

/-- The answer to a reader of one expression. -/
theorem reportExpr_eq_ok_iff {n : ℕ} {r : Reading Expr n} {reply : Reply} :
    s.reportExpr r = (.ok reply, s') ↔ ∃ e left, r.single = (.ok [e], left) ∧
      reply = .argument (e.argument s.propagate) ∧ s' = s.moveTo left := by
  simp only [reportExpr, report_eq_ok_iff, Reading.single_eq_ok_iff]

/-- The command that reads an expression answers with what the reader reads, and moves there. -/
theorem perform_expression_eq_ok_iff {reply : Reply} :
    s.perform .expression = (.ok reply, s') ↔
      ∃ e left, Reads s.tokens.last (.chain .sum) s.rest (.ok [e]) left ∧
        reply = .argument (e.argument s.propagate) ∧ s' = s.moveTo left := by
  simp only [← read_eq_iff s.tokens.last_kind]
  exact reportExpr_eq_ok_iff

theorem perform_expression_of_reads {e : Expr}
    (h : Reads s.tokens.last (.chain .sum) s.rest (.ok [e]) left) :
    s.perform .expression = (.ok (.argument (e.argument s.propagate)), s.moveTo left) :=
  perform_expression_eq_ok_iff.mpr ⟨e, left, h, rfl, rfl⟩

end PrintfLint.Session
