import PrintfLint.Proofs.Token.Resume

/-!
# PrintfLint.Proofs.Token.Run — a cursor that is told one thing after the other

* `Cursor.run` — a cursor after some commands;
* `Cursor.Steps` — what a command does, whatever character comes next;
* `Cursor.steps_perform` — every command but a seek does this;
* `Cursor.steps_run` — so does each command of a run, and a run goes on in the line and not beyond
  its end.

The commands that read a lexeme of a kind do not look whether one starts at the cursor: that of a
literal takes any character for the quotation mark, and that of a name may read nothing. What they
read is a part of the line in any case, and a fault is found in no part that is empty.
-/

namespace PrintfLint

/-- A lexeme is refused for the whole of its text. It is no empty number. -/
theorem Lexeme.of_refusal? {strict : Strictness} {start : Position} {l : Lexeme} {e : LexicalError}
    (h : l.refusal? strict start = some e) :
    e.span = ⟨start, start.advance l.text.length⟩ ∧ (l.kind ≠ .literal → l.text ≠ []) := by
  -- only numbers and literals are refused, and a number must have had two points for that
  unfold refusal? at h
  split at h
  · rename_i hkind
    split at h
    · rename_i hmany
      cases h
      refine ⟨rfl, fun _ htext => ?_⟩
      simp [htext] at hmany
    · cases h
  · rename_i hkind
    split at h
    · cases h
      exact ⟨rfl, fun hne => absurd hkind hne⟩
    · cases h
  · cases h

namespace Cursor

variable {s : Cursor} {c : Command}

/-- Does the command need a next character? -/
def Command.needsNext : Command → Bool
  | literal => true
  | directive => true
  | peek => true
  | advance => true
  | _ => false

/-- Does the command go to another place by itself? -/
def Command.isSeek : Command → Bool
  | seek _ => true
  | _ => false

/-- The cursor after some commands, each from where the last one left it. -/
def run (s : Cursor) (commands : List Command) : Cursor :=
  commands.foldl (fun s c => (s.perform c).2) s

/-- What a command does to a cursor and answers. -/
structure Steps (s : Cursor) (c : Command) (r : Except Failure Reply × Cursor) : Prop where
  line_eq : r.2.line = s.line
  strict_eq : r.2.strict = s.strict
  /-- It does not go back. -/
  index_le : s.index ≤ r.2.index
  /-- It stays in the line. -/
  le_length : r.2.index ≤ s.line.length
  /-- A token spans what was read, and its text is that part of the line. -/
  token : ∀ t, r.1 = .ok (.token t) →
    t.span = ⟨.ofIndex s.number s.index, .ofIndex s.number r.2.index⟩ ∧
      t.text = String.ofList ((s.line.drop s.index).take (r.2.index - s.index))
  /-- It fails for want of a next character exactly where it needs one and there is none. -/
  pastEnd_iff : r.1 = .error .pastEnd ↔ c.needsNext = true ∧ s.index = s.line.length
  /-- And then it does nothing. -/
  stays : r.1 = .error .pastEnd → r.2 = s
  /-- A fault of the line has been read when it is reported. -/
  passes : ∀ e, r.1 = .error (.lexical e) → s.index < r.2.index

/-! ## One command -/

theorem rest_eq_nil_iff (h : s.index ≤ s.line.length) :
    s.rest = [] ↔ s.index = s.line.length := by
  rw [rest, List.drop_eq_nil_iff]
  omega

theorem not_pastEnd (h : s.index ≤ s.line.length) (hnext : c.needsNext = false ∨ s.rest ≠ []) :
    ¬ (c.needsNext = true ∧ s.index = s.line.length) := by
  rintro ⟨hc, hend⟩
  rcases hnext with hfalse | hrest
  · simp [hfalse] at hc
  · exact hrest ((rest_eq_nil_iff h).mpr hend)

/-- What is answered without a token and without failure. -/
theorem steps_ok {s' : Cursor} {reply : Reply} (hline : s'.line = s.line)
    (hstrict : s'.strict = s.strict) (hindex : s.index ≤ s'.index)
    (hlength : s'.index ≤ s.line.length) (hreply : ∀ t, reply ≠ .token t)
    (hnext : c.needsNext = false ∨ s.rest ≠ []) : Steps s c (.ok reply, s') where
  line_eq := hline
  strict_eq := hstrict
  index_le := hindex
  le_length := hlength
  token t ht := by
    cases ht
    exact absurd rfl (hreply t)
  pastEnd_iff := iff_of_false (by simp) (not_pastEnd (by omega) hnext)
  stays := by simp
  passes := by simp

/-- What fails on the line, and has read a part of it. -/
theorem steps_lexical {e : LexicalError} {i : ℕ} (hindex : s.index < i)
    (hlength : i ≤ s.line.length) :
    Steps s c (.error (.lexical e), { s with index := i }) where
  line_eq := rfl
  strict_eq := rfl
  index_le := hindex.le
  le_length := hlength
  token := by simp
  pastEnd_iff := iff_of_false (by simp) fun ⟨_, hend⟩ => by omega
  stays := by simp
  passes _ _ := hindex

/-- A lexeme of what is left is taken or refused as a part of the line. -/
theorem steps_take (h : s.index ≤ s.line.length) {l : Lexeme} (hl : l.text ++ l.rest = s.rest)
    (hliteral : l.kind = .literal → l.text ≠ []) (hnext : c.needsNext = false ∨ s.rest ≠ []) :
    Steps s c (s.take l) := by
  have hlength := length_rest h
  rw [← hl, List.length_append] at hlength
  unfold take Lexeme.accept
  cases hrefusal : l.refusal? s.strict s.position with
  | none =>
    -- what is left starts with the text of the lexeme, and so does the part of the line
    have hpart : (s.line.drop s.index).take l.text.length = l.text := by
      rw [← rest, ← hl, List.take_left]
    refine ⟨rfl, rfl, by simp, by simp; omega, ?_, iff_of_false (by simp) (not_pastEnd h hnext),
      by simp, by simp⟩
    intro t ht
    cases ht
    simp [Lexeme.token, position, Position.advance_ofIndex, hpart]
  | some e =>
    obtain ⟨hspan, hne⟩ := Lexeme.of_refusal? hrefusal
    -- a literal is not empty by assumption, and a number because it was refused
    have hpos : 0 < l.text.length := by
      rw [List.length_pos_iff]
      by_cases hkind : l.kind = .literal
      · exact hliteral hkind
      · exact hne hkind
    have hbehind : s.behind e = { s with index := s.index + l.text.length } := by
      rw [behind, hspan, position, Position.advance_ofIndex]
      rfl
    simp only [hbehind]
    exact steps_lexical (by omega) (by omega)

/-- A command that needs a next character fails where there is none. -/
theorem steps_withNext (h : s.index ≤ s.line.length) (hc : c.needsNext = true)
    {k : Char → List Char → Except Failure Reply × Cursor}
    (hk : ∀ d ds, s.rest = d :: ds → Steps s c (k d ds)) : Steps s c (s.withNext k) := by
  unfold withNext
  cases hrest : s.rest with
  | nil =>
    have hend := (rest_eq_nil_iff h).mp hrest
    exact ⟨rfl, rfl, le_rfl, h, by simp, iff_of_true rfl ⟨hc, hend⟩, fun _ => rfl, by simp⟩
  | cons d ds => exact hk d ds hrest

/-- Every command that is no seek does what `Steps` says. -/
theorem steps_perform (h : s.index ≤ s.line.length) (hc : c.isSeek = false) :
    Steps s c (s.perform c) := by
  have hadvance : ∀ {d ds}, s.rest = d :: ds → s.index + 1 ≤ s.line.length := by
    intro d ds hrest
    have hlength := length_rest h
    rw [hrest, List.length_cons] at hlength
    omega
  -- commands that read take a lexeme of what is left; a cursor at the end has none to start with
  cases c with
  | tokenize =>
    rw [perform]
    cases hscan : TokenSeq.scan s.strict s.position s.rest with
    | ok ts =>
      have hlength := length_rest h
      exact steps_ok rfl rfl (by simp) hlength.le (by simp) (.inl rfl)
    | error e =>
      obtain ⟨i, hbehind, hpasses⟩ := behind_of_scan h hscan
      simp only [hbehind]
      exact steps_lexical hpasses.later hpasses.le_length
  | literal =>
    refine steps_withNext h rfl fun d ds hrest => steps_take h ?_ ?_ (.inr ?_)
    · rw [hrest, Lexeme.literal_text_append_rest]
    · exact fun _ => Lexeme.literal_text_ne_nil d ds
    · exact hrest ▸ List.cons_ne_nil d ds
  | directive =>
    refine steps_withNext h rfl fun d ds hrest => steps_take h ?_ ?_ (.inr ?_)
    · rw [hrest, Lexeme.directive, Lexeme.headed_text_append_rest]
    · simp [Lexeme.directive, Lexeme.headed]
    · exact hrest ▸ List.cons_ne_nil d ds
  -- names and numbers may be empty, so these commands need no next character
  | name =>
    rw [perform]
    refine steps_take h List.takeWhile_append_dropWhile ?_ (.inl rfl)
    simp [Lexeme.name, Lexeme.run]
  | number =>
    rw [perform]
    refine steps_take h List.takeWhile_append_dropWhile ?_ (.inl rfl)
    simp [Lexeme.number, Lexeme.run]
  | peek =>
    refine steps_withNext h rfl fun d ds hrest => ?_
    exact steps_ok rfl rfl le_rfl h (by simp) (.inr (hrest ▸ List.cons_ne_nil d ds))
  | advance =>
    refine steps_withNext h rfl fun d ds hrest => ?_
    exact steps_ok rfl rfl (by simp) (hadvance hrest) (by simp)
      (.inr (hrest ▸ List.cons_ne_nil d ds))
  -- all other commands leave the cursor where it is
  | atEnd => exact steps_ok rfl rfl le_rfl h (by simp) (.inl rfl)
  | position => exact steps_ok rfl rfl le_rfl h (by simp) (.inl rfl)
  | seek => cases hc
  | setNumber => exact steps_ok rfl rfl le_rfl h (by simp) (.inl rfl)

/-! ## Runs -/

variable {commands : List Command}

/-- A run without seeks goes on in the line and not beyond its end. -/
theorem run_within (h : s.index ≤ s.line.length) (hseek : ∀ c ∈ commands, c.isSeek = false) :
    (s.run commands).line = s.line ∧ s.index ≤ (s.run commands).index ∧
      (s.run commands).index ≤ s.line.length := by
  -- the line stays the same, so each command finds the index within it
  induction commands generalizing s with
  | nil => exact ⟨rfl, le_rfl, h⟩
  | cons c commands ih =>
    obtain ⟨hc, hseek⟩ := List.forall_mem_cons.mp hseek
    have hstep := steps_perform h hc
    have hline := hstep.line_eq
    obtain ⟨hlines, hindex, hlength⟩ := ih (hline ▸ hstep.le_length) hseek
    rw [hline] at hlines hlength
    exact ⟨hlines, hstep.index_le.trans hindex, hlength⟩

/-- In a run without seeks each command does what `Steps` says, and so the run goes on in the line
and not beyond its end. -/
theorem steps_run (h : s.index ≤ s.line.length) (hseek : ∀ c ∈ commands, c.isSeek = false) :
    ((s.run commands).line = s.line ∧ s.index ≤ (s.run commands).index ∧
      (s.run commands).index ≤ s.line.length) ∧
    ∀ before c after, commands = before ++ c :: after →
      Steps (s.run before) c ((s.run before).perform c) := by
  refine ⟨run_within h hseek, ?_⟩
  rintro before c after rfl
  obtain ⟨hbefore, hafter⟩ := List.forall_mem_append.mp hseek
  obtain ⟨hline, -, hlength⟩ := run_within h hbefore
  exact steps_perform (hline ▸ hlength) (hafter c List.mem_cons_self)

/-- A literal that starts at a letter, a name that is empty, a number with too many points and the
end of the line. -/
theorem steps_run_oddPlaces :
    let s : Cursor := ⟨"a\"b 1.2.3".toList, ⟨true, true⟩, 7, 0⟩
    let before : List Command := [.literal, .name]
    let after : List Command := [.advance, .number]
    (s.run (before ++ .name :: after)).index = 9 ∧
      (s.perform .literal).1 =
        .ok (.token ⟨.literal, "a\"", ⟨.ofIndex 7 0, .ofIndex 7 2⟩⟩) ∧
      ((s.run before).perform .name).1 =
        .ok (.token ⟨.identifier, "", ⟨.ofIndex 7 3, .ofIndex 7 3⟩⟩) ∧
      Steps (s.run before) .name ((s.run before).perform .name) ∧
      ((s.run (before ++ .name :: after)).perform .peek).1 = .error .pastEnd := by
  intro s before after
  have hend : (s.run (before ++ .name :: after)).index = 9 := by decide +kernel
  have hseek : ∀ c ∈ before ++ .name :: after ++ [.peek], c.isSeek = false := by decide
  have hsteps := steps_run (s := s) (by decide) hseek
  refine ⟨hend, by decide +kernel, by decide +kernel, hsteps.2 before .name (after ++ [.peek]) rfl,
    ?_⟩
  exact (hsteps.2 (before ++ .name :: after) .peek [] rfl).pastEnd_iff.mpr ⟨rfl, by decide +kernel⟩

end Cursor

end PrintfLint
