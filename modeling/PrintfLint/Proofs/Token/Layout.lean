import Mathlib.Data.List.Basic
import PrintfLint.Proofs.Token.Front

/-!
# PrintfLint.Proofs.Token.Layout — white space between tokens

* `Token.face` — what a token is, wherever it stands;
* `Divides` — a text divides into tokens of given kinds and texts;
* `divides_iff_scan` — a scan finds this division, whatever the place of the text;
* `divides_spread` — tokens divide the text that they make with white space between them, wherever
  it keeps apart those that would run together;
* `Layout` — white space before, between and after tokens;
* `TokenSeq.exists_ofLine_spread` — a line whose tokens are spread anew has the tokens that it had
  before;
* `TokenSeq.exists_ofLine_layout` — so has a line that is laid out anew.
-/

namespace PrintfLint

/-- The kind and the text of a token, without its place. -/
def Token.face (t : Token) : Kind × String :=
  (t.kind, t.text)

/-! ## Division of a text -/

/-- The text divides into tokens of these kinds and texts. -/
inductive Divides : List Char → List (Kind × String) → Prop where
  | nil : Divides [] []
  | blank {c : Char} {cs : List Char} {faces : List (Kind × String)}
      (hc : Text.isBlank c = true) (rest : Divides cs faces) : Divides (c :: cs) faces
  | lexeme {k : Kind} {text : String} {rest : List Char} {faces : List (Kind × String)}
      (shape : Shape k text.toList rest) (more : Divides rest faces) :
      Divides (text.toList ++ rest) ((k, text) :: faces)

theorem Divides.blanks {ws cs : List Char} {faces : List (Kind × String)}
    (hws : ∀ c ∈ ws, Text.isBlank c = true) (h : Divides cs faces) :
    Divides (ws ++ cs) faces := by
  induction ws with
  | nil => exact h
  | cons c ws ih =>
    rcases List.forall_mem_cons.mp hws with ⟨hc, hws⟩
    exact .blank hc (ih hws)

/-! ## Scans -/

theorem Scanned.divides {strict : Strictness} {start : Position} {cs : List Char}
    {ts : List Token} (h : Scanned strict [] start cs ts) : Divides cs (ts.map Token.face) := by
  induction h with
  | nil => exact .nil
  | blank hc _ ih => exact .blank hc ih
  | token _ shape _ _ ih =>
    rw [List.append_nil] at shape
    exact .lexeme shape ih

namespace TokenSeq

variable {start : Position} {cs : List Char} {faces : List (Kind × String)}

theorem exists_scan_of_divides (h : Divides cs faces) (start : Position) :
    ∃ s, scan {} start cs = .ok s ∧ s.body.map Token.face = faces := by
  -- a division does not say where the text starts, so the scan may start anywhere
  induction h generalizing start with
  | nil => exact ⟨_, scan_nil, rfl⟩
  | blank hc _ ih =>
    rw [scan_blank hc]
    exact ih (start.advance 1)
  | @lexeme k text rest faces shape _ ih =>
    rcases ih (start.advance text.toList.length) with ⟨s, hs, hfaces⟩
    refine ⟨s.cons (Lexeme.token start ⟨k, text.toList, rest⟩), ?_, ?_⟩
    · rw [scan_shape shape, accept_permissive]
      simp only [hs]
      rfl
    · simp [cons, Lexeme.token, Token.face, ← hfaces]

theorem divides_of_scan {s : TokenSeq} (h : scan {} start cs = .ok s) :
    Divides cs (s.body.map Token.face) :=
  (scanned_of_scan h).1.divides

/-- A scan finds the division of the text, at whatever place it starts. -/
theorem divides_iff_scan :
    Divides cs faces ↔ ∃ s, scan {} start cs = .ok s ∧ s.body.map Token.face = faces := by
  constructor
  · exact fun h => exists_scan_of_divides h start
  · rintro ⟨s, hs, rfl⟩
    exact divides_of_scan hs

end TokenSeq

/-! ## Layouts -/

/-- The texts of tokens, with a string after each. -/
def spread : List Token → List String → String
  | t :: ts, w :: ws => t.text ++ (w ++ spread ts ws)
  | _, _ => ""

/-- White space around tokens, before the first and after each. It keeps the tokens apart, and puts
nothing after a literal that is not closed. -/
structure Layout (ts : List Token) where
  before : String
  after : List String
  length_eq : after.length = ts.length
  blank : ∀ w ∈ before :: after, ∀ c ∈ w.toList, Text.isBlank c = true
  apart : ∀ w ∈ after.dropLast, w ≠ ""
  open_end : ∀ t ∈ ts.getLast?, t.Unclosed → after.getLast? = some ""

/-- The line that the tokens make with this white space. -/
def Layout.line {ts : List Token} (l : Layout ts) : String :=
  l.before ++ spread ts l.after

/-- The one token may stand directly in front of the other: it is not made longer by it. -/
def Token.Adjoins (t u : Token) : Prop :=
  ∀ c ∈ u.text.toList.head?, t.kind.growsBy c = false

/-- What comes after a token does not make it longer, if that is white space, or the next token
adjoins it. -/
theorem growsBy_spread {t u : Token} {us : List Token} {w v : String} {vs : List String}
    (hu : u.text.toList ≠ []) (hw : ∀ c ∈ w.toList, Text.isBlank c = true)
    (happart : w ≠ "" ∨ t.Adjoins u) :
    ∀ c ∈ (w.toList ++ (spread (u :: us) (v :: vs)).toList).head?, t.kind.growsBy c = false := by
  intro c hc
  by_cases hempty : w.toList = []
  · rw [hempty, List.nil_append, spread, String.toList_append,
      List.head?_append_of_ne_nil _ hu] at hc
    exact happart.resolve_left (by simpa using hempty) c hc
  · rw [List.head?_append_of_ne_nil _ hempty] at hc
    exact t.kind.growsBy_of_isBlank (hw c (List.mem_of_mem_head? hc))

/-- Tokens divide the text that they make, if none runs into the next one. -/
theorem divides_spread {ts : List Token} {ws : List String} (hlength : ws.length = ts.length)
    (hshaped : Shaped ts) (hblank : ∀ w ∈ ws, ∀ c ∈ w.toList, Text.isBlank c = true)
    (hapart : (ts.zip ws).IsChain fun x y => x.2 ≠ "" ∨ x.1.Adjoins y.1)
    (hend : ∀ t ∈ ts.getLast?, t.Unclosed → ws.getLast? = some "") :
    Divides (spread ts ws).toList (ts.map Token.face) := by
  induction ts generalizing ws with
  | nil => exact .nil
  | cons t ts ih =>
    rcases List.exists_cons_of_length_eq_add_one hlength with ⟨w, ws, rfl⟩
    rcases List.forall_mem_cons.mp hshaped.shape with ⟨⟨rest, ht⟩, hshape⟩
    rcases List.forall_mem_cons.mp hblank with ⟨hw, hblank⟩
    have hlength : ws.length = ts.length := by simpa using hlength
    simp only [spread, String.toList_append, List.map_cons]
    cases ts with
    | nil =>
      -- what follows the last token is white space, or nothing
      obtain rfl := List.eq_nil_of_length_eq_zero hlength
      have hrest : w.toList ++ (spread [] []).toList = w.toList := by simp [spread]
      rw [hrest]
      apply Divides.lexeme
      · apply ht.before
        · intro c hc
          exact t.kind.growsBy_of_isBlank (hw c (List.mem_of_mem_head? hc))
        · intro hkind hopen
          have hempty := hend t rfl ⟨hkind, hopen⟩
          simpa using hempty
      · have hall := Divides.nil.blanks hw
        rwa [List.append_nil] at hall
    | cons u us =>
      rcases List.exists_cons_of_length_eq_add_one hlength with ⟨v, vs, rfl⟩
      rcases List.isChain_cons_cons.mp hapart with ⟨hfirst, hapart⟩
      rcases hshape u List.mem_cons_self with ⟨_, hu⟩
      apply Divides.lexeme
      · apply ht.before
        · exact growsBy_spread hu.ne_nil hw hfirst
        · intro hkind hopen
          cases hshaped.eq_nil_of_unclosed [] t (u :: us) rfl ⟨hkind, hopen⟩
      · apply Divides.blanks hw
        refine ih hlength hshaped.tail hblank hapart ?_
        simpa using hend

/-- White space that is nowhere empty but at the end keeps all tokens apart. -/
theorem isChain_of_apart {ts : List Token} {ws : List String} (hlength : ws.length = ts.length)
    (h : ∀ w ∈ ws.dropLast, w ≠ "") :
    (ts.zip ws).IsChain fun x y => x.2 ≠ "" ∨ x.1.Adjoins y.1 := by
  induction ts generalizing ws with
  | nil => exact .nil
  | cons t ts ih =>
    rcases List.exists_cons_of_length_eq_add_one hlength with ⟨w, ws, rfl⟩
    have hlength : ws.length = ts.length := by simpa using hlength
    -- the last white space is in no pair of neighbours, so it may be empty
    cases ts with
    | nil =>
      obtain rfl := List.eq_nil_of_length_eq_zero hlength
      exact .singleton _
    | cons u us =>
      rcases List.exists_cons_of_length_eq_add_one hlength with ⟨v, vs, rfl⟩
      refine .cons_cons (.inl (h w (by simp))) (ih hlength ?_)
      intro x hx
      exact h x (by simp [hx])

namespace TokenSeq

variable {strict : Strictness} {line : String} {number : Int} {s : TokenSeq}

/-- Whether a token is allowed depends on its kind and text. -/
theorem allowed_of_face_eq {t u : Token} (h : t.face = u.face) (ht : t.Allowed strict) :
    u.Allowed strict := by
  rcases Prod.mk.inj h with ⟨hkind, htext⟩
  constructor
  · rw [Token.Malformed, ← hkind, ← htext]
    exact ht.number
  · rw [Token.Unclosed, ← hkind, ← htext]
    exact ht.literal

/-- A line that divides as another one does has the same tokens, whatever its number. -/
theorem exists_ofLine_of_divides (hs : ofLine strict line number = .ok s) {line' : String}
    (h : Divides line'.toList (s.body.map Token.face)) (number' : Int) :
    ∃ s', ofLine strict line' number' = .ok s' ∧
      s'.body.map Token.face = s.body.map Token.face := by
  rcases exists_scan_of_divides h (.ofIndex number' 0) with ⟨s', hs', hfaces⟩
  -- a strict scan lets the tokens pass that it let pass before
  refine ⟨s', scan_eq_ok_iff_allowed.mpr ⟨hs', ?_⟩, hfaces⟩
  intro t ht
  have hmem : t.face ∈ s.body.map Token.face := hfaces ▸ List.mem_map_of_mem ht
  rcases List.mem_map.mp hmem with ⟨u, hu, hface⟩
  exact allowed_of_face_eq hface ((scan_eq_ok_iff_allowed.mp hs).2 u hu)

/-- A line that tokens of a line make with other white space has the same tokens, if none of them
runs into the next one. -/
theorem exists_ofLine_spread (hs : ofLine strict line number = .ok s) {before : String}
    {after : List String} (hlength : after.length = s.body.length)
    (hblank : ∀ w ∈ before :: after, ∀ c ∈ w.toList, Text.isBlank c = true)
    (hapart : (s.body.zip after).IsChain fun x y => x.2 ≠ "" ∨ x.1.Adjoins y.1)
    (hend : ∀ t ∈ s.body.getLast?, t.Unclosed → after.getLast? = some "") (number' : Int) :
    ∃ s', ofLine strict (before ++ spread s.body after) number' = .ok s' ∧
      s'.body.map Token.face = s.body.map Token.face := by
  have hshaped := (tiles_of_ofLine hs).1.shaped
  rcases List.forall_mem_cons.mp hblank with ⟨hbefore, hafter⟩
  apply exists_ofLine_of_divides hs
  rw [String.toList_append]
  exact (divides_spread hlength hshaped hafter hapart hend).blanks hbefore

/-- A line that is laid out anew has the tokens that it had before, whatever its number. -/
theorem exists_ofLine_layout (hs : ofLine strict line number = .ok s) (layout : Layout s.body)
    (number' : Int) :
    ∃ s', ofLine strict layout.line number' = .ok s' ∧
      s'.body.map Token.face = s.body.map Token.face :=
  exists_ofLine_spread hs layout.length_eq layout.blank
    (isChain_of_apart layout.length_eq layout.apart) layout.open_end number'

end TokenSeq

end PrintfLint
