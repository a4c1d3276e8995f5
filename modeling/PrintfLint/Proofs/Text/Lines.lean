import Mathlib.Data.Bool.AllAny
import Mathlib.Data.List.TakeWhile
import PrintfLint.Text.Lines

/-!
# PrintfLint.Proofs.Text.Lines — the lines of a text

* `Unbroken` — characters without a line break;
* `breaks_induction` — a text is unbroken, or goes on after a first line break;
* `unbroken_of_mem_lines` — lines are unbroken;
* `lines_append_newline` — a text in two parts with a line feed between them has the lines of both;
* `lines_joinBreaks` — it does not matter how a line break is written.

A carriage return takes a line feed after it with it. So a text may not be cut between the two, and
every cut below is made behind a line feed.
-/

namespace PrintfLint.Text

/-- No character is a line break. -/
def Unbroken (cs : List Char) : Prop :=
  ∀ c ∈ cs, isBreak c = false

theorem Unbroken.append {cs ds : List Char} (hcs : Unbroken cs) (hds : Unbroken ds) :
    Unbroken (cs ++ ds) := by
  intro c hc
  rcases List.mem_append.mp hc with hc | hc
  · exact hcs c hc
  · exact hds c hc

theorem unbroken_intercalate {sep : String} (hsep : Unbroken sep.toList) {ss : List String}
    (hss : ∀ s ∈ ss, Unbroken s.toList) : Unbroken (sep.intercalate ss).toList := by
  induction ss with
  | nil =>
    intro c hc
    cases hc
  | cons s ss ih =>
    have hs : Unbroken s.toList := hss s List.mem_cons_self
    have hrest := ih fun t ht => hss t (List.mem_cons_of_mem s ht)
    -- no separator stands behind the last text
    cases ss with
    | nil => rwa [String.intercalate_singleton]
    | cons t ss =>
      rw [String.intercalate_cons_cons, String.toList_append, String.toList_append]
      exact (hs.append hsep).append hrest

/-! ## First line breaks -/

theorem Unbroken.beforeBreak_append {line : List Char} (h : Unbroken line) {b : Char}
    (hb : isBreak b = true) (rest : List Char) :
    beforeBreak (line ++ b :: rest) = line ∧ fromBreak (line ++ b :: rest) = b :: rest := by
  have hline : ∀ c ∈ line, (!isBreak c) = true := by
    intro c hc
    rw [h c hc]
    rfl
  constructor
  · rw [beforeBreak, List.takeWhile_append_of_pos hline, List.takeWhile_cons_of_neg (by simp [hb]),
      List.append_nil]
  · rw [fromBreak, List.dropWhile_append_of_pos hline, List.dropWhile_cons_of_neg (by simp [hb])]

theorem fromBreak_eq_nil_iff {cs : List Char} : fromBreak cs = [] ↔ Unbroken cs := by
  simp [fromBreak, Unbroken, List.dropWhile_eq_nil_iff]

theorem unbroken_beforeBreak (cs : List Char) : Unbroken (beforeBreak cs) := by
  intro c hc
  simpa using List.mem_takeWhile_imp hc

/-- A text is unbroken, or it is an unbroken line, a line break and what comes after that. -/
@[elab_as_elim]
theorem breaks_induction {motive : List Char → Prop}
    (unbroken : ∀ cs, Unbroken cs → motive cs)
    (broken : ∀ line b rest, Unbroken line → isBreak b = true → motive (afterBreak (b :: rest)) →
      motive (line ++ b :: rest)) (cs : List Char) : motive cs := by
  -- by the length, since the rest starts behind the break and is no part that a list is built from
  induction hlength : cs.length using Nat.strong_induction_on generalizing cs with
  | _ n ih =>
    cases hfrom : fromBreak cs with
    | nil => exact unbroken cs (fromBreak_eq_nil_iff.mp hfrom)
    | cons b rest =>
      have hparts : beforeBreak cs ++ b :: rest = cs := by
        rw [← hfrom]
        exact List.takeWhile_append_dropWhile
      have hb : isBreak b = true := by
        have hhead := List.head?_dropWhile_not (fun c => !isBreak c) cs
        rw [← fromBreak, hfrom] at hhead
        simpa using hhead
      have hshorter : (afterBreak (b :: rest)).length < n := by
        have hafter := afterBreak_length_lt b rest
        have hle := fromBreak_length_le cs
        rw [hfrom] at hle
        omega
      rw [← hparts]
      exact broken _ b rest (unbroken_beforeBreak cs) hb (ih _ hshorter _ rfl)

/-! ## Lines -/

theorem charLines_nil : charLines [] = [] := by
  rw [charLines]
  rfl

theorem charLines_of_unbroken {cs : List Char} (h : Unbroken cs) (hne : cs ≠ []) :
    charLines cs = [cs] := by
  rw [charLines]
  split
  · simp [hne]
  · rename_i hfrom
    rw [fromBreak_eq_nil_iff.mpr h] at hfrom
    cases hfrom

theorem charLines_append_break {line : List Char} (h : Unbroken line) {b : Char}
    (hb : isBreak b = true) (rest : List Char) :
    charLines (line ++ b :: rest) = line :: charLines (afterBreak (b :: rest)) := by
  rcases h.beforeBreak_append hb rest with ⟨hbefore, hfrom⟩
  rw [charLines]
  -- the text has a break, so it is cut there
  split
  · rename_i hnil
    rw [hfrom] at hnil
    cases hnil
  · rename_i b' rest' hcons
    rw [hfrom] at hcons
    cases hcons
    rw [hbefore]

theorem unbroken_of_mem_charLines {cs line : List Char} (h : line ∈ charLines cs) :
    Unbroken line := by
  induction cs using breaks_induction with
  | unbroken cs hcs =>
    -- a text without a break is one line, or none if it is empty
    by_cases hne : cs = []
    · rw [hne, charLines_nil] at h
      cases h
    · rw [charLines_of_unbroken hcs hne, List.mem_singleton] at h
      rwa [h]
  | broken first b rest hfirst hb ih =>
    rw [charLines_append_break hfirst hb, List.mem_cons] at h
    rcases h with rfl | h
    · exact hfirst
    · exact ih h

/-! ## Texts in parts -/

theorem afterBreak_pair (rest : List Char) : afterBreak ('\r' :: '\n' :: rest) = rest := by
  rw [afterBreak]

theorem afterBreak_of_not_pair {b : Char} {rest : List Char}
    (h : b = '\r' → rest.head? ≠ some '\n') : afterBreak (b :: rest) = rest := by
  unfold afterBreak
  split
  · rename_i heq
    rw [List.cons_eq_cons] at heq
    rcases heq with ⟨rfl, rfl⟩
    exact absurd rfl (h rfl)
  · rename_i heq
    rw [List.cons_eq_cons] at heq
    exact heq.2.symm
  · rename_i heq
    cases heq

theorem afterBreak_newline (rest : List Char) : afterBreak ('\n' :: rest) = rest :=
  afterBreak_of_not_pair fun h => absurd h (by decide)

/-- A line feed that is added behind stays behind the first line break, unless that is a carriage
return with nothing after it. -/
theorem afterBreak_append_newline {b : Char} {rest : List Char}
    (h : ¬ (b = '\r' ∧ rest = [])) (behind : List Char) :
    afterBreak (b :: (rest ++ '\n' :: behind)) = afterBreak (b :: rest) ++ '\n' :: behind := by
  -- the added line feed belongs to a carriage return only if nothing stands between them
  cases rest with
  | nil =>
    have hb : b ≠ '\r' := fun hb => h ⟨hb, rfl⟩
    rw [afterBreak_of_not_pair (absurd · hb), afterBreak_of_not_pair (absurd · hb)]
  | cons c rest =>
    by_cases hpair : b = '\r' ∧ c = '\n'
    · rcases hpair with ⟨rfl, rfl⟩
      rw [List.cons_append, afterBreak_pair, afterBreak_pair]
    · have hnot : b = '\r' → some c ≠ some '\n' := fun hb hc => hpair ⟨hb, Option.some.inj hc⟩
      rw [afterBreak_of_not_pair hnot, List.cons_append, afterBreak_of_not_pair hnot]
      rfl

/-- A text with a line feed in it has the lines up to the line feed, and the lines after it. -/
theorem charLines_append_newline (a b : List Char) :
    charLines (a ++ '\n' :: b) = charLines (a ++ ['\n']) ++ charLines b := by
  have hfeed : isBreak '\n' = true := rfl
  induction a using breaks_induction with
  | unbroken a ha =>
    rw [charLines_append_break ha hfeed, charLines_append_break ha hfeed, afterBreak_newline,
      afterBreak_newline, charLines_nil]
    rfl
  | broken line c rest hline hc ih =>
    simp only [List.append_assoc, List.cons_append]
    rw [charLines_append_break hline hc, charLines_append_break hline hc, List.cons_append]
    congr 1
    by_cases hpair : c = '\r' ∧ rest = []
    · -- the line break takes the line feed with it, whatever comes after
      rcases hpair with ⟨rfl, rfl⟩
      simp only [List.nil_append, afterBreak_pair, charLines_nil]
    · rw [afterBreak_append_newline hpair, afterBreak_append_newline hpair]
      exact ih

/-! ## Line breaks written otherwise -/

theorem joinBreaks_of_unbroken {cs : List Char} (h : Unbroken cs) : joinBreaks cs = cs := by
  rw [joinBreaks]
  split
  · rfl
  · rename_i hfrom
    rw [fromBreak_eq_nil_iff.mpr h] at hfrom
    cases hfrom

theorem joinBreaks_append_break {line : List Char} (h : Unbroken line) {b : Char}
    (hb : isBreak b = true) (rest : List Char) :
    joinBreaks (line ++ b :: rest) = line ++ '\n' :: joinBreaks (afterBreak (b :: rest)) := by
  rcases h.beforeBreak_append hb rest with ⟨hbefore, hfrom⟩
  rw [joinBreaks]
  split
  · rename_i hnil
    rw [hfrom] at hnil
    cases hnil
  · rename_i b' rest' hcons
    rw [hfrom] at hcons
    cases hcons
    rw [hbefore]

theorem charLines_joinBreaks (cs : List Char) : charLines (joinBreaks cs) = charLines cs := by
  induction cs using breaks_induction with
  | unbroken cs hcs => rw [joinBreaks_of_unbroken hcs]
  | broken line b rest hline hb ih =>
    have hfeed : isBreak '\n' = true := rfl
    rw [joinBreaks_append_break hline hb, charLines_append_break hline hfeed, afterBreak_newline,
      ih, charLines_append_break hline hb]

/-- Nothing is dropped at the end of an unbroken line. -/
theorem trimBreaks_of_unbroken {line : String} (h : Unbroken line.toList) :
    trimBreaks line = line := by
  have hkeep : line.toList.reverse.dropWhile isBreak = line.toList.reverse := by
    cases hreverse : line.toList.reverse with
    | nil => rfl
    | cons c rest =>
      have hc : c ∈ line.toList := by
        rw [← List.mem_reverse, hreverse]
        exact List.mem_cons_self
      rw [List.dropWhile_cons_of_neg (by simp [h c hc])]
  rw [trimBreaks, hkeep, List.reverse_reverse, String.ofList_toList]

/-! ## Lines of a source text -/

theorem unbroken_of_mem_lines {source line : String} (h : line ∈ lines source) :
    Unbroken line.toList := by
  rcases List.mem_map.mp h with ⟨cs, hcs, rfl⟩
  rw [String.toList_ofList]
  exact unbroken_of_mem_charLines hcs

/-- The lines of two texts with a line feed between them are those of the first, with the line feed,
and those of the second. -/
theorem lines_append_newline (a b : String) :
    lines (a ++ "\n" ++ b) = lines (a ++ "\n") ++ lines b := by
  have hfeed : "\n".toList = ['\n'] := rfl
  have hsplit := charLines_append_newline a.toList b.toList
  simp only [lines, String.toList_append, hfeed, List.append_assoc, List.cons_append,
    List.nil_append, hsplit, List.map_append]

/-- A text has the same lines if every line break is written as a line feed. -/
theorem lines_joinBreaks (source : String) :
    lines (String.ofList (joinBreaks source.toList)) = lines source := by
  rw [lines, lines, String.toList_ofList, charLines_joinBreaks]

end PrintfLint.Text
