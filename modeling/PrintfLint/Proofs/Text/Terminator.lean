import Mathlib.Data.List.Chain
import PrintfLint.Proofs.Text.Lines

/-!
# PrintfLint.Proofs.Text.Terminator — lines and how they end

* `Terminator`, `EndedLine` — the three ways to end a line, and a line that ends in one of them;
* `joined` — a text that is written line by line;
* `EndedLine.Apart` — two lines whose ends stay apart;
* `charLines_append_terminator` — one line and its end are taken off the front of a text;
* `lines_joined` — the lines of a text are those that it was written from, and the lines of any text
  can be written as a text that has the same lines.

A carriage return takes a line feed after it with it. That line feed is the end of an empty line, so
the only lines that run into each other are one that ends in a carriage return and an empty one
that ends in a line feed.
-/

namespace PrintfLint.Text

/-- The ways to end a line. -/
inductive Terminator where
  | feed
  | carriage
  | pair
deriving DecidableEq, Repr

/-- The characters of a line end. -/
def Terminator.chars : Terminator → List Char
  | feed => ['\n']
  | carriage => ['\r']
  | pair => ['\r', '\n']

/-- A line and how it ends. -/
structure EndedLine where
  content : String
  terminator : Terminator
deriving DecidableEq, Repr

namespace EndedLine

/-- The characters of a line with its end. -/
def chars (l : EndedLine) : List Char :=
  l.content.toList ++ l.terminator.chars

/-- The second line does not add a line feed to a carriage return at the end of the first. -/
def Apart (l m : EndedLine) : Prop :=
  l.terminator = .carriage → ¬ (m.content = "" ∧ m.terminator = .feed)

/-- No line with a content starts with a line feed, and an empty one only if it ends in that. -/
theorem head?_chars_ne {l : EndedLine} (hl : Unbroken l.content.toList)
    (hempty : ¬ (l.content = "" ∧ l.terminator = .feed)) (rest : List Char) :
    (l.chars ++ rest).head? ≠ some '\n' := by
  rcases l with ⟨content, terminator⟩
  simp only [chars]
  -- an empty line starts with its end, and another one with a character that is no break
  cases hcontent : content.toList with
  | nil =>
    have hcontent : content = "" := String.toList_eq_nil_iff.mp hcontent
    cases terminator with
    | feed => exact absurd ⟨hcontent, rfl⟩ hempty
    | carriage => simp [Terminator.chars]
    | pair => simp [Terminator.chars]
  | cons c cs =>
    have hc : isBreak c = false := hl c (by simp [hcontent])
    intro heq
    cases heq
    cases hc

end EndedLine

/-- The characters of lines with their ends. -/
def joinedChars (ls : List EndedLine) : List Char :=
  ls.flatMap EndedLine.chars

/-- A text of lines with their ends. -/
def joined (ls : List EndedLine) : String :=
  String.ofList (joinedChars ls)

/-- The first line of a text ends where its end is, if the text goes on with no line feed that
belongs to a carriage return. -/
theorem charLines_append_terminator {line : List Char} (h : Unbroken line) (e : Terminator)
    {rest : List Char} (hrest : e = .carriage → rest.head? ≠ some '\n') :
    charLines (line ++ (e.chars ++ rest)) = line :: charLines rest := by
  -- behind the first character of an end, a line feed may belong to it or not
  cases e with
  | feed =>
    have hsplit := charLines_append_break h (b := '\n') rfl rest
    rwa [afterBreak_newline] at hsplit
  | carriage =>
    have hsplit := charLines_append_break h (b := '\r') rfl rest
    rwa [afterBreak_of_not_pair fun _ => hrest rfl] at hsplit
  | pair =>
    have hsplit := charLines_append_break h (b := '\r') rfl ('\n' :: rest)
    rwa [afterBreak_pair] at hsplit

/-- What is written line by line, with unbroken characters behind it, has these lines and that of
the characters. -/
theorem charLines_joinedChars {ls : List EndedLine}
    (hls : ∀ l ∈ ls, Unbroken l.content.toList) (happart : ls.IsChain EndedLine.Apart)
    {last : List Char} (hlast : Unbroken last) :
    charLines (joinedChars ls ++ last) =
      ls.map (fun l => l.content.toList) ++ charLines last := by
  induction ls with
  | nil => rfl
  | cons l ls ih =>
    rcases List.forall_mem_cons.mp hls with ⟨hl, hls⟩
    rcases List.isChain_cons.mp happart with ⟨hnext, happart⟩
    -- only the line behind this one could give its line feed to a carriage return
    have hrest : l.terminator = .carriage → (joinedChars ls ++ last).head? ≠ some '\n' := by
      intro hcarriage
      cases ls with
      | nil =>
        intro heq
        have hbreak := hlast '\n' (List.mem_of_mem_head? heq)
        cases hbreak
      | cons m ls =>
        have hm := EndedLine.head?_chars_ne (hls m List.mem_cons_self) (hnext m rfl hcarriage)
        rw [joinedChars, List.flatMap_cons, List.append_assoc]
        exact hm _
    have htext : joinedChars (l :: ls) ++ last =
        l.content.toList ++ (l.terminator.chars ++ (joinedChars ls ++ last)) := by
      simp only [joinedChars, List.flatMap_cons, EndedLine.chars, List.append_assoc]
    rw [htext, charLines_append_terminator hl _ hrest, ih hls happart, List.map_cons,
      List.cons_append]

/-- The text that is written line by line, with one more line behind it. -/
theorem lines_joined_append {ls : List EndedLine} (hls : ∀ l ∈ ls, Unbroken l.content.toList)
    (happart : ls.IsChain EndedLine.Apart) {last : String} (hlast : Unbroken last.toList) :
    lines (joined ls ++ last) = ls.map EndedLine.content ++ lines last := by
  rw [lines, joined, String.toList_append, String.toList_ofList,
    charLines_joinedChars hls happart hlast, List.map_append, List.map_map]
  congr 1
  apply List.map_congr_left
  intro l _
  exact String.ofList_toList

theorem lines_empty : lines "" = [] := by
  rw [lines, String.toList_empty, charLines_nil]
  rfl

/-- A line that is not empty is the only line of itself. -/
theorem lines_of_unbroken {line : String} (h : Unbroken line.toList) (hne : line ≠ "") :
    lines line = [line] := by
  have hchars : line.toList ≠ [] := fun hnil => hne (String.toList_eq_nil_iff.mp hnil)
  rw [lines, charLines_of_unbroken h hchars, List.map_singleton, String.ofList_toList]

/-- Lines that all end in line feeds stay apart. -/
theorem isChain_apart_feed (ls : List String) :
    (ls.map fun l => EndedLine.mk l .feed).IsChain EndedLine.Apart := by
  rw [List.isChain_map]
  apply List.Pairwise.isChain
  apply List.pairwise_of_forall
  intro l m hcarriage
  cases hcarriage

/-- A text that is written line by line, each line with an end of its own, has these lines, unless
a carriage return takes the end of an empty line with it. The end of the last line may be missing if
that is not empty. All lines of any text are unbroken, and are the lines of the text that is written
from them with line feeds. -/
theorem lines_joined :
    (∀ ls : List EndedLine, (∀ l ∈ ls, Unbroken l.content.toList) → ls.IsChain EndedLine.Apart →
      lines (joined ls) = ls.map EndedLine.content ∧
      ∀ last : String, Unbroken last.toList → last ≠ "" →
        lines (joined ls ++ last) = ls.map EndedLine.content ++ [last]) ∧
    ∀ source : String, (∀ line ∈ lines source, Unbroken line.toList) ∧
      lines (joined ((lines source).map fun line => ⟨line, .feed⟩)) = lines source := by
  -- the last line may be empty, and then it is no line
  have hends : ∀ ls : List EndedLine, (∀ l ∈ ls, Unbroken l.content.toList) →
      ls.IsChain EndedLine.Apart → lines (joined ls) = ls.map EndedLine.content := by
    intro ls hls happart
    have hempty : Unbroken "".toList := by simp [Unbroken]
    have hjoined := lines_joined_append hls happart hempty
    rwa [String.append_empty, lines_empty, List.append_nil] at hjoined
  constructor
  · intro ls hls happart
    refine ⟨hends ls hls happart, ?_⟩
    intro last hlast hne
    rw [lines_joined_append hls happart hlast, lines_of_unbroken hlast hne]
  · intro source
    have hunbroken : ∀ line ∈ lines source, Unbroken line.toList :=
      fun line hline => unbroken_of_mem_lines hline
    refine ⟨hunbroken, ?_⟩
    rw [hends _ (by simpa using hunbroken) (isChain_apart_feed (lines source)), List.map_map]
    exact List.map_id _

/-- Three of the four lines end in three ways, and the last one not at all. A form feed and a line
separator are characters like any other. -/
theorem lines_joined_threeWays :
    joined [⟨"a\x0cb", .carriage⟩, ⟨"", .pair⟩, ⟨"", .feed⟩] ++ "c\u2028d" =
        "a\x0cb\r\r\n\nc\u2028d" ∧
      lines "a\x0cb\r\r\n\nc\u2028d" = ["a\x0cb", "", "", "c\u2028d"] := by
  have htext : joined [⟨"a\x0cb", .carriage⟩, ⟨"", .pair⟩, ⟨"", .feed⟩] ++ "c\u2028d" =
      "a\x0cb\r\r\n\nc\u2028d" := by
    decide +kernel
  have hlines := lines_joined.1 [⟨"a\x0cb", .carriage⟩, ⟨"", .pair⟩, ⟨"", .feed⟩]
    (by simp [Unbroken, isBreak]) (by simp [EndedLine.Apart])
  have hall := hlines.2 "c\u2028d" (by simp [Unbroken, isBreak]) (by decide)
  rw [htext] at hall
  exact ⟨htext, hall⟩

/-- A carriage return does take the end of an empty line with it. -/
example : lines (joined [⟨"a", .carriage⟩, ⟨"", .feed⟩]) = ["a"] := by
  decide +kernel

end PrintfLint.Text
