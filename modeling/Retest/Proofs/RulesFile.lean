import Retest.Proofs.CatchAll
import Retest.Proofs.Encoding
import Retest.Proofs.FileTree
import Retest.Proofs.Lines

/-! What a rules file says is what is loaded from it: a rule for every line that is neither blank
nor a comment, or the number of the first such line whose pattern is none. Rules that are written
down line by line come back as they were. -/

namespace Retest

def RuleKind.mark : RuleKind → List Char
  | .plain => []
  | .includes => ['+', '+', ' ']
  | .excludes => ['-', '-', ' ']

namespace Rule

def Unmarked (s : List Char) : Prop :=
  ¬RuleKind.includes.mark <+: s ∧ ¬RuleKind.excludes.mark <+: s

instance (s : List Char) : Decidable (Unmarked s) := inferInstanceAs (Decidable (_ ∧ _))

theorem splitLine_marked (k : RuleKind) (hk : k ≠ .plain) (rest : List Char) :
    splitLine (k.mark ++ rest) = (k, rest) := by
  cases k with
  | plain => exact absurd rfl hk
  | includes => rfl
  | excludes => rfl

theorem splitLine_unmarked (line : List Char) (h : Unmarked line) :
    splitLine line = (.plain, line) := by
  rw [splitLine]
  · rintro rest rfl
    exact h.1 ⟨rest, rfl⟩
  · rintro rest rfl
    exact h.2 ⟨rest, rfl⟩

/-- What a line says: the mark of the kind and a source. What says a plain source begins with no
mark. -/
theorem splitLine_spec (line : List Char) :
    line = (splitLine line).1.mark ++ (splitLine line).2 ∧
      ((splitLine line).1 = .plain → Unmarked line) := by
  unfold splitLine
  split
  · exact ⟨rfl, fun hk => by cases hk⟩
  · exact ⟨rfl, fun hk => by cases hk⟩
  · next hplus hminus =>
    refine ⟨rfl, fun _ => ⟨?_, ?_⟩⟩
    · rintro ⟨rest, rfl⟩
      exact hplus rest rfl
    · rintro ⟨rest, rfl⟩
      exact hminus rest rfl

/-- A line says a rule: the mark of its kind and its source, which compiles to its pattern. What
says a plain rule begins with no mark. -/
structure SaidBy (r : Rule) (line : List Char) : Prop where
  compiled : r.Compiled
  text : line = r.kind.mark ++ r.source.toList
  unmarked : r.kind = .plain → Unmarked line

variable {line : List Char} {r : Rule}

theorem splitLine_of_saidBy (h : r.SaidBy line) : splitLine line = (r.kind, r.source.toList) := by
  by_cases hk : r.kind = .plain
  · have htext : line = r.source.toList := by rw [h.text, hk]; rfl
    rw [splitLine_unmarked line (h.unmarked hk), hk, ← htext]
  · rw [h.text, splitLine_marked r.kind hk]

/-- The rule on a line that is neither blank nor a comment is the one that the line says. -/
theorem ofLine_eq_ok_iff :
    ofLine line = some (.ok r) ↔ isIdleLine line = false ∧ r.SaidBy line := by
  rw [ofLine]
  cases hidle : isIdleLine line with
  | true => simp
  | false =>
    simp only [Bool.false_eq_true, if_false, Option.some.injEq, true_and]
    constructor
    · intro h
      obtain ⟨hkind, hsource, -⟩ := ofText_of_ofSource h
      obtain ⟨htext, hunmarked⟩ := splitLine_spec line
      refine ⟨compiled_of_ofSource h, ?_, fun hk => hunmarked (hkind.symm.trans hk)⟩
      rw [hkind, hsource, String.toList_ofList]
      exact htext
    · intro h
      rw [splitLine_of_saidBy h, String.ofList_toList]
      exact h.compiled

theorem ofLine_eq_none_iff : ofLine line = none ↔ isIdleLine line = true := by
  rw [ofLine]
  cases isIdleLine line <;> simp

/-- A line that is blank or a comment stays so without a carriage return at its end. -/
theorem isIdleLine_of_append_return (h : isIdleLine (line ++ ['\r']) = true) :
    isIdleLine line = true := by
  cases line with
  | nil => rfl
  | cons c line =>
    simp only [isIdleLine, List.cons_append, List.all_cons, List.all_append, List.head?_cons,
      Bool.or_eq_true, Bool.and_eq_true] at h ⊢
    tauto

def toLine (r : Rule) : List Char := r.kind.mark ++ r.source.toList

/-- A rule can be written on a line: its source compiles, holds no line feed and does not end in a
carriage return. A plain source is not blank and begins neither like a comment nor with a mark. -/
structure Expressible (r : Rule) : Prop where
  compiled : r.Compiled
  oneLine : '\n' ∉ r.source.toList
  noReturn : r.source.toList.getLast? ≠ some '\r'
  plain : r.kind = .plain → isIdleLine r.source.toList = false ∧ Unmarked r.source.toList

namespace Expressible

variable (h : r.Expressible)
include h

theorem saidBy : r.SaidBy r.toLine where
  compiled := h.compiled
  text := rfl
  unmarked hk := by
    rw [Rule.toLine, hk]
    exact (h.plain hk).2

/-- A mark makes a line neither blank nor a comment. -/
theorem isIdleLine_toLine : isIdleLine r.toLine = false := by
  cases hk : r.kind with
  | plain =>
    rw [Rule.toLine, hk]
    exact (h.plain hk).1
  | includes =>
    rw [Rule.toLine, hk]
    rfl
  | excludes =>
    rw [Rule.toLine, hk]
    rfl

theorem ofLine_toLine : ofLine r.toLine = some (.ok r) :=
  ofLine_eq_ok_iff.mpr ⟨h.isIdleLine_toLine, h.saidBy⟩

theorem not_mem_toLine : '\n' ∉ r.toLine := by
  have hmark : '\n' ∉ r.kind.mark := by cases r.kind <;> decide
  exact fun hm => (List.mem_append.mp hm).elim hmark h.oneLine

theorem getLast_toLine : r.toLine.getLast? ≠ some '\r' := by
  have hmark : r.kind.mark.getLast? ≠ some '\r' := by cases r.kind <;> decide
  rw [Rule.toLine, List.getLast?_append]
  cases hs : r.source.toList.getLast? with
  | none => exact hmark
  | some c => exact fun hc => h.noReturn (hs.trans hc)

theorem toLine_ne_nil : r.toLine ≠ [] := by
  intro hnil
  have hidle := h.isIdleLine_toLine
  rw [hnil] at hidle
  cases hidle

end Expressible

end Rule

namespace RuleBook

/-- A text in which some rules are written, one on a line. Between them, before and behind stand
blank lines and comments. Every line is ended, only the last one need not be. -/
inductive Written : List Rule → List Char → Prop
  | lastIdle (line : List Char) (hidle : Rule.isIdleLine line = true) (hline : '\n' ∉ line) :
    Written [] line
  | lastRule (r : Rule) (hr : r.Expressible) : Written [r] r.toLine
  | idle {rules : List Rule} {text : List Char} (line e : List Char)
    (hidle : Rule.isIdleLine line = true) (hline : '\n' ∉ line) (he : IsLineEnd e)
    (h : Written rules text) : Written rules (line ++ e ++ text)
  | rule {rules : List Rule} {text : List Char} (r : Rule) (e : List Char) (hr : r.Expressible)
    (he : IsLineEnd e) (h : Written rules text) : Written (r :: rules) (r.toLine ++ e ++ text)

section Reading

variable (file : Path)

/-- Lines are read to the end, or up to the first one that is not idle and says no rule. -/
theorem readLines_cases (number : Nat) (lines : List (List Char)) :
    (∃ rules, readLines file number lines = .ok rules ∧
      List.Forall₂ (fun line r => r.SaidBy line)
        (lines.filter fun line => !Rule.isIdleLine line) rules) ∨
    ∃ before line after reason, lines = before ++ line :: after ∧
      (∀ l ∈ before, Rule.isIdleLine l = true ∨ ∃ r : Rule, r.SaidBy l) ∧
      Rule.ofLine line = some (.error reason) ∧
      readLines file number lines = .error (.badPattern file (number + before.length) reason) := by
  induction lines generalizing number with
  | nil => exact Or.inl ⟨[], rfl, .nil⟩
  | cons line lines ih =>
    cases hline : Rule.ofLine line with
    | none =>
      have hidle : Rule.isIdleLine line = true := Rule.ofLine_eq_none_iff.mp hline
      -- A line that says no rule is counted all the same.
      have hskip : readLines file number (line :: lines) = readLines file (number + 1) lines := by
        rw [readLines, hline]
      rcases ih (number + 1) with ⟨rules, hread, hsaid⟩ |
        ⟨before, bad, after, reason, hlines, hbefore, hbad, hread⟩
      · refine Or.inl ⟨rules, hskip.trans hread, ?_⟩
        rwa [List.filter_cons_of_neg (by simp [hidle])]
      · refine Or.inr ⟨line :: before, bad, after, reason, by rw [hlines]; rfl, ?_, hbad, ?_⟩
        · exact List.forall_mem_cons.mpr ⟨Or.inl hidle, hbefore⟩
        · rw [hskip, hread, List.length_cons, Nat.add_right_comm, Nat.add_assoc]
    | some result =>
      cases result with
      | error reason =>
        exact Or.inr ⟨[], line, lines, reason, rfl, by simp, hline, by rw [readLines, hline]; rfl⟩
      | ok r =>
        obtain ⟨hidle, hsays⟩ := Rule.ofLine_eq_ok_iff.mp hline
        have hskip : readLines file number (line :: lines) =
            (readLines file (number + 1) lines).map (r :: ·) := by
          rw [readLines, hline]
        rcases ih (number + 1) with ⟨rules, hread, hsaid⟩ |
          ⟨before, bad, after, reason, hlines, hbefore, hbad, hread⟩
        · refine Or.inl ⟨r :: rules, by rw [hskip, hread]; rfl, ?_⟩
          rw [List.filter_cons_of_pos (by simp [hidle])]
          exact .cons hsays hsaid
        · refine Or.inr ⟨line :: before, bad, after, reason, by rw [hlines]; rfl, ?_, hbad, ?_⟩
          · exact List.forall_mem_cons.mpr ⟨Or.inr ⟨r, hsays⟩, hbefore⟩
          · rw [hskip, hread, List.length_cons, Nat.add_right_comm, Nat.add_assoc]
            rfl

/-- Of a text in which rules are written, these rules are read. -/
theorem readLines_of_written {rules : List Rule} {text : List Char} (h : Written rules text)
    (number : Nat) : readLines file number (textLines text) = .ok rules := by
  induction h generalizing number with
  | lastIdle line hidle hline =>
    by_cases hne : line = []
    · rw [hne]
      rfl
    · rw [textLines_of_not_mem hline hne, readLines, Rule.ofLine_eq_none_iff.mpr hidle]
      rfl
  | lastRule r hr =>
    rw [textLines_of_not_mem hr.not_mem_toLine hr.toLine_ne_nil, readLines, hr.ofLine_toLine]
    rfl
  | idle line e hidle hline he _ ih =>
    -- An idle line may lose a carriage return of its own, and what is left of it is idle too.
    have hchomped : Rule.isIdleLine (chompLine (line ++ e)) = true := by
      rcases chompLine_cases line he with hsame | hreturn
      · rwa [hsame]
      · rw [hreturn] at hidle
        exact Rule.isIdleLine_of_append_return hidle
    rw [textLines_append hline he, readLines, Rule.ofLine_eq_none_iff.mpr hchomped]
    exact ih (number + 1)
  | rule r e hr he _ ih =>
    rw [textLines_append hr.not_mem_toLine he, chompLine_append he hr.getLast_toLine, readLines,
      hr.ofLine_toLine]
    simp only [ih (number + 1)]
    rfl

end Reading

section Reload

variable {b : RuleBook} {tree : FileTree} {file : Path} {text : List Char}

theorem readFile_of_read (hread : tree.read file = .ok (Utf8.encode text)) :
    readFile tree file = readText file text := by
  have hexists : tree.pathExists file = true := tree.pathExists_of_read file _ hread
  simp only [readFile, hexists, hread, Utf8.decode?_encode]
  rfl

theorem reload_of_read (hfile : b.file = some file)
    (hread : tree.read file = .ok (Utf8.encode text)) :
    b.reload tree = match readText file text with
      | .ok rules => ({ b with rules }, .ok ())
      | .error e => ({ b with rules := [] }, .error e) := by
  have hfound : readFile tree file = readText file text := readFile_of_read hread
  cases htext : readText file text with
  | ok rules => simp only [reload, hfile, hfound, htext]
  | error e => simp only [reload, hfile, hfound, htext]

theorem reload_of_written (hfile : b.file = some file)
    (hread : tree.read file = .ok (Utf8.encode text)) {rules : List Rule}
    (h : Written rules text) : b.reload tree = ({ b with rules }, .ok ()) := by
  rw [reload_of_read hfile hread, readText, readLines_of_written file h]

theorem reload_cases (hfile : b.file = some file)
    (hread : tree.read file = .ok (Utf8.encode text)) :
    (∃ rules, b.reload tree = ({ b with rules }, .ok ()) ∧
      List.Forall₂ (fun line r => r.SaidBy line)
        ((textLines text).filter fun line => !Rule.isIdleLine line) rules) ∨
    ∃ before line after reason, textLines text = before ++ line :: after ∧
      (∀ l ∈ before, Rule.isIdleLine l = true ∨ ∃ r : Rule, r.SaidBy l) ∧
      Rule.isIdleLine line = false ∧ (∀ r : Rule, ¬r.SaidBy line) ∧
      b.reload tree = ({ b with rules := [] },
        .error (.badPattern file (before.length + 1) reason)) := by
  rw [reload_of_read hfile hread, readText]
  rcases readLines_cases file 1 (textLines text) with ⟨rules, hrules, hsaid⟩ |
    ⟨before, line, after, reason, hlines, hbefore, hline, herror⟩
  · rw [hrules]
    exact Or.inl ⟨rules, rfl, hsaid⟩
  · have hidle : Rule.isIdleLine line = false := by
      rw [Bool.eq_false_iff]
      intro hidle
      rw [Rule.ofLine_eq_none_iff.mpr hidle] at hline
      cases hline
    have hno (r : Rule) : ¬r.SaidBy line := by
      intro hr
      rw [Rule.ofLine_eq_ok_iff.mpr ⟨hidle, hr⟩] at hline
      cases hline
    rw [herror, Nat.add_comm 1]
    exact Or.inr ⟨before, line, after, reason, hlines, hbefore, hidle, hno, rfl⟩

theorem reports_iff (b : RuleBook) (name : String) :
    b.reports name = true ↔ ∃ r ∈ b.rules, r.reports name = true := by
  rw [reports, List.any_eq_true]

/-- The order of the rules does not matter for what they report. -/
theorem reports_perm {b b' : RuleBook} (h : b.rules.Perm b'.rules) (name : String) :
    b.reports name = b'.reports name := by
  rw [Bool.eq_iff_iff, reports_iff, reports_iff]
  exact exists_congr fun r => and_congr_left fun _ => h.mem_iff

/-- From a file that can be read as text there is loaded one rule for every line that is neither
blank nor a comment, in order, each of them said by its line; or the first such line that says no
rule is named by its number, and no rule is left. Rules that are written in the file are loaded as
they were, whatever was loaded before. A name is reported when some rule reports it, in whatever
order the lines of the file are. -/
theorem reload_faithful (hfile : b.file = some file)
    (hread : tree.read file = .ok (Utf8.encode text)) :
    ((∃ rules, b.reload tree = ({ b with rules }, .ok ()) ∧
        List.Forall₂ (fun line r => r.SaidBy line)
          ((textLines text).filter fun line => !Rule.isIdleLine line) rules) ∨
      ∃ before line after reason, textLines text = before ++ line :: after ∧
        (∀ l ∈ before, Rule.isIdleLine l = true ∨ ∃ r : Rule, r.SaidBy l) ∧
        Rule.isIdleLine line = false ∧ (∀ r : Rule, ¬r.SaidBy line) ∧
        b.reload tree = ({ b with rules := [] },
          .error (.badPattern file (before.length + 1) reason))) ∧
    (∀ name, (b.reload tree).1.reports name = true ↔
      ∃ r ∈ (b.reload tree).1.rules, r.reports name = true) ∧
    ∀ rules, Written rules text → b.reload tree = ({ b with rules }, .ok ()) ∧
      (∀ name, (b.reload tree).1.reports name = true ↔ ∃ r ∈ rules, r.reports name = true) ∧
      ∀ (tree' : FileTree) (text' : List Char) (rules' : List Rule),
        tree'.read file = .ok (Utf8.encode text') → Written rules' text' → rules.Perm rules' →
          ∀ name, (b.reload tree').1.reports name = (b.reload tree).1.reports name := by
  refine ⟨reload_cases hfile hread, reports_iff _, fun rules hrules => ?_⟩
  have hloaded := reload_of_written hfile hread hrules
  refine ⟨hloaded, ?_, ?_⟩
  · rw [hloaded]
    exact reports_iff { b with rules }
  · intro tree' text' rules' hread' hrules' hperm
    rw [hloaded, reload_of_written hfile hread' hrules']
    exact reports_perm hperm.symm

end Reload

end RuleBook

namespace Ruled

def rule (kind : RuleKind) (source : String) (body : Regex.Pattern) : Rule where
  kind
  source
  pattern := .seq (.assertion .textStart) (.seq (.group false body) .empty)

def rules : List Rule :=
  [rule .includes "" .empty,
    rule .excludes "#a" (.seq (.oneOf (.single '#')) (.seq (.oneOf (.single 'a')) .empty)),
    rule .plain " b" (.seq (.oneOf (.single ' ')) (.seq (.oneOf (.single 'b')) .empty))]

theorem expressible_rules : ∀ r ∈ rules, r.Expressible := by
  have hcompiled : ∀ r ∈ rules, r.Compiled := by
    unfold Rule.Compiled
    decide +kernel
  have honeLine : ∀ r ∈ rules, '\n' ∉ r.source.toList := by decide
  have hnoReturn : ∀ r ∈ rules, r.source.toList.getLast? ≠ some '\r' := by decide
  have hplain : ∀ r ∈ rules, r.kind = .plain →
      Rule.isIdleLine r.source.toList = false ∧ Rule.Unmarked r.source.toList := by
    decide
  exact fun r hr => ⟨hcompiled r hr, honeLine r hr, hnoReturn r hr, hplain r hr⟩

def text : List Char := "# slow tests\r\n++ \n\n-- #a\r\n! \r\n  \t\n b".toList

theorem written_rules : RuleBook.Written rules text := by
  obtain ⟨hplus, hminus, hplain⟩ := by simpa [rules] using expressible_rules
  have hlast : RuleBook.Written [_] " b".toList := .lastRule _ hplain
  have hblank := hlast.idle "  \t".toList ['\n'] (by decide) (by decide) (Or.inl rfl)
  have hcomment := hblank.idle "! ".toList ['\r', '\n'] (by decide) (by decide) (Or.inr rfl)
  have hexcludes := hcomment.rule _ ['\r', '\n'] hminus (Or.inr rfl)
  have hempty := hexcludes.idle [] ['\n'] (by decide) (by decide) (Or.inl rfl)
  have hincludes := hempty.rule _ ['\n'] hplus (Or.inl rfl)
  exact hincludes.idle "# slow tests".toList ['\r', '\n'] (by decide) (by decide) (Or.inr rfl)

def tree : FileTree := ⟨.directory [("rules", .file (Utf8.encode text) default)], []⟩

def book : RuleBook where
  file := some ⟨"rules"⟩
  rules := [rule .plain "" .empty]

end Ruled

namespace RuleBook

/-- Rules whose sources are empty, look like a comment or begin with a blank come back from a file
with comments, blank lines and line ends of both forms. -/
theorem written_rules_come_back : Ruled.book.file = some ⟨"rules"⟩ ∧
    Ruled.tree.read ⟨"rules"⟩ = .ok (Utf8.encode Ruled.text) ∧ Written Ruled.rules Ruled.text ∧
    Ruled.book.reload Ruled.tree = ({ Ruled.book with rules := Ruled.rules }, .ok ()) := by
  have hread : Ruled.tree.read ⟨"rules"⟩ = .ok (Utf8.encode Ruled.text) := by decide +kernel
  have hfile : Ruled.book.file = some ⟨"rules"⟩ := rfl
  obtain ⟨-, -, hloads⟩ := reload_faithful hfile hread
  exact ⟨hfile, hread, Ruled.written_rules, (hloads _ Ruled.written_rules).1⟩

end RuleBook

end Retest
