/-
# Traceability.Proofs.Source.Layout -- layout and comments that count for nothing

Where a number sign starts a comment, the logic of a text does not change under
edits of its layout and of its comments: a blank line or a line that is nothing but
a comment may be put in or taken out, blanks may be put in front of a line or behind
it or taken away, a run of blanks may be replaced by another one, and a comment may
be put behind a line (`normalizeLogic_layoutEdit`).  So it is the same after any
number of such edits, and with it the fingerprint (`fingerprint_layoutEdits`).

A comment is put behind at least one blank: a number sign right behind a quote
starts none.
-/
import Traceability.Proofs.Source.LineComment
import Traceability.Source.Fingerprint
import Mathlib.Logic.Relation

namespace Traceability

set_option autoImplicit false

/-! ## Blanks at the ends -/

namespace Text

theorem isBlank_of_mem_space : ∀ c ∈ ([' '] : Text), isBlank c = true :=
  List.forall_mem_singleton.2 rfl

theorem dropEndWhile_append {p : Char → Bool} {back : Text} (all : ∀ c ∈ back, p c = true)
    (front : Text) : (front ++ back).dropEndWhile p = front.dropEndWhile p := by
  have reversed : ∀ c ∈ back.reverse, p c = true := fun c member =>
    all c (List.mem_reverse.1 member)
  rw [dropEndWhile, List.reverse_append, List.dropWhile_append_of_pos reversed, dropEndWhile]

theorem dropEndWhile_append_cons {p : Char → Bool} {c : Char} (stops : p c = false)
    (front back : Text) :
    (front ++ c :: back).dropEndWhile p = front ++ c :: back.dropEndWhile p := by
  simp only [dropEndWhile, List.reverse_append, List.reverse_cons, List.append_assoc,
    List.singleton_append]
  rw [List.dropWhile_append, List.dropWhile_cons_of_neg (by simp [stops])]
  split
  · rename_i none_
    rw [List.isEmpty_iff.1 none_]
    simp
  · simp

theorem trimLeft_append_cons {c : Char} (visible : isBlank c = false) (front back : Text) :
    (front ++ c :: back).trimLeft = front.trimLeft ++ c :: back := by
  rw [trimLeft, List.dropWhile_append, List.dropWhile_cons_of_neg (by simp [visible])]
  split
  · rename_i none_
    rw [trimLeft, List.isEmpty_iff.1 none_, List.nil_append]
  · rfl

/-- Only blanks separate a text from what is left without the blanks at its end. -/
theorem trimRight_prefix (text : Text) : text.trimRight <+: text := by
  rw [trimRight, dropEndWhile, ← List.reverse_suffix, List.reverse_reverse]
  exact List.dropWhile_suffix _

theorem trim_append {blanks : Text} (blank : ∀ c ∈ blanks, isBlank c = true) (text : Text) :
    (text ++ blanks).trim = text.trim := by
  rw [trim, trim, trimLeft, trimLeft, List.dropWhile_append]
  split
  · rename_i none_
    rw [List.isEmpty_iff.1 none_, ← trimLeft, trimLeft_of_blank blank]
  · exact dropEndWhile_append blank _

end Text

/-! ## Runs of blanks -/

theorem collapseBlanks_run {run : Text} (blank : ∀ c ∈ run, Text.isBlank c = true)
    (nonempty : run ≠ []) (inRun : Bool) (rest : Text) :
    collapseBlanks inRun (run ++ rest) =
      (if inRun then [] else [' ']) ++ collapseBlanks true rest := by
  induction run generalizing inRun with
  | nil => exact absurd rfl nonempty
  | cons c run ih =>
      obtain ⟨here, later⟩ := List.forall_mem_cons.1 blank
      have further : collapseBlanks true (run ++ rest) = collapseBlanks true rest := by
        cases run with
        | nil => rfl
        | cons d run => rw [ih later (List.cons_ne_nil d run)]; rfl
      rw [List.cons_append, collapseBlanks, if_pos here, further]
      cases inRun <;> rfl

/-- Two texts that are written alike may be put behind the same text. -/
theorem collapseBlanks_append_congr {rest other : Text}
    (same : ∀ inRun, collapseBlanks inRun rest = collapseBlanks inRun other) (front : Text)
    (inRun : Bool) :
    collapseBlanks inRun (front ++ rest) = collapseBlanks inRun (front ++ other) := by
  induction front generalizing inRun with
  | nil => exact same inRun
  | cons c front ih => simp only [List.cons_append, collapseBlanks, ih]

theorem collapseBlanks_append_cons {c : Char} (visible : Text.isBlank c = false)
    (inRun : Bool) (front back : Text) :
    collapseBlanks inRun (front ++ c :: back) =
      collapseBlanks inRun front ++ c :: collapseBlanks false back := by
  induction front generalizing inRun with
  | nil => simp only [List.nil_append, collapseBlanks, visible, if_neg Bool.false_ne_true]
  | cons d front ih =>
      simp only [List.cons_append, collapseBlanks, ih]
      cases Text.isBlank d <;> cases inRun <;> rfl

/-- Blanks at the end of a text give blanks. -/
theorem collapseBlanks_append_blanks {blanks : Text}
    (blank : ∀ c ∈ blanks, Text.isBlank c = true) (inRun : Bool) (front : Text) :
    ∃ tail, (∀ c ∈ tail, Text.isBlank c = true) ∧
      collapseBlanks inRun (front ++ blanks) = collapseBlanks inRun front ++ tail := by
  induction front generalizing inRun with
  | nil =>
      refine ⟨collapseBlanks inRun blanks, fun c member => ?_, rfl⟩
      rcases mem_collapseBlanks member with rfl | old
      · decide
      · exact blank c old
  | cons d front ih =>
      simp only [List.cons_append, collapseBlanks]
      split
      · obtain ⟨tail, blank, parts⟩ := ih true
        refine ⟨tail, blank, ?_⟩
        rw [parts]
        split <;> rfl
      · obtain ⟨tail, blank, parts⟩ := ih false
        exact ⟨tail, blank, by rw [parts]; rfl⟩

/-! ## Layout of a line -/

/-- A run of blanks counts like any other. -/
theorem normalizeLine_run {run other : Text} (blank : ∀ c ∈ run, Text.isBlank c = true)
    (nonempty : run ≠ []) (blank' : ∀ c ∈ other, Text.isBlank c = true) (nonempty' : other ≠ [])
    (front rest : Text) :
    normalizeLine (front ++ (run ++ rest)) = normalizeLine (front ++ (other ++ rest)) := by
  rw [normalizeLine, normalizeLine, collapseBlanks_append_congr]
  intro inRun
  rw [collapseBlanks_run blank nonempty, collapseBlanks_run blank' nonempty']

theorem normalizeLine_blanks_append {blanks : Text}
    (blank : ∀ c ∈ blanks, Text.isBlank c = true) (line : Text) :
    normalizeLine (blanks ++ line) = normalizeLine line := by
  -- Whether blanks stand in front only decides about a space at the beginning.
  have same : (collapseBlanks true line).trimLeft = (collapseBlanks false line).trimLeft := by
    cases line with
    | nil => rfl
    | cons c rest =>
        rw [collapseBlanks, collapseBlanks]
        split
        · exact (Text.trimLeft_append Text.isBlank_of_mem_space _).symm
        · rfl
  by_cases nonempty : blanks = []
  · rw [nonempty, List.nil_append]
  · rw [normalizeLine, Text.trim, collapseBlanks_run blank nonempty, if_neg Bool.false_ne_true,
      Text.trimLeft_append Text.isBlank_of_mem_space, same]
    rfl

theorem normalizeLine_append_blanks {blanks : Text}
    (blank : ∀ c ∈ blanks, Text.isBlank c = true) (line : Text) :
    normalizeLine (line ++ blanks) = normalizeLine line := by
  obtain ⟨tail, blank, parts⟩ := collapseBlanks_append_blanks blank false line
  rw [normalizeLine, parts, Text.trim_append blank, normalizeLine]

/-- In front of a visible character a line is trimmed at the left, behind it at the right. -/
theorem normalizeLine_append_cons {c : Char} (visible : Text.isBlank c = false)
    (front back : Text) : normalizeLine (front ++ c :: back) =
      (collapseBlanks false front).trimLeft ++ c :: (collapseBlanks false back).trimRight := by
  rw [normalizeLine, collapseBlanks_append_cons visible, Text.trim,
    Text.trimLeft_append_cons visible]
  exact Text.dropEndWhile_append_cons visible _ _

theorem mem_normalizeLine {line : Text} {c : Char} (member : c ∈ normalizeLine line) :
    c = ' ' ∨ c ∈ line :=
  mem_collapseBlanks ((List.dropWhile_suffix _).subset ((Text.trimRight_prefix _).subset member))

/-! ## Logic of a line -/

section

variable {style : CommentStyle}

theorem not_mem_logicOf {line : Text} (free : '\n' ∉ line) : '\n' ∉ logicOf style line := by
  intro feed
  rcases mem_normalizeLine feed with space | among
  · exact absurd space (by decide)
  · exact free (mem_of_mem_dropLineComment among)

theorem logicOf_blanks_append {blanks : Text} (blank : ∀ c ∈ blanks, Text.isBlank c = true)
    (line : Text) : logicOf style (blanks ++ line) = logicOf style line := by
  rw [logicOf, dropLineComment_blanks blank rfl, normalizeLine_blanks_append blank, logicOf]

/-- The lines of a text's logic, if there is any. -/
theorem lines_normalizeLogic {content : Text}
    (some_ : ((withoutBlocks style content).lines.map (logicOf style)).filter (!·.isEmpty) ≠ []) :
    (normalizeLogic style content).lines =
      ((withoutBlocks style content).lines.map (logicOf style)).filter (!·.isEmpty) := by
  rw [normalizeLogic_eq, Text.lines_unlines some_]
  intro line member
  obtain ⟨whole, among, rfl⟩ := List.mem_map.1 (List.mem_filter.1 member).1
  exact not_mem_logicOf (Text.not_mem_of_mem_lines among)

/-- A run of blanks counts like any other, in code and in comments. -/
theorem logicOf_run {run other : Text} (blank : ∀ c ∈ run, Text.isBlank c = true)
    (nonempty : run ≠ []) (blank' : ∀ c ∈ other, Text.isBlank c = true) (nonempty' : other ≠ [])
    (front rest : Text) :
    logicOf style (front ++ (run ++ rest)) = logicOf style (front ++ (other ++ rest)) := by
  rw [logicOf, logicOf, dropLineComment_run blank nonempty, dropLineComment_run blank' nonempty']
  split
  · exact normalizeLine_run blank nonempty blank' nonempty' _ _
  · rfl

/-- What follows a line behind blanks does not count if it would be all comment. -/
theorem logicOf_append {blanks rest : Text} (blank : ∀ c ∈ blanks, Text.isBlank c = true)
    (nonempty : blanks ≠ []) (comment : dropLineComment style none rest = []) (line : Text) :
    logicOf style (line ++ (blanks ++ rest)) = logicOf style line := by
  rw [logicOf, dropLineComment_run blank nonempty, comment, List.append_nil]
  split
  · rename_i whole
    rw [normalizeLine_append_blanks blank, logicOf, whole]
  · rfl

end

/-! ## Edits -/

/-- A text of blanks. -/
def AllBlank (text : Text) : Prop := ∀ c ∈ text, Text.isBlank c = true

instance (text : Text) : Decidable (AllBlank text) :=
  List.decidableBAll (fun c => Text.isBlank c = true) text

/-- One edit of a line that is not to count. -/
inductive LineEdit : Text → Text → Prop where
  /-- Blanks, a number sign and any text are put behind the line. -/
  | comment (line : Text) {blanks : Text} (blank : AllBlank blanks) (nonempty : blanks ≠ [])
      (words : Text) : LineEdit line (line ++ (blanks ++ '#' :: words))
  | indent (line : Text) {blanks : Text} (blank : AllBlank blanks) : LineEdit line (blanks ++ line)
  | outdent (line : Text) {blanks : Text} (blank : AllBlank blanks) :
      LineEdit (blanks ++ line) line
  | pad (line : Text) {blanks : Text} (blank : AllBlank blanks) : LineEdit line (line ++ blanks)
  | unpad (line : Text) {blanks : Text} (blank : AllBlank blanks) : LineEdit (line ++ blanks) line
  /-- A run of blanks is replaced by another one. -/
  | respace (front rest : Text) {run other : Text} (blank : AllBlank run) (nonempty : run ≠ [])
      (blank' : AllBlank other) (nonempty' : other ≠ []) :
      LineEdit (front ++ (run ++ rest)) (front ++ (other ++ rest))

theorem LineEdit.logicOf_eq {line edited : Text} (edit : LineEdit line edited) :
    logicOf .hash edited = logicOf .hash line := by
  have padded : ∀ (line : Text) {blanks : Text}, AllBlank blanks →
      logicOf .hash (line ++ blanks) = logicOf .hash line := by
    intro line blanks blank
    by_cases nonempty : blanks = []
    · rw [nonempty, List.append_nil]
    · rw [← List.append_nil blanks, logicOf_append blank nonempty rfl]
  cases edit with
  | comment _ blank nonempty words => exact logicOf_append blank nonempty rfl _
  | indent _ blank => exact logicOf_blanks_append blank _
  | outdent _ blank => exact (logicOf_blanks_append blank _).symm
  | pad _ blank => exact padded _ blank
  | unpad _ blank => exact (padded _ blank).symm
  | respace front rest blank nonempty blank' nonempty' =>
      exact logicOf_run blank' nonempty' blank nonempty _ _

/-- Does the line have nothing but blanks and perhaps a comment? -/
def isBare (line : Text) : Bool := line.isBlankText || isNote line

theorem logicOf_of_isBare {line : Text} (bare : isBare line = true) : logicOf .hash line = [] := by
  rcases Bool.or_eq_true_iff.1 bare with blank | note
  · have blank : AllBlank line := List.all_eq_true.1 blank
    rw [← List.append_nil line, logicOf_blanks_append blank]
    rfl
  · exact logicOf_of_isNote note

/-- One edit of a text that is not to count. -/
inductive LayoutEdit (content : Text) : Text → Prop where
  /-- A line without code is put in. -/
  | insert {before after : List Text} {line : Text} (lines : content.lines = before ++ after)
      (bare : isBare line = true) (free : '\n' ∉ line) :
      LayoutEdit content (Text.unlines (before ++ line :: after))
  /-- A line without code is taken out. -/
  | delete {before after : List Text} {line : Text} (lines : content.lines = before ++ line :: after)
      (bare : isBare line = true) : LayoutEdit content (Text.unlines (before ++ after))
  | change {before after : List Text} {line edited : Text}
      (lines : content.lines = before ++ line :: after) (edit : LineEdit line edited)
      (free : '\n' ∉ edited) : LayoutEdit content (Text.unlines (before ++ edited :: after))

/-- The logic of joined lines, also of none. -/
theorem normalizeLogic_hash_unlines {texts : List Text} (free : ∀ line ∈ texts, '\n' ∉ line) :
    normalizeLogic .hash (Text.unlines texts) =
      Text.unlines ((texts.map (logicOf .hash)).filter (!·.isEmpty)) := by
  by_cases nonempty : texts = []
  · subst nonempty
    rfl
  · exact normalizeLogic_unlines rfl nonempty free

/-- An edit of layout or comments changes no logic. -/
theorem normalizeLogic_layoutEdit {content edited : Text} (edit : LayoutEdit content edited) :
    normalizeLogic .hash edited = normalizeLogic .hash content := by
  have free : ∀ line ∈ content.lines, '\n' ∉ line := fun _ => Text.not_mem_of_mem_lines
  have whole : normalizeLogic .hash content =
      Text.unlines ((content.lines.map (logicOf .hash)).filter (!·.isEmpty)) :=
    normalizeLogic_eq .hash content
  rw [whole]
  cases edit with
  | insert lines bare here =>
      rw [lines] at free ⊢
      rw [normalizeLogic_hash_unlines]
      · simp [logicOf_of_isBare bare]
      · simp only [List.forall_mem_append, List.forall_mem_cons] at free ⊢
        exact ⟨free.1, here, free.2⟩
  | delete lines bare =>
      rw [lines] at free ⊢
      rw [normalizeLogic_hash_unlines]
      · simp [logicOf_of_isBare bare]
      · simp only [List.forall_mem_append, List.forall_mem_cons] at free ⊢
        exact ⟨free.1, free.2.2⟩
  | change lines edit here =>
      rw [lines] at free ⊢
      rw [normalizeLogic_hash_unlines]
      · simp [edit.logicOf_eq]
      · simp only [List.forall_mem_append, List.forall_mem_cons] at free ⊢
        exact ⟨free.1, here, free.2.2⟩

/-- **Edits of layout and comments change no fingerprint**, however many there are. -/
theorem fingerprint_layoutEdits {content edited : Text}
    (edits : Relation.ReflTransGen LayoutEdit content edited) :
    normalizeLogic .hash edited = normalizeLogic .hash content ∧
      ∀ settings, fingerprint settings .hash edited = fingerprint settings .hash content := by
  have logic : normalizeLogic .hash edited = normalizeLogic .hash content := by
    induction edits with
    | refl => rfl
    | tail _ edit ih => rw [normalizeLogic_layoutEdit edit, ih]
  refine ⟨logic, fun settings => ?_⟩
  rw [fingerprint, logic, fingerprint]

/-- A blank line, another indentation and a comment behind a literal with a number sign. -/
theorem fingerprint_layoutEdits_commented :
    let content : Text := "def f():\n    return \"#1\"".toList
    let edited : Text := "def f():\n \t\n\treturn \"#1\"  # \"one\"".toList
    Relation.ReflTransGen LayoutEdit content edited ∧
      normalizeLogic .hash edited = normalizeLogic .hash content ∧
      fingerprint {} .hash edited = fingerprint {} .hash content := by
  intro content edited
  let first : Text := "def f():".toList
  let code : Text := "return \"#1\"".toList
  let blank : Text := " \t".toList
  have insert : LayoutEdit content (Text.unlines [first, blank, "    ".toList ++ code]) :=
    .insert (show content.lines = [first] ++ ["    ".toList ++ code] by decide)
      (show isBare blank = true by decide) (by decide)
  have respace : LayoutEdit _ (Text.unlines [first, blank, '\t' :: code]) :=
    .change (show Text.lines (Text.unlines [first, blank, "    ".toList ++ code]) =
        [first, blank] ++ ["    ".toList ++ code] by decide)
      (.respace [] code (show AllBlank "    ".toList by decide) (by decide)
        (show AllBlank ['\t'] by decide) (by decide))
      (by decide)
  have comment : LayoutEdit _ edited :=
    .change (show Text.lines (Text.unlines [first, blank, '\t' :: code]) =
        [first, blank] ++ ['\t' :: code] by decide)
      (.comment _ (show AllBlank "  ".toList by decide) (by decide) " \"one\"".toList) (by decide)
  have edits : Relation.ReflTransGen LayoutEdit content edited :=
    ((Relation.ReflTransGen.single insert).tail respace).tail comment
  obtain ⟨logic, same⟩ := fingerprint_layoutEdits edits
  exact ⟨edits, logic, same {}⟩

end Traceability
