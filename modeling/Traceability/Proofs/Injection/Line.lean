/-
# Traceability.Proofs.Injection.Line -- an injection adds one line to a file

`GainsLine` says of the octets of a file that they are the old ones with one line
put in where a line begins: blanks, the tag and a line end.  A text with a tag
gains a line in this sense (`gainsLine_insertTag`), and UTF-8 carries it over to
the octets, because a text has one spelling only.

A file is read with its line ends unified and written as it is then.  So a file
without carriage returns gains one line and keeps every other octet, and a file
with one loses all of them (`injectTag_gainsLine_iff`).
-/
import Traceability.Proofs.Injection.Step
import Traceability.Proofs.Text.Decoding

namespace Traceability

set_option autoImplicit false

/-! ## One more line in a text -/

/-- A text with a tag is the text with one line put in after a line feed, or on top. -/
theorem insertTag_eq_append (content tag : Text) (construct : Option String) :
    ∃ before after indent finish : Text, content = before ++ after ∧
      insertTag content tag construct = before ++ (indent ++ tag ++ finish) ++ after ∧
      (before = [] ∨ ['\n'] <:+ before) ∧
      (∀ c ∈ indent, Text.isBlank c = true ∧ c ∈ content ∧ c ≠ '\n') ∧
      (finish = ['\n'] ∨ finish = ['\r', '\n']) := by
  rcases insertTag_cases content tag construct with
    ⟨name, before, line, after, -, -, split, -, -, tagged⟩ | ⟨-, first, others, split, tagged⟩
  · have among : line ∈ content.lines := by
      rw [split]
      exact List.mem_append_right _ List.mem_cons_self
    have blank : ∀ c ∈ line.indentation, Text.isBlank c = true ∧ c ∈ content ∧ c ≠ '\n' := by
      intro c member
      have inLine : c ∈ line := (List.takeWhile_prefix _).subset member
      refine ⟨List.all_eq_true.1 List.all_takeWhile c member, Text.mem_of_mem_split among inLine, ?_⟩
      rintro rfl
      exact Text.not_mem_of_mem_lines among inLine
    refine ⟨Text.endLines before, Text.unlines (line :: after), line.indentation,
      lineReturn line ++ ['\n'], ?_, ?_, Text.endLines_eq_nil_or_suffix before, blank,
      lineReturn_feed line⟩
    · rw [← Text.unlines_append_cons, ← split, Text.unlines_lines]
    · rw [tagged, Text.unlines_insert]
      simp only [List.append_assoc]
  · refine ⟨[], content, [], lineReturn first ++ ['\n'], rfl, ?_, Or.inl rfl,
      fun c member => absurd member List.not_mem_nil, lineReturn_feed first⟩
    have inserted := Text.unlines_insert [] (tag ++ lineReturn first) first others
    rw [← split, Text.unlines_lines] at inserted
    rw [tagged, List.nil_append, List.nil_append, ← List.append_assoc]
    exact inserted

/-! ## One more line in a file -/

/-- Does a line begin between these octets?  It does at the beginning and after every line end: a line
feed, or a carriage return that no line feed follows. -/
def IsLineStart (before after : List UInt8) : Prop :=
  before = [] ∨ [0x0a] <:+ before ∨ [0x0d] <:+ before ∧ ¬[0x0a] <+: after

/-- The octets of a file are the old ones with one line put in where a line begins: blanks, the tag
and a line end, and no other line end among them. -/
def GainsLine (tag : Text) (old new : List UInt8) : Prop :=
  ∃ (before after : List UInt8) (indent finish : Text), old = before ++ after ∧
    new = before ++ Text.Utf8.encode (indent ++ tag ++ finish) ++ after ∧
    IsLineStart before after ∧ (∀ c ∈ indent, Text.isBlank c = true) ∧ IsOneLine (indent ++ tag) ∧
    finish ∈ [['\n'], ['\r', '\n'], ['\r']]

theorem GainsLine.subset {tag : Text} {old new : List UInt8} (gains : GainsLine tag old new) :
    old ⊆ new := by
  obtain ⟨before, after, indent, finish, rfl, rfl, -⟩ := gains
  intro octet member
  rcases List.mem_append.1 member with inFront | inBack
  · exact List.mem_append_left _ (List.mem_append_left _ inFront)
  · exact List.mem_append_right _ inBack

/-- A text without carriage returns gains one line with a tag on one line. -/
theorem gainsLine_insertTag {content tag : Text} (free : '\r' ∉ content) (plain : IsOneLine tag)
    (construct : Option String) :
    GainsLine tag (Text.Utf8.encode content) (Text.Utf8.encode (insertTag content tag construct)) := by
  obtain ⟨before, after, indent, finish, joined, inserted, boundary, blank, ends⟩ :=
    insertTag_eq_append content tag construct
  refine ⟨Text.Utf8.encode before, Text.Utf8.encode after, indent, finish, ?_, ?_, ?_,
    fun c member => (blank c member).1, ⟨?_, ?_⟩, ?_⟩
  · rw [joined, Text.Utf8.encode_append]
  · rw [inserted, Text.Utf8.encode_append, Text.Utf8.encode_append]
  · rcases boundary with rfl | ⟨front, rfl⟩
    · exact Or.inl rfl
    · refine Or.inr (Or.inl ⟨Text.Utf8.encode front, ?_⟩)
      rw [Text.Utf8.encode_append]
      rfl
  · intro member
    rcases List.mem_append.1 member with inIndent | inTag
    · exact (blank _ inIndent).2.2 rfl
    · exact plain.noFeed inTag
  · intro member
    rcases List.mem_append.1 member with inIndent | inTag
    · exact free (blank _ inIndent).2.1
    · exact plain.noReturn inTag
  · rcases ends with rfl | rfl
    · simp
    · simp

/-! ## Carriage returns -/

/-- An octet from the upper half is not the octet of a carriage return. -/
theorem ne_ofNat_of_high {n : Nat} (high : 0x80 ≤ n) (bound : n < 256) :
    (0x0d : UInt8) ≠ UInt8.ofNat n := by
  intro same
  have value := congrArg UInt8.toNat same
  rw [Text.Utf8.toNat_ofNat_octet bound] at value
  have thirteen : (0x0d : UInt8).toNat = 0x0d := rfl
  omega

/-- The octet of a carriage return stands for a carriage return wherever it stands: all octets of
longer characters lie in the upper half. -/
theorem eq_of_return_mem_encodeChar {c : Char} (member : 0x0d ∈ Text.Utf8.encodeChar c) :
    c = '\r' := by
  have bound : c.toNat < 0x110000 := by
    have valid : c.toNat < 0xd800 ∨ 0xdfff < c.toNat ∧ c.toNat < 0x110000 := c.valid
    omega
  have tail : ∀ shift, (0x0d : UInt8) ≠ UInt8.ofNat (0x80 + c.toNat / shift % 64) :=
    fun shift => ne_ofNat_of_high (by omega) (by omega)
  simp only [Text.Utf8.encodeChar] at member
  split at member
  · rename_i ascii
    have value := congrArg UInt8.toNat (List.mem_singleton.1 member)
    rw [Text.Utf8.toNat_ofNat_octet (by omega)] at value
    exact Char.toNat_inj.1 value.symm
  · split at member
    · have first := ne_ofNat_of_high (n := 0xc0 + c.toNat / 64) (by omega) (by omega)
      simp only [List.mem_cons, List.not_mem_nil, first, tail, or_self] at member
    · split at member
      · have first := ne_ofNat_of_high (n := 0xe0 + c.toNat / 4096) (by omega) (by omega)
        simp only [List.mem_cons, List.not_mem_nil, first, tail, or_self] at member
      · have first := ne_ofNat_of_high (n := 0xf0 + c.toNat / 262144) (by omega) (by omega)
        simp only [List.mem_cons, List.not_mem_nil, first, tail, or_self] at member

theorem return_mem_encode_iff (text : Text) : 0x0d ∈ Text.Utf8.encode text ↔ '\r' ∈ text := by
  constructor
  · intro member
    obtain ⟨c, among, within⟩ := List.mem_flatMap.1 member
    rwa [← eq_of_return_mem_encodeChar within]
  · intro member
    exact List.mem_flatMap.2 ⟨'\r', member, by decide⟩

/-- No line makes a file without carriage returns of one that has some. -/
theorem not_gainsLine_of_returns {tag text written : Text} (returns : '\r' ∈ text)
    (free : '\r' ∉ written) :
    ¬GainsLine tag (Text.Utf8.encode text) (Text.Utf8.encode written) := by
  intro gains
  have kept : 0x0d ∈ Text.Utf8.encode written :=
    gains.subset ((return_mem_encode_iff text).2 returns)
  exact free ((return_mem_encode_iff written).1 kept)

/-! ## The file after an injection -/

/-- **What an injection makes of a file.**  When it succeeds and changes the files, the file at the
path has gained one line over what is read of it, and no other file has changed.  Over its own octets
it has gained one line exactly when it had no carriage returns: then every other octet is as it
was. -/
theorem injectTag_gainsLine_iff {tree : FileTree} {path : Path} {target : Target}
    {sources : List String} {old : List UInt8} {text : Text}
    (file : tree.octets? path = some old) (utf8 : Text.Utf8.decode? old = some text)
    (plain : IsOneLine (composeTag target.language sources target.expectedTag))
    (tagged : (injectTag tree path target sources).isTagged = true)
    (changes : (injectTag tree path target sources).tree ≠ tree) :
    ∃ new, (injectTag tree path target sources).tree.octets? path = some new ∧
      GainsLine (composeTag target.language sources target.expectedTag)
        (Text.Utf8.encode text.unifyLineEnds) new ∧
      (GainsLine (composeTag target.language sources target.expectedTag) old new ↔ '\r' ∉ text) ∧
      ∀ other, tree.follow [] other.names ≠ tree.follow [] path.names →
        (injectTag tree path target sources).tree.octets? other = tree.octets? other := by
  have step := injectTag_step tree path target sources
  generalize injectTag tree path target sources = result at step tagged changes ⊢
  cases step with
  | refused fault whole => cases tagged
  | kept shown file read holds => exact absurd rfl changes
  | lost file left loses => cases tagged
  | @wrote shown octets content written fileToo read writes =>
      rw [file, Option.some.injEq] at fileToo
      subst fileToo
      have unified : content = text.unifyLineEnds := by
        rw [FileTree.textOf?, utf8, Option.map_some, Option.some.injEq] at read
        exact read.symm
      have inserted := taggedText?_eq_some writes
      have gained := gainsLine_insertTag (FileTree.not_mem_of_textOf? read) plain
        target.constructName
      rw [← inserted, unified] at gained
      refine ⟨Text.Utf8.encode written, octets?_writeText_self file written, gained, ?_, ?_⟩
      · constructor
        · intro gains returns
          rw [← Text.Utf8.encode_of_decode? utf8] at gains
          exact not_gainsLine_of_returns returns
            (not_mem_of_changes plain.noReturn read writes) gains
        · intro free
          rwa [Text.unifyLineEnds_of_not_mem free, Text.Utf8.encode_of_decode? utf8] at gained
      · intro other apart
        rw [FileTree.writeText, FileTree.octets?_writeOctets file, if_neg apart]

/-- The same class in a file whose lines end in line feeds. -/
def plainTree : FileTree :=
  { entries := [(["f.py"],
      .file (Text.Utf8.encode "class A:\n    def g(self):\n        pass\n".toList))] }

/-- The line above the method is all that comes into that file. -/
theorem injectTag_gainsLine_above_method :
    ∃ new, (injectTag plainTree ⟨.root, ["f.py"]⟩ methodTarget []).tree.octets? ⟨.root, ["f.py"]⟩ =
        some new ∧
      GainsLine "# R1".toList
        (Text.Utf8.encode "class A:\n    def g(self):\n        pass\n".toList) new := by
  have read : Text.Utf8.decode?
      (Text.Utf8.encode "class A:\n    def g(self):\n        pass\n".toList) =
        some "class A:\n    def g(self):\n        pass\n".toList := Text.Utf8.decode?_encode _
  have changes : (injectTag plainTree ⟨.root, ["f.py"]⟩ methodTarget []).tree ≠ plainTree := by
    intro same
    exact absurd (congrArg FileTree.entries same) (by decide +kernel)
  obtain ⟨new, file, -, gains, -⟩ := injectTag_gainsLine_iff rfl read (by decide +kernel)
    (by decide +kernel) changes
  exact ⟨new, file, gains.2 (by decide +kernel)⟩

/-- The file whose lines end in carriage returns and line feeds gains its line, but loses every
carriage return: it has not gained one line over its own octets. -/
theorem injectTag_drops_returns :
    IsOneLine (composeTag methodTarget.language [] methodTarget.expectedTag) ∧
      Text.Utf8.decode?
          (Text.Utf8.encode "class A:\r\n    def g(self):\r\n        pass\r\n".toList) =
        some "class A:\r\n    def g(self):\r\n        pass\r\n".toList ∧
      (injectTag methodTree ⟨.root, ["f.py"]⟩ methodTarget []).tree.entries =
        [(["f.py"], .file (Text.Utf8.encode
          "class A:\n    # R1\n    def g(self):\n        pass\n".toList))] ∧
      ¬GainsLine (composeTag methodTarget.language [] methodTarget.expectedTag)
        (Text.Utf8.encode "class A:\r\n    def g(self):\r\n        pass\r\n".toList)
        (Text.Utf8.encode "class A:\n    # R1\n    def g(self):\n        pass\n".toList) :=
  ⟨by decide +kernel, Text.Utf8.decode?_encode _, by decide +kernel,
    not_gainsLine_of_returns (by decide +kernel) (by decide +kernel)⟩

end Traceability
