/-
# Traceability.Proofs.Injection.Step -- what one injection does to the files

An injection can come to four things (`InjectionStep`): nothing is done, the file has
the tag already, the text with the tag is written, or the file is opened and loses
its text.  When it is written, the file that is read back is the text that was
written, because it has no carriage returns, and it has the tag.  So a second
injection finds the tag and leaves everything as it is (`injectTag_again`).

A tag on one line takes no line from any file but the one that loses its text
(`injectTag_keepsLines`), and a target whose file was tagged has its expected tag on
some line of it (`exists_line_of_isTagged`).
-/
import Traceability.Injection
import Traceability.Proofs.FileTree.Growth
import Traceability.Proofs.Tag
import Traceability.Proofs.Text.Utf8

namespace Traceability

set_option autoImplicit false

/-! ## Texts that have the tag -/

/-- There is nothing to do for a text that has the composed tag, or the tag that is expected. -/
theorem taggedText?_eq_none_iff (target : Target) (sources : List String) (content : Text) :
    taggedText? target sources content = none ↔
      composeTag target.language sources target.expectedTag <:+: content ∨
        target.expectedTag ≠ "" ∧ target.expectedTag.toList <:+: content := by
  simp only [taggedText?, ite_eq_left_iff, reduceCtorEq, imp_false, Classical.not_not, Bool.or_eq_true,
    Bool.and_eq_true, bne_iff_ne, Text.occursIn_iff]

theorem taggedText?_eq_some {target : Target} {sources : List String} {content text : Text}
    (changes : taggedText? target sources content = some text) :
    text = insertTag content (composeTag target.language sources target.expectedTag)
      target.constructName := by
  simp only [taggedText?, Option.ite_none_left_eq_some, Option.some.injEq] at changes
  exact changes.2.symm

/-- A text with the tag needs no change. -/
theorem taggedText?_of_tagged {target : Target} {sources : List String} {content text : Text}
    (changes : taggedText? target sources content = some text) :
    taggedText? target sources text = none := by
  rw [taggedText?_eq_none_iff, taggedText?_eq_some changes]
  exact Or.inl (infix_insertTag _ _ _)

/-- A text that needs no change has the tag that is expected. -/
theorem expectedTag_infix_content {target : Target} {sources : List String} {content : Text}
    (holds : taggedText? target sources content = none) :
    target.expectedTag.toList <:+: content := by
  rcases (taggedText?_eq_none_iff target sources content).1 holds with composed | ⟨-, expected⟩
  · exact (suffix_composeTag _ _ _).isInfix.trans composed
  · exact expected

/-! ## The cases of an injection -/

/-- What an injection can come to. -/
inductive InjectionStep (tree : FileTree) (path : Path) (target : Target) (sources : List String) :
    Injection → Prop where
  /-- There is no UTF-8 file at the path, or the disk does not let it be read or written. -/
  | refused (fault : Option InjectionFault) (whole : ∀ found ∈ fault, found.losesText = false) :
      InjectionStep tree path target sources ⟨tree, false, fault⟩
  /-- The file has the tag. -/
  | kept (shown : tree.disk.Shows path) {octets : List UInt8} {content : Text}
      (file : tree.octets? path = some octets) (read : FileTree.textOf? octets = some content)
      (holds : taggedText? target sources content = none) :
      InjectionStep tree path target sources ⟨tree, true, none⟩
  /-- The text with the tag takes the place of the file's text. -/
  | wrote (shown : tree.disk.Shows path) {octets : List UInt8} {content text : Text}
      (file : tree.octets? path = some octets) (read : FileTree.textOf? octets = some content)
      (changes : taggedText? target sources content = some text) :
      InjectionStep tree path target sources ⟨tree.writeText path text, true, none⟩
  /-- The file loses its text. -/
  | lost {octets : List UInt8} (file : tree.octets? path = some octets) (left : List UInt8)
      {fault : WriteFault} (loses : fault.losesText = true)
      (empties : fault.isOfDisk = false → left = []) :
      InjectionStep tree path target sources
        ⟨tree.writeOctets path left, false, some (.unwritten fault)⟩

theorem injectTag_step (tree : FileTree) (path : Path) (target : Target) (sources : List String) :
    InjectionStep tree path target sources (injectTag tree path target sources) := by
  unfold injectTag
  split
  · exact .refused _ (by simp [InjectionFault.losesText])
  · rename_i answers
    split
    · exact .refused none nofun
    · rename_i octets file
      split
      · exact .refused _ (by simp [InjectionFault.losesText])
      · exact .refused _ (by simp [InjectionFault.losesText])
      · rename_i content opens read
        have shown : tree.disk.Shows path := ⟨answers, opens⟩
        split
        · rename_i holds
          exact .kept shown file read holds
        · rename_i text changes
          have step := FileTree.write_step tree path text
          generalize tree.write path text = writing at step ⊢
          cases step with
          | refused reason =>
              exact .refused _ (by simp [InjectionFault.losesText, WriteFault.losesText])
          | lost left loses empties => exact .lost file left loses empties
          | done writes => exact .wrote shown file read changes

/-- A file that has the tag is left alone. -/
theorem injectTag_of_holds {tree : FileTree} {path : Path} {target : Target} {sources : List String}
    {octets : List UInt8} {content : Text} (shown : tree.disk.Shows path)
    (file : tree.octets? path = some octets) (read : FileTree.textOf? octets = some content)
    (holds : taggedText? target sources content = none) :
    injectTag tree path target sources = ⟨tree, true, none⟩ := by
  simp only [injectTag, shown.answers, shown.opens, file, read, holds]

theorem InjectionFault.not_isOfDisk_of_failure? {fault : InjectionFault} {cause : WriteFault}
    (fails : fault.failure? = some (.unwritten cause)) :
    fault = .unwritten cause ∧ cause.isOfDisk = false := by
  cases fault with
  | denied reason => cases fails
  | unreadable cause => cases fails
  | unwritten found =>
      simp only [failure?, Option.ite_none_left_eq_some, Bool.not_eq_true, Option.some.injEq,
        Failure.unwritten.injEq] at fails
      obtain ⟨ofText, rfl⟩ := fails
      exact ⟨rfl, ofText⟩

/-- An injection that fails at a text that cannot be written leaves an empty file. -/
theorem octets?_of_unwritten {tree : FileTree} {path : Path} {target : Target}
    {sources : List String} {fault : WriteFault}
    (fails : (injectTag tree path target sources).failure? = some (.unwritten fault)) :
    (injectTag tree path target sources).losesText = true ∧
      (injectTag tree path target sources).tree.octets? path = some [] := by
  have step := injectTag_step tree path target sources
  generalize injectTag tree path target sources = result at step fails ⊢
  cases step with
  | refused found whole =>
      obtain ⟨cause, given, fails⟩ := Option.bind_eq_some_iff.1 fails
      obtain ⟨rfl, ofText⟩ := InjectionFault.not_isOfDisk_of_failure? fails
      have loses := whole _ given
      cases fault with
      | notEncodable place => cases loses
      | noRoom => cases ofText
      | refused reason => cases ofText
      | brokenOff reason => cases ofText
  | kept shown file read holds => cases fails
  | wrote shown file read changes => cases fails
  | @lost octets file left cause loses empties =>
      have fails : (InjectionFault.unwritten cause).failure? = some (.unwritten fault) := fails
      obtain ⟨same, ofText⟩ := InjectionFault.not_isOfDisk_of_failure? fails
      cases same
      refine ⟨loses, ?_⟩
      rw [FileTree.octets?_writeOctets file, if_pos rfl, empties ofText]

theorem octets?_writeText_self {tree : FileTree} {path : Path} {old : List UInt8}
    (file : tree.octets? path = some old) (text : Text) :
    (tree.writeText path text).octets? path = some (Text.Utf8.encode text) := by
  rw [FileTree.writeText, FileTree.octets?_writeOctets file, if_pos rfl]

section

variable {tree : FileTree} {path : Path} {target : Target} {sources : List String}

/-- The text that an injection writes has no carriage returns, if the tag has none: those of the
file are gone when it is read. -/
theorem not_mem_of_changes {octets : List UInt8} {content text : Text}
    (free : '\r' ∉ composeTag target.language sources target.expectedTag)
    (read : FileTree.textOf? octets = some content)
    (changes : taggedText? target sources content = some text) : '\r' ∉ text := by
  rw [taggedText?_eq_some changes]
  intro member
  rcases mem_insertTag member with feed | inTag | inContent
  · exact absurd feed (by decide)
  · exact free inTag
  · exact FileTree.not_mem_of_textOf? read inContent

/-- After an injection that succeeds, the disk shows what lies at the path, and it is UTF-8 text that
needs no further change. -/
theorem exists_text_of_isTagged
    (free : '\r' ∉ composeTag target.language sources target.expectedTag)
    (tagged : (injectTag tree path target sources).isTagged = true) :
    (injectTag tree path target sources).tree.disk.Shows path ∧
      ∃ octets content, (injectTag tree path target sources).tree.octets? path = some octets ∧
        FileTree.textOf? octets = some content ∧ taggedText? target sources content = none := by
  have step := injectTag_step tree path target sources
  generalize injectTag tree path target sources = result at step tagged ⊢
  cases step with
  | refused fault whole => cases tagged
  | kept shown file read holds => exact ⟨shown, _, _, file, read, holds⟩
  | wrote shown file read changes =>
      have readBack := FileTree.textOf?_encode (not_mem_of_changes free read changes)
      refine ⟨?_, _, _, octets?_writeText_self file _, readBack, taggedText?_of_tagged changes⟩
      rw [FileTree.writeText, FileTree.disk_writeOctets]
      exact shown
  | lost file left loses empties => cases tagged

/-- **An injection that has succeeded is not done twice**: with the same arguments it succeeds again
and leaves every file as it is. -/
theorem injectTag_again
    (free : '\r' ∉ composeTag target.language sources target.expectedTag)
    (tagged : (injectTag tree path target sources).isTagged = true) :
    injectTag (injectTag tree path target sources).tree path target sources =
      ⟨(injectTag tree path target sources).tree, true, none⟩ := by
  obtain ⟨shown, octets, content, file, read, holds⟩ := exists_text_of_isTagged free tagged
  exact injectTag_of_holds shown file read holds

end

/-- A method in a file whose lines end in carriage returns and line feeds. -/
def methodTree : FileTree :=
  { entries := [(["f.py"],
      .file (Text.Utf8.encode "class A:\r\n    def g(self):\r\n        pass\r\n".toList))] }

def methodTarget : Target := ⟨"f.py", .python, "R1", some "g", none, []⟩

/-- A tag above the method is not put there twice. -/
theorem injectTag_again_above_method :
    injectTag (injectTag methodTree ⟨.root, ["f.py"]⟩ methodTarget []).tree ⟨.root, ["f.py"]⟩
        methodTarget [] =
      ⟨(injectTag methodTree ⟨.root, ["f.py"]⟩ methodTarget []).tree, true, none⟩ ∧
    (injectTag methodTree ⟨.root, ["f.py"]⟩ methodTarget []).tree.entries =
      [(["f.py"], .file (Text.Utf8.encode
        "class A:\n    # R1\n    def g(self):\n        pass\n".toList))] :=
  ⟨injectTag_again (by decide +kernel) (by decide +kernel), by decide +kernel⟩

/-! ## Lines -/

/-- Every file of the first tree, apart from those that are lost, has its lines, in their order, among
the lines it has in the second. -/
def KeepsLines (lost : List Path) (tree next : FileTree) : Prop :=
  ∀ (path : Path) octets, path.IsOff lost → tree.octets? path = some octets →
    ∃ new, next.octets? path = some new ∧
      (FileTree.lossyTextOf octets).lines.Sublist (FileTree.lossyTextOf new).lines

namespace KeepsLines

theorem refl (lost : List Path) (tree : FileTree) : KeepsLines lost tree tree :=
  fun _ octets _ file => ⟨octets, file, List.Sublist.refl _⟩

theorem trans {lost more : List Path} {first second third : FileTree}
    (before : KeepsLines lost first second) (after : KeepsLines more second third) :
    KeepsLines (lost ++ more) first third := by
  intro path octets off file
  obtain ⟨offFirst, offSecond⟩ := List.forall_mem_append.1 off
  obtain ⟨middle, fileThen, among⟩ := before path octets offFirst file
  obtain ⟨last, fileNow, amongThose⟩ := after path middle offSecond fileThen
  exact ⟨last, fileNow, among.trans amongThose⟩

end KeepsLines

/-- The file at the path, if an injection there has taken its text. -/
def Injection.lost (injection : Injection) (path : Path) : List Path :=
  if injection.losesText then [path] else []

/-- A tag that stands on one line. -/
structure IsOneLine (tag : Text) : Prop where
  noFeed : '\n' ∉ tag
  noReturn : '\r' ∉ tag

instance (tag : Text) : Decidable (IsOneLine tag) :=
  decidable_of_iff ('\n' ∉ tag ∧ '\r' ∉ tag) ⟨fun ⟨feed, return_⟩ => ⟨feed, return_⟩,
    fun plain => ⟨plain.noFeed, plain.noReturn⟩⟩

section

variable {target : Target} {sources : List String}
  (plain : IsOneLine (composeTag target.language sources target.expectedTag))
include plain

/-- **An injection takes no line from any file** that it does not lose. -/
theorem injectTag_keepsLines (tree : FileTree) (path : Path) :
    KeepsLines ((injectTag tree path target sources).lost path) tree
      (injectTag tree path target sources).tree := by
  have step := injectTag_step tree path target sources
  generalize injectTag tree path target sources = result at step ⊢
  cases step with
  | refused fault _ => exact .refl _ tree
  | kept shown file read holds => exact .refl _ tree
  | lost file left loses empties =>
      intro other old off otherFile
      refine ⟨old, ?_, List.Sublist.refl _⟩
      rw [FileTree.octets?_writeOctets file, if_neg, otherFile]
      -- Only the place that is lost is written to.
      intro same
      rw [FileTree.octets?_eq, Option.bind_eq_some_iff] at file
      obtain ⟨place, led, -⟩ := file
      refine off path ?_ ?_
      · simp [Injection.lost, Injection.losesText, InjectionFault.losesText, loses]
      · rw [FileTree.follow_eq_place led, FileTree.follow_eq_place (same.trans led)]
  | @wrote shown octets content text file read changes =>
      intro other old _ otherFile
      rw [FileTree.writeText, FileTree.octets?_writeOctets file]
      split
      · -- The other path leads to the file that was written.
        rename_i same
        rw [FileTree.octets?_eq, same, ← FileTree.octets?_eq, file] at otherFile
        cases otherFile
        have unread := FileTree.lossyTextOf_of_textOf? read
        have written := FileTree.lossyTextOf_encode (not_mem_of_changes plain.noReturn read changes)
        obtain ⟨before, after, indent, finish, split, lines, -⟩ :=
          lines_insertTag plain.noFeed content target.constructName
        refine ⟨_, rfl, ?_⟩
        rw [unread, written, split, taggedText?_eq_some changes, lines]
        exact (List.Sublist.refl before).append (List.sublist_cons_self _ after)
      · exact ⟨old, otherFile, List.Sublist.refl _⟩

/-- After an injection that succeeds, some line of the file has the expected tag. -/
theorem exists_line_of_isTagged {tree : FileTree} {path : Path}
    (tagged : (injectTag tree path target sources).isTagged = true) :
    ∃ octets, (injectTag tree path target sources).tree.octets? path = some octets ∧
      ∃ line ∈ (FileTree.lossyTextOf octets).lines, target.expectedTag.toList <:+: line := by
  obtain ⟨-, octets, content, file, read, holds⟩ := exists_text_of_isTagged plain.noReturn tagged
  have unbroken : '\n' ∉ target.expectedTag.toList :=
    fun member => plain.noFeed ((suffix_composeTag _ _ _).subset member)
  refine ⟨octets, file, ?_⟩
  rw [FileTree.lossyTextOf_of_textOf? read]
  exact (Text.infix_iff_exists_line unbroken content).1 (expectedTag_infix_content holds)

end

end Traceability
