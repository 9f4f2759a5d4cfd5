/-
# Traceability.Proofs.Source.Nesting -- constructs of the indented family nest

When every declaration has its signature on one line, a construct is that line and
the deeper lines below it, up to the last one that is not blank.  A declaration
inside a construct is one of the deeper lines, so what is deeper than it is deeper
than the construct's first line too, and its own construct ends inside
(`blockLength_nested`).  Hence two constructs are apart or one lies in the other
(`declarations_nest`), and a class has the whole text of each of its methods.
-/
import Traceability.Proofs.Source.Declaration
import Traceability.Proofs.Source.Surroundings
import Traceability.Proofs.Text.Occurrence

namespace Traceability

set_option autoImplicit false

/-! ## Blocks of deeper lines -/

/-- Fewer lines are deeper than a deeper one. -/
theorem blockLength_anti {shallow deep : Nat} (le : shallow ≤ deep) (lines : List Text) :
    blockLength deep lines ≤ blockLength shallow lines := by
  induction lines with
  | nil => exact Nat.le_refl 0
  | cons line rest ih =>
      rw [blockLength, blockLength]
      split
      · split <;> split <;> omega
      · split <;> split <;> omega

/-- The block of a line that stands in a block ends in it. -/
theorem blockLength_nested {indent : Nat} {line : Text} (visible : line.isBlankText = false)
    {above below : List Text} (inside : above.length < blockLength indent (above ++ line :: below)) :
    above.length + (1 + blockLength (indentWidth line) below) ≤
      blockLength indent (above ++ line :: below) := by
  induction above with
  | nil =>
      rw [List.nil_append, blockLength, visible, if_neg Bool.false_ne_true] at inside ⊢
      split at inside
      · exact absurd inside (Nat.lt_irrefl 0)
      · rename_i deeper
        have fewer := blockLength_anti (Nat.le_of_not_le deeper) below
        rw [if_neg deeper, List.length_nil]
        omega
  | cons first above ih =>
      rw [List.cons_append, blockLength, List.length_cons] at inside ⊢
      cases blank : first.isBlankText with
      | true =>
          rw [blank, if_pos rfl] at inside
          rw [if_pos rfl]
          split at inside
          · exact absurd inside (Nat.not_lt_zero _)
          · rename_i length reached
            rw [reached] at ih
            have later := ih (by omega)
            omega
      | false =>
          rw [blank, if_neg Bool.false_ne_true] at inside
          rw [if_neg Bool.false_ne_true]
          split at inside
          · exact absurd inside (Nat.not_lt_zero _)
          · rename_i deeper
            have later := ih (by omega)
            rw [if_neg deeper]
            omega

/-! ## Constructs -/

/-- A signature on one line has the deeper lines below it for its construct. -/
theorem indentedLength_of_flat {line : Text} (flat : bracketBalance line ≤ 0) (rest : List Text) :
    indentedLength (line :: rest) = 1 + blockLength (indentWidth line) rest := by
  have signature : signatureLength 0 (line :: rest) = 1 := by
    rw [signatureLength, Int.zero_add, if_pos flat]
  rw [indentedLength, signature, List.drop_succ_cons, List.drop_zero]

/-- The second declaration starts below the first one.  It is apart from it, or it lies in it, and
then its text stands in that of the first one. -/
def Declaration.Nests (lines : List Text) (outer inner : Declaration) : Prop :=
  outer.start < inner.start ∧
    (outer.stop ≤ inner.start ∨
      inner.stop ≤ outer.stop ∧ inner.text lines <:+: outer.text lines)

namespace Declaration

theorem nests_below {line : Text} {rest : List Text} {outer inner : Declaration} :
    Nests (line :: rest) outer.below inner.below ↔ Nests rest outer inner := by
  rw [Nests, Nests, text_below, text_below]
  simp only [below, Nat.add_lt_add_iff_right, Nat.add_le_add_iff_right]

/-- What lies in a declaration stands in its text. -/
theorem text_infix_text {lines : List Text} {outer inner : Declaration}
    (starts : outer.start ≤ inner.start) (ends : inner.stop ≤ outer.stop) :
    inner.text lines <:+: outer.text lines := by
  refine Text.infix_unlines ?_
  obtain ⟨ahead, place⟩ := Nat.exists_eq_add_of_le starts
  have inside : ((lines.drop outer.start).drop ahead).take (inner.stop - inner.start) <+:
      ((lines.drop outer.start).take (outer.stop - outer.start)).drop ahead := by
    rw [List.drop_take]
    exact List.take_prefix_take_left (by omega)
  rw [List.drop_drop, ← place] at inside
  exact inside.isInfix.trans (List.drop_suffix ahead _).isInfix

/-- With signatures on one line, the construct of the first of some lines is apart from that of a
declaration below it, or has it inside. -/
theorem nests_first {line : Text} {rest : List Text} {name : String} {kind : ConstructKind}
    (flat : bracketBalance line ≤ 0) {declaration : Declaration}
    (member : declaration ∈ declarations .python rest)
    (innerFlat : ∀ row ∈ rest, (declared? .python row).isSome = true → bracketBalance row ≤ 0) :
    Nests (line :: rest) ⟨name, kind, 0, extentLength .python (line :: rest)⟩ declaration.below := by
  obtain ⟨above, row, below, name, kind, rfl, declares, rfl⟩ := mem_declarations_iff.1 member
  have extent := indentedLength_of_flat flat (above ++ row :: below)
  have inner := indentedLength_of_flat (innerFlat row (by simp) (by rw [declares]; rfl)) below
  refine ⟨Nat.succ_pos _, ?_⟩
  by_cases inside : above.length < blockLength (indentWidth line) (above ++ row :: below)
  · have nested := blockLength_nested (isBlankText_of_declared? declares) inside
    have ends : above.length + indentedLength (row :: below) + 1 ≤
        indentedLength (line :: (above ++ row :: below)) := by omega
    exact Or.inr ⟨ends, text_infix_text (Nat.zero_le _) ends⟩
  · have apart : indentedLength (line :: (above ++ row :: below)) ≤ above.length + 1 := by omega
    exact Or.inl apart

end Declaration

/-- **Constructs of the indented family nest.**  Let every declaration close its brackets on its own
line.  Then each covers at least one line and ends within the lines, they start one below the other,
and of two of them the second is apart from the first or lies in it with its whole text. -/
theorem declarations_nest {lines : List Text}
    (flat : ∀ line ∈ lines, (declared? .python line).isSome = true → bracketBalance line ≤ 0) :
    (∀ declaration ∈ declarations .python lines,
        declaration.start < declaration.stop ∧ declaration.stop ≤ lines.length) ∧
      (declarations .python lines).Pairwise (Declaration.Nests lines) := by
  refine ⟨fun declaration member => within_of_mem_declarations member, ?_⟩
  induction lines with
  | nil => exact List.Pairwise.nil
  | cons line rest ih =>
      obtain ⟨here, later⟩ := List.forall_mem_cons.1 flat
      rw [declarations_cons, List.pairwise_append, List.pairwise_map]
      refine ⟨?_, ?_, ?_⟩
      · cases declaredFirst .python line rest with
        | none => exact List.Pairwise.nil
        | some first => exact List.pairwise_singleton _ first
      · exact (ih later).imp Declaration.nests_below.2
      · intro outer first inner below
        obtain ⟨declaration, member, rfl⟩ := List.mem_map.1 below
        obtain ⟨⟨name, kind⟩, declares, rfl⟩ :=
          Option.map_eq_some_iff.1 (Option.mem_toList.1 first)
        exact Declaration.nests_first (here (by rw [declares]; rfl)) member later

/-- Lines of several depths, with blank ones between them and a signature that closes too much. -/
def nestedLines : List Text :=
  ["class A:", "    def f(self)):", "", "        def g(): return 1", "      y = 1", "", "  z = 2",
    "def h(): pass"].map String.toList

/-- The class has the method, and the method the function in it. -/
theorem declarations_nest_in_class :
    (∀ line ∈ nestedLines, (declared? .python line).isSome = true → bracketBalance line ≤ 0) ∧
      declarations .python nestedLines =
        [⟨"A", .data, 0, 7⟩, ⟨"f", .callable, 1, 5⟩, ⟨"g", .callable, 3, 4⟩,
          ⟨"h", .callable, 7, 8⟩] ∧
      (declarations .python nestedLines).Pairwise (Declaration.Nests nestedLines) := by
  have flat : ∀ line ∈ nestedLines, (declared? .python line).isSome = true →
      bracketBalance line ≤ 0 := by
    decide +kernel
  exact ⟨flat, by decide +kernel, (declarations_nest flat).2⟩

end Traceability
