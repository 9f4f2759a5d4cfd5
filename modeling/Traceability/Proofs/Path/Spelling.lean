/-
# Traceability.Proofs.Path.Spelling -- spellings of one path

Every text spells a path: some separators, which decide where the path starts, and
then segments with a separator between any two (`exists_spelling`).  Of the segments,
the names that are neither empty nor `.` are read (`ofString_spell`), and a path that
has been read is read again from its usual spelling (`ofString_toString_of_isReadable`).

`Respells` lists what can be done to a spelling without naming another path: `.` or a
name with `..` behind it between segments, a separator twice, a separator at the end.
Seen from any directory, the normal form stays (`Respells.normalize_join`).  A separator
at the end is another matter where there are no segments: behind nothing, behind one
separator and behind two, it makes the root of a path or changes it.
-/
import Mathlib.Logic.Relation
import Traceability.Proofs.Path

namespace Traceability.Path

set_option autoImplicit false

/-! ## Separators and segments -/

/-- Segments between separators, the first of which does not begin with one. -/
structure IsCut (segments : List Text) : Prop where
  unbroken : ∀ segment ∈ segments, '/' ∉ segment
  begins : segments.head? ≠ some []

/-- Separators, and then the segments with a separator between any two. -/
def spell (lead : Nat) (segments : List Text) : String :=
  String.ofList (List.replicate lead '/' ++ Text.joinWith '/' segments)

/-- Every text is spelled with separators and segments. -/
theorem exists_spelling (path : String) :
    ∃ lead segments, IsCut segments ∧ path = spell lead segments := by
  have spelled : ∀ text : Text, ∃ lead segments, IsCut segments ∧
      text = List.replicate lead '/' ++ Text.joinWith '/' segments := by
    intro text
    induction text with
    | nil => exact ⟨0, [], ⟨nofun, nofun⟩, rfl⟩
    | cons c rest ih =>
        by_cases separator : c = '/'
        · obtain ⟨lead, segments, cut, rfl⟩ := ih
          exact ⟨lead + 1, segments, cut, by rw [separator]; rfl⟩
        · refine ⟨0, Text.split '/' (c :: rest), ⟨fun _ => Text.not_mem_of_mem_split, ?_⟩,
            (Text.joinWith_split '/' (c :: rest)).symm⟩
          obtain ⟨first, others, cut⟩ :=
            List.exists_cons_of_ne_nil (Text.split_ne_nil '/' rest)
          rw [Text.split_cons_of_ne separator cut]
          simp
  obtain ⟨lead, segments, cut, text⟩ := spelled path.toList
  exact ⟨lead, segments, cut, by rw [spell, ← text, String.ofList_toList]⟩

/-- The anchor that a number of separators at the front means. -/
def anchorWith (lead : Nat) : Anchor :=
  match lead with
  | 0 => .relative
  | 2 => .doubleRoot
  | _ => .root

namespace IsCut

variable {segments front back : List Text}

/-- No separator comes right behind those at the front. -/
theorem takeWhile_joinWith (cut : IsCut segments) :
    (Text.joinWith '/' segments).takeWhile (· == '/') = [] := by
  cases segments with
  | nil => rfl
  | cons segment others =>
      cases segment with
      | nil => exact absurd rfl cut.begins
      | cons c rest =>
          have unbroken := cut.unbroken (c :: rest) List.mem_cons_self
          have other : (c == '/') = false := by
            apply beq_eq_false_iff_ne.2
            rintro rfl
            exact unbroken List.mem_cons_self
          rw [Text.joinWith_cons_cons, List.takeWhile_cons, other]
          rfl

/-- One more segment, which is not empty if it comes first. -/
theorem insert (cut : IsCut (front ++ back)) {segment : Text} (unbroken : '/' ∉ segment)
    (first : segment = [] → front ≠ []) : IsCut (front ++ segment :: back) := by
  constructor
  · intro other member
    rw [List.mem_append, List.mem_cons, or_left_comm, ← List.mem_append] at member
    rcases member with rfl | old
    · exact unbroken
    · exact cut.unbroken other old
  · cases front with
    | nil =>
        intro empty
        exact first (Option.some.inj empty) rfl
    | cons head front => exact cut.begins

end IsCut

/-- The segments of a path, but for empty ones. -/
theorem split_replicate (lead : Nat) (text : Text) :
    Text.split '/' (List.replicate lead '/' ++ text) =
      List.replicate lead [] ++ Text.split '/' text := by
  induction lead with
  | zero => rfl
  | succ lead ih =>
      rw [List.replicate_succ, List.cons_append, Text.split_cons_separator, ih]
      rfl

/-- **What a spelling is read as.**  The separators at the front decide where the path starts, and the
segments are its names, except for those that are empty or the directory itself. -/
theorem ofString_spell {lead : Nat} {segments : List Text} (cut : IsCut segments) :
    ofString (spell lead segments) =
      ⟨anchorWith lead, (segments.map String.ofList).filter isKept⟩ := by
  have anchor : anchorOf (List.replicate lead '/' ++ Text.joinWith '/' segments) =
      anchorWith lead := by
    have separators : ∀ c ∈ List.replicate lead '/', (c == '/') = true := by
      intro c member
      rw [(List.mem_replicate.1 member).2]
      rfl
    rw [anchorOf, List.takeWhile_append_of_pos separators, cut.takeWhile_joinWith, List.append_nil,
      List.length_replicate]
    rfl
  have dropped : ((List.replicate lead ([] : Text)).map String.ofList).filter isKept = [] := by
    rw [List.map_replicate, List.filter_replicate]
    rfl
  have read : ((Text.split '/' (Text.joinWith '/' segments)).map String.ofList).filter isKept =
      (segments.map String.ofList).filter isKept := by
    by_cases none_left : segments = []
    · rw [none_left]
      rfl
    · rw [Text.split_joinWith none_left cut.unbroken]
  simp only [ofString, spell, String.toList_ofList, anchor, split_replicate, List.map_append,
    List.filter_append, dropped, List.nil_append, read]

/-! ## Usual spellings -/

/-- A path with names that can be read: none is dropped or taken apart. -/
def IsReadable (path : Path) : Prop :=
  ∀ name ∈ path.names, isKept name = true ∧ '/' ∉ name.toList

theorem isReadable_ofString (spelling : String) : (ofString spelling).IsReadable := by
  intro name member
  obtain ⟨among, kept⟩ := List.mem_filter.1 member
  obtain ⟨segment, piece, rfl⟩ := List.mem_map.1 among
  refine ⟨kept, ?_⟩
  rw [String.toList_ofList]
  exact Text.not_mem_of_mem_split piece

theorem IsReadable.join {base other : Path} (here : base.IsReadable) (there : other.IsReadable) :
    (base.join other).IsReadable := by
  unfold Path.join
  split
  · exact there
  · intro name member
    rcases List.mem_append.1 member with above | below
    · exact here name above
    · exact there name below

theorem IsReadable.isCut {path : Path} (readable : path.IsReadable) :
    IsCut (path.names.map String.toList) := by
  constructor
  · intro segment member
    obtain ⟨name, among, rfl⟩ := List.mem_map.1 member
    exact (readable name among).2
  · cases names : path.names with
    | nil => nofun
    | cons name others =>
        intro empty
        have nameless : name = "" := String.toList_eq_nil_iff.1 (Option.some.inj empty)
        have kept := (readable name (by rw [names]; exact List.mem_cons_self)).1
        rw [nameless] at kept
        exact absurd kept (by decide)

/-- Names that can be read are read as they are, and the separators in front of them as an anchor. -/
theorem IsReadable.ofString_intercalate {path : Path} (readable : path.IsReadable) (front : String)
    (lead : Nat) (leads : front.toList = List.replicate lead '/') :
    ofString (front ++ "/".intercalate path.names) = ⟨anchorWith lead, path.names⟩ := by
  have spelled : front ++ "/".intercalate path.names = spell lead (path.names.map String.toList) := by
    rw [spell, ← toList_intercalate, ← leads, ← String.toList_append, String.ofList_toList]
  have names : ((path.names.map String.toList).map String.ofList).filter isKept = path.names := by
    rw [List.map_map, List.filter_eq_self.2]
    · simp [Function.comp_def]
    · intro name member
      obtain ⟨other, among, rfl⟩ := List.mem_map.1 member
      simpa using (readable other among).1
  rw [spelled, ofString_spell readable.isCut, names]

/-- **A path that can be read is read from its usual spelling.** -/
theorem ofString_toString_of_isReadable {path : Path} (readable : path.IsReadable) :
    ofString path.toString = path := by
  obtain ⟨anchor, names⟩ := path
  cases anchor with
  | relative =>
      cases names with
      | nil => decide
      | cons name others => exact readable.ofString_intercalate "" 0 rfl
  | root => exact readable.ofString_intercalate "/" 1 rfl
  | doubleRoot => exact readable.ofString_intercalate "//" 2 rfl

/-! ## Other spellings -/

/-- An edit of the spelling of a path.  A segment is put in between the segments `front` and `back`,
or at one of their ends. -/
inductive Respells : String → String → Prop where
  /-- The directory itself. -/
  | self {lead : Nat} {front back : List Text} (cut : IsCut (front ++ back)) :
      Respells (spell lead (front ++ back)) (spell lead (front ++ ['.'] :: back))
  /-- Into a directory and out of it. -/
  | detour {lead : Nat} {front back : List Text} (cut : IsCut (front ++ back)) {name : String}
      (ordinary : IsName name) :
      Respells (spell lead (front ++ back))
        (spell lead (front ++ name.toList :: ['.', '.'] :: back))
  /-- A separator between two segments written twice. -/
  | double {lead : Nat} {front back : List Text} (cut : IsCut (front ++ back)) (before : front ≠ [])
      (behind : back ≠ []) :
      Respells (spell lead (front ++ back)) (spell lead (front ++ [] :: back))
  /-- A separator at the end, unless it would make a root or change one. -/
  | trailing {path : String} (noRoot : path ∉ ["", "/", "//"]) : Respells path (path ++ "/")

/-- Two spellings of one path, by any number of edits in either direction. -/
def SpelledAlike : String → String → Prop := Relation.EqvGen Respells

theorem joinWith_concat_nil {segments : List Text} (nonempty : segments ≠ []) :
    Text.joinWith '/' (segments ++ [[]]) = Text.joinWith '/' segments ++ ['/'] := by
  induction segments with
  | nil => exact absurd rfl nonempty
  | cons segment others ih =>
      by_cases last : others = []
      · rw [last]
        rfl
      · have more : others ++ [[]] ≠ [] := by simp
        rw [List.cons_append, Text.joinWith_cons '/' segment more, ih last,
          Text.joinWith_cons '/' segment last, List.append_assoc, List.cons_append]

/-- A separator behind a path that has segments, or that has a root which no separator changes. -/
theorem ofString_trailing {path : String} (noRoot : path ∉ ["", "/", "//"]) :
    ofString (path ++ "/") = ofString path := by
  obtain ⟨lead, segments, cut, rfl⟩ := exists_spelling path
  by_cases none_left : segments = []
  · subst none_left
    have longer : spell lead [] ++ "/" = spell (lead + 1) [] := by
      apply String.toList_inj.1
      simp [spell, Text.joinWith, List.replicate_succ']
    -- Three separators and more are all the same root.
    rw [longer, ofString_spell cut, ofString_spell cut]
    rcases lead with _ | _ | _ | lead
    case succ.succ.succ => rfl
    all_goals exact absurd (by decide) noRoot
  · have longer : spell lead segments ++ "/" = spell lead (segments ++ [[]]) := by
      apply String.toList_inj.1
      simp [spell, joinWith_concat_nil none_left]
    have stillCut : IsCut (segments ++ [[]]) :=
      IsCut.insert (by rwa [List.append_nil]) List.not_mem_nil fun _ => none_left
    rw [longer, ofString_spell stillCut, ofString_spell cut, List.map_append, List.filter_append]
    simp [isKept]

/-- Into a directory and out of it is nowhere. -/
theorem normalize_detour (anchor : Anchor) (front back : List String) {name : String}
    (ordinary : IsName name) :
    normalize ⟨anchor, front ++ name :: ".." :: back⟩ = normalize ⟨anchor, front ++ back⟩ := by
  have into : ∀ absolute before, pushName absolute before name = name :: before :=
    fun absolute before => if_neg ordinary.notParent
  have out : ∀ absolute before, pushName absolute (name :: before) ".." = before := by
    intro absolute before
    rw [pushName, if_pos rfl]
    exact if_neg ordinary.notParent
  simp only [normalize, isAbsolute, List.foldl_append, List.foldl_cons, into, out]

theorem normalize_join_detour (base : Path) (anchor : Anchor) (front back : List String)
    {name : String} (ordinary : IsName name) :
    (base.join ⟨anchor, front ++ name :: ".." :: back⟩).normalize =
      (base.join ⟨anchor, front ++ back⟩).normalize := by
  unfold join
  show (if (anchor != .relative) = true then _ else _ : Path).normalize =
    (if (anchor != .relative) = true then _ else _ : Path).normalize
  split
  · exact normalize_detour anchor front back ordinary
  · rw [← List.append_assoc, ← List.append_assoc]
    exact normalize_detour base.anchor (base.names ++ front) back ordinary

/-- **An edit of the spelling leaves the normal form as it is**, from wherever the path is seen. -/
theorem Respells.normalize_join {a b : String} (respells : Respells a b) (base : Path) :
    (base.join (ofString a)).normalize = (base.join (ofString b)).normalize := by
  cases respells with
  | self cut =>
      rw [ofString_spell cut, ofString_spell (cut.insert (by decide) (by simp))]
      simp [isKept]
  | double cut before behind =>
      rw [ofString_spell cut, ofString_spell (cut.insert List.not_mem_nil fun _ => before)]
      simp [isKept]
  | trailing noRoot => rw [ofString_trailing noRoot]
  | @detour lead front back cut name ordinary =>
      have nonempty : name.toList ≠ [] := fun empty =>
        ordinary.nonempty (String.toList_eq_nil_iff.1 empty)
      have longer : IsCut (front ++ name.toList :: ['.', '.'] :: back) :=
        (cut.insert (by decide) (by simp)).insert ordinary.unbroken
          fun empty => absurd empty nonempty
      have names : ((front ++ name.toList :: ['.', '.'] :: back).map String.ofList).filter isKept =
          (front.map String.ofList).filter isKept ++
            name :: ".." :: (back.map String.ofList).filter isKept := by
        have up : isKept ".." = true := by decide
        rw [List.map_append, List.filter_append, List.map_cons, List.map_cons,
          String.ofList_toList, List.filter_cons_of_pos ordinary.isKept]
        exact congrArg _ (congrArg _ (List.filter_cons_of_pos up))
      rw [ofString_spell cut, ofString_spell longer, names, List.map_append, List.filter_append,
        normalize_join_detour base _ _ _ ordinary]

theorem SpelledAlike.normalize_join {a b : String} (alike : SpelledAlike a b) (base : Path) :
    (base.join (ofString a)).normalize = (base.join (ofString b)).normalize := by
  induction alike with
  | rel a b respells => exact respells.normalize_join base
  | refl a => rfl
  | symm a b _ ih => exact ih.symm
  | trans a b c _ _ first second => exact first.trans second

end Traceability.Path
