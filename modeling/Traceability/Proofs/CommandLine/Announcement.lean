/-
# Traceability.Proofs.CommandLine.Announcement -- how many links `sync` calls broken

Three numbers stand for the broken links of a validated store.  The statuses that are
saved and the health report both go by the link (`report_broken_of_run`).  The line that
`sync` prints goes by the identifier: checks that do not pass are told apart by it alone,
so links that share an identifier are announced once (`brokenCount_of_run`).

`sync_announces` puts the three side by side, for a store that can be saved; they agree
when the broken links have different identifiers, and in no other case.
-/
import Mathlib.Data.Finset.Dedup
import Mathlib.Data.Finset.Card
import Traceability.Proofs.CommandLine.Sync

namespace Traceability

set_option autoImplicit false

/-! ## Counting without repeats -/

theorem nodup_eraseDups {α : Type} [DecidableEq α] (items : List α) : items.eraseDups.Nodup := by
  match items with
  | [] => exact List.nodup_nil
  | item :: rest =>
      rw [List.eraseDups_cons, List.nodup_cons, List.mem_eraseDups]
      refine ⟨?_, nodup_eraseDups _⟩
      rw [List.mem_filter]
      rintro ⟨-, apart⟩
      rw [beq_self_eq_true] at apart
      exact nomatch apart
termination_by items.length
decreasing_by exact Nat.lt_succ_of_le (List.length_filter_le _ _)

theorem length_eraseDups {α : Type} [DecidableEq α] (items : List α) :
    items.eraseDups.length = items.toFinset.card := by
  have members : items.eraseDups.toFinset = items.toFinset := by
    ext item
    rw [List.mem_toFinset, List.mem_toFinset, List.mem_eraseDups]
  rw [← members, List.toFinset_card_of_nodup (nodup_eraseDups items)]

/-! ## The broken links -/

def Store.broken (store : Store) : List Link := store.links.filter (·.status = .broken)

section

variable {validator : Validator} {store : Store} {now : ZonedTime} {report : ValidationReport}

theorem Validator.status_refresh_eq_broken_iff (validator : Validator) (timestamp : String)
    (link : Link) : (validator.refresh timestamp link).status = .broken ↔
      ∃ check ∈ validator.checkLink link, check.passed = false := by
  rw [refresh]
  dsimp only
  split
  · rename_i all
    simp only [reduceCtorEq, false_iff, not_exists, not_and, Bool.not_eq_false]
    exact List.all_eq_true.1 all
  · rename_i some
    simp only [true_iff]
    simpa using some

theorem Validator.matrixId_of_mem_checkLink {link : Link} {check : TargetCheck}
    (member : check ∈ validator.checkLink link) : check.matrixId = link.matrixId := by
  obtain ⟨target, -, rfl⟩ := List.mem_map.1 member
  rfl

/-- A validation leaves no link that is neither valid nor broken, so the health report counts as
broken the links that are. -/
theorem report_broken_of_run (ran : validator.run store now = .ok report) :
    (HealthReport.ofStore report.store).broken = report.store.broken.length := by
  obtain ⟨timestamp, -, rfl⟩ := Validator.exists_timestamp_of_run ran
  have decided : ∀ link ∈ store.links.map (validator.refresh timestamp),
      decide (link.status ≠ .valid) = decide (link.status = .broken) := by
    intro link member
    obtain ⟨old, -, rfl⟩ := List.mem_map.1 member
    rw [Validator.refresh]
    dsimp only
    split <;> rfl
  exact congrArg (fun links : List Link => (links.length : Int)) (List.filter_congr decided)

/-- The identifiers of the checks that do not pass are those of the broken links. -/
theorem matrixId_mem_failures_iff (ran : validator.run store now = .ok report) (name : String) :
    name ∈ report.failures.map (·.matrixId) ↔ name ∈ report.store.broken.map (·.matrixId) := by
  obtain ⟨timestamp, -, rfl⟩ := Validator.exists_timestamp_of_run ran
  simp only [ValidationReport.failures, Store.broken, List.mem_map, List.mem_filter,
    List.mem_flatMap, Bool.not_eq_true', decide_eq_true_eq]
  constructor
  · rintro ⟨check, ⟨⟨link, there, member⟩, fails⟩, rfl⟩
    have broken := (validator.status_refresh_eq_broken_iff timestamp link).2 ⟨check, member, fails⟩
    exact ⟨_, ⟨⟨link, there, rfl⟩, broken⟩, (Validator.matrixId_of_mem_checkLink member).symm⟩
  · rintro ⟨_, ⟨⟨link, there, rfl⟩, broken⟩, rfl⟩
    obtain ⟨check, member, fails⟩ :=
      (validator.status_refresh_eq_broken_iff timestamp link).1 broken
    exact ⟨check, ⟨⟨link, there, member⟩, fails⟩, Validator.matrixId_of_mem_checkLink member⟩

/-- What `sync` counts are the identifiers of the broken links. -/
theorem brokenCount_of_run (ran : validator.run store now = .ok report) :
    CommandLine.ValidationReport.brokenCount report =
      (report.store.broken.map (·.matrixId)).toFinset.card := by
  rw [CommandLine.ValidationReport.brokenCount, length_eraseDups]
  congr 1
  ext name
  rw [List.mem_toFinset, List.mem_toFinset, matrixId_mem_failures_iff ran]

end

namespace CommandLine

/-! ## The line about broken links -/

def brokenLine (count : Nat) : String := s!"{count} link(s) BROKEN."

/-- What is said announces so many broken links; a missing line stands for none. -/
def Announces (output : List String) (count : Nat) : Prop :=
  ∀ other, brokenLine other ∈ output ↔ other = count ∧ count ≠ 0

theorem toList_brokenLine (count : Nat) :
    (brokenLine count).toList = Nat.toDigits 10 count ++ " link(s) BROKEN.".toList := by
  rw [brokenLine, String.toList_append, Nat.toString_eq_repr, Nat.repr_eq_ofList_toDigits,
    String.toList_ofList]
  rfl

theorem brokenLine_inj {one two : Nat} : brokenLine one = brokenLine two ↔ one = two := by
  refine ⟨fun same => ?_, congrArg brokenLine⟩
  have texts := congrArg String.toList same
  rw [toList_brokenLine, toList_brokenLine, List.append_cancel_right_eq] at texts
  have read := congrArg (Nat.ofDigitChars 10 · 0) texts
  rwa [Nat.ofDigitChars_ten_toDigits, Nat.ofDigitChars_ten_toDigits] at read

/-- At most one number is announced. -/
theorem Announces.unique {output : List String} {one two : Nat} (first : Announces output one)
    (second : Announces output two) : one = two := by
  by_cases none : one = 0
  · by_contra apart
    have said := (second two).2 ⟨rfl, fun zero => apart (none.trans zero.symm)⟩
    exact ((first two).1 said).2 none
  · exact ((second one).1 ((first one).2 ⟨rfl, none⟩)).1

/-- The line begins with a digit. -/
theorem exists_head?_brokenLine (count : Nat) :
    ∃ c, (brokenLine count).toList.head? = some c ∧ c.isDigit = true := by
  rw [toList_brokenLine]
  cases digits : Nat.toDigits 10 count with
  | nil => exact absurd digits Nat.toDigits_ne_nil
  | cons c rest =>
      refine ⟨c, rfl, Nat.isDigit_of_mem_toDigits (n := count) (b := 10) (by decide) le_rfl ?_⟩
      rw [digits]
      exact List.mem_cons_self

theorem head?_append_of_eq_some {front : String} {c : Char} (opens : front.toList.head? = some c)
    (back : String) : (front ++ back).toList.head? = some c := by
  rw [String.toList_append, List.head?_append, opens]
  rfl

/-- What is said about a target begins with a mark. -/
theorem head?_text (check : TargetCheck) :
    check.text.toList.head? = some '✓' ∨ check.text.toList.head? = some '✗' := by
  have begins : ∀ (line : String) (others : List String) {c : Char}, line.toList.head? = some c →
      ("\n".intercalate (line :: others)).toList.head? = some c := by
    intro line others c opens
    cases others with
    | nil => rwa [String.intercalate_singleton]
    | cons other rest =>
        rw [String.intercalate_cons_of_ne_nil (by simp)]
        exact head?_append_of_eq_some (head?_append_of_eq_some opens _) _
  rw [TargetCheck.text]
  cases check.failure with
  | none =>
      refine .inl (begins _ _ ?_)
      simp only [String.toList_append, List.head?_append]
      rfl
  | some failure =>
      refine .inr (begins _ _ ?_)
      simp only [String.toList_append, List.head?_append]
      rfl

theorem brokenLine_ne_of_head? {line : String} {c : Char} (opens : line.toList.head? = some c)
    (noDigit : c.isDigit = false) (count : Nat) : brokenLine count ≠ line := by
  rintro rfl
  obtain ⟨digit, here, isDigit⟩ := exists_head?_brokenLine count
  rw [opens, Option.some.injEq] at here
  rw [here, isDigit] at noDigit
  exact nomatch noDigit

/-- What is said before the summary does not announce anything. -/
theorem announces_summary {lines : List String} (report : ValidationReport)
    (silent : ∀ count, brokenLine count ∉ lines) :
    Announces (lines ++ syncSummary report) (ValidationReport.brokenCount report) := by
  intro other
  have last : brokenLine other ≠ s!"Sync Complete. Validated {report.store.links.length} links." :=
    brokenLine_ne_of_head? (head?_append_of_eq_some (head?_append_of_eq_some (c := 'S') rfl _) _)
      (by decide) other
  rw [List.mem_append, or_iff_right (silent other), syncSummary, List.mem_append,
    List.mem_singleton, or_iff_left last]
  split
  · rename_i none
    simp only [none, List.not_mem_nil, ne_eq, not_true, and_false]
  · rename_i some
    rw [List.mem_singleton]
    exact brokenLine_inj.trans (iff_self_and.2 fun _ => some)

section

variable {host : Host} {options : CommonOptions} {tree next : FileTree} {input : SyncInput}

/-- Unless it is told to be quiet, `sync` announces the number of identifiers whose links are
broken. -/
theorem sync_announces_brokenCount (read : SyncInput.read host options tree = .ok input)
    {report : ValidationReport} (validated : input.validate tree host.now = .ok report)
    (saved : Store.save tree input.storePath report.store = .ok next)
    (speaks : options.quiet = false) :
    Announces (sync host options tree).output (ValidationReport.brokenCount report) := by
  have output : (sync host options tree).output =
      (if options.verbose then report.checks.map TargetCheck.text else []) ++
        syncSummary report := by
    simp only [sync, read, validated, saved, speaks, Bool.false_eq_true, if_false]
  rw [output]
  refine announces_summary report fun count member => ?_
  split at member
  · obtain ⟨check, -, said⟩ := List.mem_map.1 member
    rcases head?_text check with opens | opens
    · exact brokenLine_ne_of_head? opens (by decide) count said.symm
    · exact brokenLine_ne_of_head? opens (by decide) count said.symm
  · exact absurd member List.not_mem_nil

/-- **What `sync` says of broken links, and what it saves.**  Once everything is read, the policy is
known, the disk shows the files of the targets, and the time can be written, there is a validated
store.  If it cannot be saved, `sync` fails and says nothing of it.  Otherwise it is saved.  The
health report counts the broken links of that store; the line that is printed counts their
identifiers.  It is the number of broken links exactly when no two of them have the same identifier. -/
theorem sync_announces (read : SyncInput.read host options tree = .ok input) {strict : Json}
    (policy : input.workspace.setting "validation" "strict_drift" = .ok strict)
    (looked : tree.lookAll input.targetPaths = .ok ())
    {timestamp : String} (written : host.now.utcText? = some timestamp)
    (speaks : options.quiet = false) :
    ∃ report, input.validate tree host.now = .ok report ∧
      (HealthReport.ofStore report.store).broken = report.store.broken.length ∧
      (∀ unsaved, Store.save tree input.storePath report.store = .error unsaved →
        sync host options tree =
          .failed unsaved.tree unsaved.failure (input.missingSnapshot options)) ∧
      ∀ next, Store.save tree input.storePath report.store = .ok next →
        (sync host options tree).ending = .ok 0 ∧ (sync host options tree).tree = next ∧
        Announces (sync host options tree).output
          (report.store.broken.map (·.matrixId)).toFinset.card ∧
        (Announces (sync host options tree).output report.store.broken.length ↔
          (report.store.broken.map (·.matrixId)).Nodup) := by
  obtain ⟨report, ran⟩ : ∃ report, Validator.run
      ⟨input.workspace, tree, input.snapshot, strict.isGiven⟩ input.store host.now = .ok report := by
    rw [Validator.run, written]
    exact ⟨_, rfl⟩
  have validated := SyncInput.validate_eq_ok_iff.2 ⟨strict, policy, ran, looked⟩
  refine ⟨report, validated, report_broken_of_run ran,
    fun unsaved fails => sync_of_unsaved read validated fails, fun next saved => ?_⟩
  obtain ⟨left, ending⟩ := sync_of_saved read validated saved
  have announced := sync_announces_brokenCount read validated saved speaks
  rw [brokenCount_of_run ran] at announced
  refine ⟨ending, left, announced, ?_⟩
  have distinct : (report.store.broken.map (·.matrixId)).toFinset.card = report.store.broken.length ↔
      (report.store.broken.map (·.matrixId)).Nodup := by
    rw [← List.length_map (·.matrixId)]
    exact Multiset.toFinset_card_eq_card_iff_nodup
  rw [← distinct]
  constructor
  · exact announced.unique
  · intro same
    rwa [← same]

end

/-- A workspace with two links to a file that is not there. -/
def missingTargets (first second : String) : FileTree :=
  { entries := [(["w"], .directory), (["w", ".hybrid"], .directory), (usualStorePath.names, .file
      (Text.Utf8.encode (Store.linksText
        [Store.linkDocument first "f.py" "# R1", Store.linkDocument second "f.py" "# R1"])))] }

/-- Two broken links with different identifiers are announced as two. -/
theorem sync_announces_two : ∃ input report,
    SyncInput.read (hostWith []) {} (missingTargets "M" "N") = .ok input ∧
      input.validate (missingTargets "M" "N") (hostWith []).now = .ok report ∧
      report.store.broken.map (·.matrixId) = ["M", "N"] ∧
      Announces (sync (hostWith []) {} (missingTargets "M" "N")).output 2 := by
  have settled : (SyncInput.read (hostWith []) {} (missingTargets "M" "N")).toOption.any
      (fun (input : SyncInput) =>
        (input.workspace.setting "validation" "strict_drift").toOption.any (fun _ => true) &&
        ((missingTargets "M" "N").lookAll input.targetPaths).toOption.any (fun _ => true) &&
        (input.validate (missingTargets "M" "N") (hostWith []).now).toOption.any fun report =>
          (Store.save (missingTargets "M" "N") input.storePath report.store).toOption.any
              (fun _ => true) &&
            decide (report.store.broken.map (·.matrixId) = ["M", "N"])) = true := by decide +kernel
  obtain ⟨input, read, facts⟩ := exists_ok_of_any settled
  simp only [Bool.and_eq_true] at facts
  obtain ⟨⟨given, looks⟩, ran⟩ := facts
  obtain ⟨strict, policy, -⟩ := exists_ok_of_any given
  obtain ⟨_, looked, -⟩ := exists_ok_of_any looks
  obtain ⟨found, ran, facts⟩ := exists_ok_of_any ran
  obtain ⟨saves, ids⟩ := Bool.and_eq_true_iff.1 facts
  obtain ⟨next, saved, -⟩ := exists_ok_of_any saves
  have written : (hostWith []).now.utcText? = some "2024-01-02T03:04:05.678Z" := by decide +kernel
  obtain ⟨report, validated, -, -, done⟩ := sync_announces read policy looked written rfl
  rw [validated, Except.ok.injEq] at ran
  subst ran
  obtain ⟨-, -, -, all⟩ := done next saved
  have names := of_decide_eq_true ids
  have two : report.store.broken.length = 2 := by
    rw [← List.length_map (·.matrixId), names]
    rfl
  refine ⟨input, report, read, validated, names, ?_⟩
  rw [← two]
  exact all.2 (by rw [names]; decide)

/-- Two broken links with one identifier are announced as one. -/
theorem sync_announces_namesakes_once : ∃ input report,
    SyncInput.read (hostWith []) {} (missingTargets "M" "M") = .ok input ∧
      input.validate (missingTargets "M" "M") (hostWith []).now = .ok report ∧
      Store.save (missingTargets "M" "M") input.storePath report.store =
        .ok (sync (hostWith []) {} (missingTargets "M" "M")).tree ∧
      report.store.broken.length = 2 ∧ (HealthReport.ofStore report.store).broken = 2 ∧
      Announces (sync (hostWith []) {} (missingTargets "M" "M")).output 1 ∧
      ¬Announces (sync (hostWith []) {} (missingTargets "M" "M")).output 2 := by
  have settled : (SyncInput.read (hostWith []) {} (missingTargets "M" "M")).toOption.any
      (fun (input : SyncInput) =>
        (input.validate (missingTargets "M" "M") (hostWith []).now).toOption.any fun report =>
          (Store.save (missingTargets "M" "M") input.storePath report.store).toOption.any
              (fun _ => true) &&
            decide (report.store.broken.length = 2 ∧ (HealthReport.ofStore report.store).broken = 2 ∧
              ValidationReport.brokenCount report = 1)) = true := by decide +kernel
  obtain ⟨input, read, ran⟩ := exists_ok_of_any settled
  obtain ⟨report, validated, facts⟩ := exists_ok_of_any ran
  obtain ⟨saves, facts⟩ := Bool.and_eq_true_iff.1 facts
  obtain ⟨next, saved, -⟩ := exists_ok_of_any saves
  obtain ⟨links, reported, counted⟩ := of_decide_eq_true facts
  have once := sync_announces_brokenCount read validated saved rfl
  rw [counted] at once
  have left := (sync_of_saved read validated saved).1
  exact ⟨input, report, read, validated, saved.trans (congrArg Except.ok left.symm), links, reported,
    once, fun twice => absurd (once.unique twice) (by decide)⟩

end CommandLine

end Traceability
