import PhpAudit.Command.Run
import PhpAudit.Proofs.ScanInterleavings

/-!
Lists and counts of violations agree. The results hold the violations of every file, their number
for each rule and, as the sum of these, their number in all. One call of `add` keeps the three in
step, so they agree after any calls, and the exit status, which is taken from the counts, tells
whether some file has a violation.
-/

namespace PhpAudit

namespace Results

/-- The results after violations were added for paths, one list after the other. -/
def addAll (calls : List (String × List Violation)) : Results :=
  calls.foldl (fun results call => results.add call.1 call.2) {}

/-- All violations given for a path. -/
def givenFor (calls : List (String × List Violation)) (path : String) : List Violation :=
  (calls.filter (·.1 = path)).flatMap Prod.snd

/-- The violations of all files. -/
def listed (results : Results) : List Violation := results.files.flatMap Prod.snd

def countOf (results : Results) (code : String) : Nat :=
  (Entries.find? results.counts code).getD 0

/-- The results are those of the given calls, and their parts agree. -/
structure Consistent (calls : List (String × List Violation)) (results : Results) : Prop where
  paths : Entries.keys results.files = (calls.map Prod.fst).eraseDups
  distinct : (Entries.keys results.files).Nodup
  lists : ∀ path, Entries.find? results.files path =
    if path ∈ calls.map Prod.fst then some (givenFor calls path) else none
  listed : results.listed.Perm (calls.flatMap Prod.snd)
  counts : ∀ code, results.countOf code = results.listed.countP (·.rule = code)
  total : results.total = (calls.flatMap Prod.snd).length
  violations : results.hasViolations = true ↔ ∃ call ∈ calls, call.2 ≠ []

/-! One call -/

section Counts

variable (counts : Entries Nat) (code : String)

theorem find?_countViolation (violation : Violation) :
    (Entries.find? (countViolation counts violation) code).getD 0 =
      (Entries.find? counts code).getD 0 + if violation.rule = code then 1 else 0 := by
  rw [countViolation, Entries.find?_put]
  by_cases here : violation.rule = code
  · simp [here]
  · simp [here, Ne.symm here]

theorem find?_foldl_countViolation (violations : List Violation) :
    (Entries.find? (violations.foldl countViolation counts) code).getD 0 =
      (Entries.find? counts code).getD 0 + violations.countP (·.rule = code) := by
  induction violations generalizing counts with
  | nil => simp
  | cons violation rest ih =>
      rw [List.foldl_cons, ih, find?_countViolation, List.countP_cons]
      simp only [decide_eq_true_eq]
      omega

/-- The sum of the counts. -/
def sumOf (counts : Entries Nat) : Nat := counts.foldr (fun entry rest => entry.2 + rest) 0

theorem sumOf_put_succ (counts : Entries Nat) (code : String) :
    sumOf (Entries.put counts code ((Entries.find? counts code).getD 0 + 1)) = sumOf counts + 1 := by
  induction counts with
  | nil => rfl
  | cons entry rest ih =>
      obtain ⟨known, count⟩ := entry
      rw [Entries.find?_cons]
      unfold Entries.put
      by_cases same : code = known
      · subst same
        simp only [beq_self_eq_true, if_true, Option.getD_some, sumOf, List.foldr_cons]
        omega
      · simp only [sumOf] at ih
        simp only [beq_false_of_ne (Ne.symm same), same, Bool.false_eq_true, if_false, sumOf,
          List.foldr_cons, ih]
        omega

theorem sumOf_foldl_countViolation (counts : Entries Nat) (violations : List Violation) :
    sumOf (violations.foldl countViolation counts) = sumOf counts + violations.length := by
  induction violations generalizing counts with
  | nil => rfl
  | cons violation rest ih =>
      rw [List.foldl_cons, ih, countViolation, sumOf_put_succ, List.length_cons]
      omega

end Counts

theorem length_flatMap_pos_iff {lists : List (String × List Violation)} :
    0 < (lists.flatMap Prod.snd).length ↔ ∃ entry ∈ lists, entry.2 ≠ [] := by
  rw [List.length_pos_iff_exists_mem]
  constructor
  · rintro ⟨violation, member⟩
    obtain ⟨entry, inLists, inEntry⟩ := List.mem_flatMap.mp member
    exact ⟨entry, inLists, List.ne_nil_of_mem inEntry⟩
  · rintro ⟨entry, inLists, filled⟩
    obtain ⟨violation, inEntry⟩ := List.exists_mem_of_ne_nil _ filled
    exact ⟨violation, List.mem_flatMap.mpr ⟨entry, inLists, inEntry⟩⟩

theorem consistent_empty : Consistent [] {} where
  paths := rfl
  distinct := List.nodup_nil
  lists _ := rfl
  listed := .nil
  counts _ := rfl
  total := rfl
  violations := by simp [hasViolations, total]

theorem Consistent.add {calls : List (String × List Violation)} {results : Results}
    (consistent : Consistent calls results) (path : String) (violations : List Violation) :
    Consistent (calls ++ [(path, violations)]) (results.add path violations) := by
  have together : (results.add path violations).listed.Perm (results.listed ++ violations) :=
    Entries.flatMap_put_perm results.files path violations
  have total : (results.add path violations).total =
      ((calls ++ [(path, violations)]).flatMap Prod.snd).length := by
    have before : sumOf results.counts = (calls.flatMap Prod.snd).length := consistent.total
    change sumOf (violations.foldl countViolation results.counts) = _
    rw [sumOf_foldl_countViolation, before]
    simp
  refine ⟨?_, Entries.nodup_keys_put consistent.distinct path _, ?_, ?_, ?_, total, ?_⟩
  · change Entries.keys (Entries.put results.files path _) = _
    rw [Entries.keys_put, consistent.paths, List.map_append, List.eraseDups_append]
    by_cases known : path ∈ calls.map Prod.fst
    · simp [known, List.removeAll]
    · simp [known, List.removeAll, List.eraseDups_cons]
  · intro other
    change Entries.find? (Entries.put results.files path _) other = _
    rw [Entries.find?_put, consistent.lists, consistent.lists]
    by_cases here : other = path
    · subst here
      by_cases known : other ∈ calls.map Prod.fst
      · simp [known, givenFor]
      · have fresh : calls.filter (·.1 = other) = [] := by
          refine List.filter_eq_nil_iff.mpr fun call member same => known ?_
          exact List.mem_map.mpr ⟨call, member, by simpa using same⟩
        simp [known, givenFor, fresh]
    · have away : path ≠ other := Ne.symm here
      have given : other ∈ (calls ++ [(path, violations)]).map Prod.fst ↔
          other ∈ calls.map Prod.fst := by simp [here]
      simp only [here, if_false, given]
      simp [givenFor, away]
  · rw [List.flatMap_append, List.flatMap_singleton]
    exact together.trans (consistent.listed.append_right violations)
  · intro code
    have before := consistent.counts code
    unfold countOf at before
    rw [together.countP_eq, List.countP_append, ← before]
    exact find?_foldl_countViolation results.counts code violations
  · rw [hasViolations, total, decide_eq_true_eq, length_flatMap_pos_iff]

/-! Whole runs -/

theorem consistent_addAll (calls : List (String × List Violation)) :
    Consistent calls (addAll calls) := by
  induction calls using List.reverseRecOn with
  | nil => exact consistent_empty
  | append_singleton calls call ih =>
      rw [addAll, List.foldl_append]
      exact ih.add call.1 call.2

/-- Only the lists and the counts matter. -/
theorem Consistent.congr {calls : List (String × List Violation)} {results other : Results}
    (consistent : Consistent calls results) (files : other.files = results.files)
    (counts : other.counts = results.counts) : Consistent calls other := by
  obtain ⟨otherFiles, otherCounts, fileCount, duration⟩ := other
  subst files counts
  exact ⟨consistent.paths, consistent.distinct, consistent.lists, consistent.listed,
    consistent.counts, consistent.total, consistent.violations⟩

/-- The violations that an audit gives for texts. -/
def foundIn (audit : Audit) (items : List ReadText) : List (String × List Violation) :=
  items.map fun item => (item.1, (audit.auditText item.1 item.2).1)

theorem recordAll_eq_foldl (audit : Audit) (items : List ReadText) {results other : Results}
    (files : results.files = other.files) (counts : results.counts = other.counts) :
    (results.recordAll audit items).1.files =
        ((foundIn audit items).foldl (fun results call => results.add call.1 call.2) other).files ∧
      (results.recordAll audit items).1.counts =
        ((foundIn audit items).foldl (fun results call => results.add call.1 call.2) other).counts := by
  induction items generalizing results other with
  | nil => exact ⟨files, counts⟩
  | cons item rest ih =>
      apply ih
      · change Entries.put results.files item.1 _ = Entries.put other.files item.1 _
        rw [files]
        rfl
      · change List.foldl countViolation results.counts _ = List.foldl countViolation other.counts _
        rw [counts]
        rfl

theorem consistent_scan (audit : Audit) (files : List FoundFile) :
    Consistent (foundIn audit (files.filterMap FoundFile.readable)) (scan audit files).1 := by
  obtain ⟨sameFiles, sameCounts⟩ :=
    recordAll_eq_foldl audit (files.filterMap FoundFile.readable)
      (rfl : ({} : Results).files = ({} : Results).files) rfl
  exact (consistent_addAll _).congr sameFiles sameCounts

/-- The counts tell whether some file has a violation. -/
theorem Consistent.exists_filled_iff {calls : List (String × List Violation)} {results : Results}
    (consistent : Consistent calls results) :
    results.hasViolations = true ↔ ∃ entry ∈ results.files, entry.2 ≠ [] := by
  rw [hasViolations, consistent.total, ← consistent.listed.length_eq, decide_eq_true_eq]
  exact length_flatMap_pos_iff

/-- The status with which a run ends tells the same. -/
theorem Consistent.code_status {calls : List (String × List Violation)} {results : Results}
    (consistent : Consistent calls results) :
    (results.status.code = ExitStatus.violations.code ↔ ∃ entry ∈ results.files, entry.2 ≠ []) ∧
      (results.status.code = ExitStatus.clean.code ↔ ∀ entry ∈ results.files, entry.2 = []) := by
  have filled := consistent.exists_filled_iff
  by_cases any : results.hasViolations = true
  · obtain ⟨entry, inFiles, nonempty⟩ := filled.mp any
    simp only [status, any, if_true, true_iff]
    refine ⟨⟨entry, inFiles, nonempty⟩, ?_⟩
    constructor
    · intro clean
      cases clean
    · intro all
      exact absurd (all entry inFiles) nonempty
  · have none : ∀ entry ∈ results.files, entry.2 = [] := by
      intro entry inFiles
      by_contra nonempty
      exact any (filled.mpr ⟨entry, inFiles, nonempty⟩)
    simp only [status, any, Bool.false_eq_true, if_false, true_iff]
    refine ⟨?_, none⟩
    constructor
    · intro found
      cases found
    · rintro ⟨entry, inFiles, nonempty⟩
      exact absurd (none entry inFiles) nonempty

end Results

namespace Command

/-- The configuration that a run works with. -/
inductive Loads (place : Place) (options : Options) : Configuration → Prop
  | standard (asked : options.standardConfiguration = true) : Loads place options .standard
  | absent {path : String} (wanted : options.standardConfiguration = false)
      (named : options.configuration = .text path)
      (missing : place.hasPath (Path.ofText path) = .ok false) : Loads place options .standard
  | file {path : String} {configuration : Configuration}
      (wanted : options.standardConfiguration = false)
      (named : options.configuration = .text path)
      (there : place.hasPath (Path.ofText path) = .ok true)
      (loaded : (Configuration.load (Path.ofText path) (place.read (Path.ofText path))).1 =
        .ok configuration) : Loads place options configuration

/-- The run with these arguments comes to the scan of a source path. -/
structure Scans (place : Place) (arguments : List String) (options : Options)
    (configuration : Configuration) (source : String) : Prop where
  asked : Request.read arguments = .ok (.run options)
  wanted : options.listRules = false
  loads : Loads place options configuration
  named : options.sourceFor configuration = .text source
  there : place.hasPath (Path.ofText source) = .ok true

theorem Scans.run_eq {place : Place} {arguments : List String} {options : Options}
    {configuration : Configuration} {source : String}
    (scans : Scans place arguments options configuration source) (palette : Palette) :
    ∃ log, run place palette arguments =
      scan place palette options log configuration (Path.ofText source) := by
  have runs : ∀ log, runWith place palette options log configuration =
      scan place palette options log configuration (Path.ofText source) := by
    intro log
    simp only [runWith, scans.named, scans.there]
  simp only [run, scans.asked, runOptions, scans.wanted, Bool.false_eq_true, if_false]
  cases scans.loads with
  | standard asked => exact ⟨[], by simp only [asked, if_true, runs]⟩
  | absent wanted named missing =>
      simp only [wanted, Bool.false_eq_true, if_false, named, runLoaded, missing]
      exact ⟨_, runs _⟩
  | file wanted named there loaded =>
      simp only [wanted, Bool.false_eq_true, if_false, named, runLoaded, there]
      split
      · rename_i failed
        rw [failed] at loaded
        cases loaded
      · rename_i found
        rw [found] at loaded
        cases loaded
        exact ⟨_, runs _⟩

/-- The results of the scan of a source path. -/
def scanned (place : Place) (configuration : Configuration) (source : String) : Results :=
  (Results.scan (Audit.prepare configuration).1 (collect place (Path.ofText source))).1

theorem status_scan (place : Place) (palette : Palette) (options : Options) (log : Log)
    (configuration : Configuration) (source : String) :
    (scan place palette options log configuration (Path.ofText source)).status =
      (scanned place configuration source).status := by
  unfold scan scanned
  generalize Audit.prepare configuration = prepared
  dsimp only
  generalize Results.scan prepared.1 (collect place (Path.ofText source)) = found
  rfl

end Command

/-- After any calls the lists of the files, the counts of the rules and their sum agree. So the exit
code of a run that comes to its scan is that for violations if some file has one, and otherwise that
for none, whatever is printed. -/
theorem Results.lists_and_counts_agree (calls : List (String × List Violation)) :
    Consistent calls (addAll calls) ∧
    ∀ place palette arguments options configuration source,
      Command.Scans place arguments options configuration source →
        ((Command.run place palette arguments).status.code = ExitStatus.violations.code ↔
          ∃ entry ∈ (Command.scanned place configuration source).files, entry.2 ≠ []) ∧
        ((Command.run place palette arguments).status.code = ExitStatus.clean.code ↔
          ∀ entry ∈ (Command.scanned place configuration source).files, entry.2 = []) := by
  refine ⟨consistent_addAll calls, ?_⟩
  intro place palette arguments options configuration source scans
  obtain ⟨log, same⟩ := scans.run_eq palette
  rw [same, Command.status_scan, Command.scanned]
  exact (consistent_scan _ _).code_status

/-- A directory with a configuration that says nothing and a program that starts too late. -/
def lateStart : Place :=
  ⟨[("c", .file [123, 125]), ("a", .file [10, 60, 63, 112, 104, 112])], []⟩

theorem Place.find_lateStart :
    lateStart.find (Path.ofText "c") = .ok (.file [123, 125]) ∧
    lateStart.find (Path.ofText "a") = .ok (.file [10, 60, 63, 112, 104, 112]) := by
  constructor
  · change lateStart.follow linkLimit ["c"] = _
    rw [follow]
    rfl
  · change lateStart.follow linkLimit ["a"] = _
    rw [follow]
    rfl

theorem Request.read_lateStart :
    Request.read ["-q", "-c", "c", "-s", "a"] =
      .ok (.run { configuration := .text "c", quiet := true, source := some (.text "a") }) := by
  change Reading.readAll {} [("-q", .known .quiet true none),
    ("-c", .known .configuration true none), ("c", .plain),
    ("-s", .known .source true none), ("a", .plain)] = _
  simp only [Reading.readAll]
  rfl

theorem Command.scans_lateStart :
    Scans lateStart ["-q", "-c", "c", "-s", "a"]
      { configuration := .text "c", quiet := true, source := some (.text "a") } {} "a" where
  asked := Request.read_lateStart
  wanted := rfl
  loads := by
    refine .file rfl rfl ?_ ?_
    · rw [Place.hasPath, Place.find_lateStart.1]
    · rw [Place.read, Place.find_lateStart.1]
      rfl
  named := rfl
  there := by rw [Place.hasPath, Place.find_lateStart.2]

theorem Results.lists_and_counts_agree_lateStart :
    (Command.run lateStart .plain ["-q", "-c", "c", "-s", "a"]).status.code = 1 := by
  obtain ⟨violated, -⟩ :=
    (lists_and_counts_agree []).2 _ .plain _ _ _ _ Command.scans_lateStart
  refine violated.mpr ((consistent_scan _ _).exists_filled_iff.mp ?_)
  refine (consistent_scan _ _).violations.mpr ?_
  have collected : Command.collect lateStart (Path.ofText "a") =
      [⟨{ parts := ["a"] }, .ok [10, 60, 63, 112, 104, 112]⟩] := by
    rw [Command.collect, Place.discover, Place.find_lateStart.2, List.map_singleton, Place.read,
      Place.find_lateStart.2]
    rfl
  rw [collected]
  refine ⟨_, List.mem_singleton_self _, ?_⟩
  have selected : Rule.ofCheck .openingTag ∈ (Audit.prepare {}).1.rules := by
    simp [Audit.prepare, Catalogue.configure, Catalogue.selected, Catalogue.all,
      Catalogue.standard, Check.all]
  have reported : ((Rule.ofCheck .openingTag).violations
      (SourceFile.ofText "a" "\n<?php").1).length = 1 := rfl
  obtain ⟨violation, member⟩ := List.exists_mem_of_length_pos (reported ▸ Nat.one_pos)
  exact List.ne_nil_of_mem (List.mem_flatMap.mpr ⟨_, selected, member⟩)

end PhpAudit
