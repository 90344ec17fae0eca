import Mathlib.Data.List.Induction
import PhpAudit.Command.Scan
import PhpAudit.Proofs.EntryTables

/-!
A scan by two threads. One looks at the files it finds and puts what it can read into a queue, with an
end mark behind everything, also when its walk fails; the other takes the texts out of the queue and
audits them. However their steps interleave, the results are those of a scan without threads.
-/

namespace PhpAudit

abbrev ReadText := String × String

inductive Finder where
  | walking (ahead : List FoundFile)
  | closing
  | ended

inductive Auditor where
  | taking
  | joining
  | finished

def Finder.work : Finder → Nat
  | .walking ahead => 2 * ahead.length + 3
  | .closing => 2
  | .ended => 0

def Auditor.work : Auditor → Nat
  | .finished => 0
  | _ => 1

structure ThreadedScan where
  finder : Finder
  /-- The texts in the queue; nothing stands for the end mark. -/
  queue : List (Option ReadText) := []
  auditor : Auditor := .taking
  results : Results := {}
  log : Log := []
  warnings : Log := []

namespace ThreadedScan

inductive Action where
  | look (file : FoundFile)
  | finish
  | fail
  | close
  | take (item : ReadText)
  | stop
  | join

def start (files : List FoundFile) : ThreadedScan := { finder := .walking files }

/-- A step of one of the threads. The walk may fail at any time while it goes on. -/
inductive Step (audit : Audit) : ThreadedScan → Action → ThreadedScan → Prop
  | look {scan : ThreadedScan} {file : FoundFile} {ahead : List FoundFile}
      (walks : scan.finder = .walking (file :: ahead)) :
      Step audit scan (.look file) { scan with
        finder := .walking ahead
        queue := scan.queue ++ file.readable.toList.map some
        warnings := scan.warnings ++ file.warning.toList }
  | finish {scan : ThreadedScan} (walks : scan.finder = .walking []) :
      Step audit scan .finish { scan with finder := .closing }
  | fail {scan : ThreadedScan} {ahead : List FoundFile} (walks : scan.finder = .walking ahead) :
      Step audit scan .fail { scan with finder := .closing }
  | close {scan : ThreadedScan} (closing : scan.finder = .closing) :
      Step audit scan .close { scan with finder := .ended, queue := scan.queue ++ [none] }
  | take {scan : ThreadedScan} {item : ReadText} {rest : List (Option ReadText)}
      (takes : scan.auditor = .taking) (first : scan.queue = some item :: rest) :
      Step audit scan (.take item) { scan with
        queue := rest
        results := (scan.results.record audit item.1 item.2).1
        log := scan.log ++ (scan.results.record audit item.1 item.2).2 }
  | stop {scan : ThreadedScan} {rest : List (Option ReadText)}
      (takes : scan.auditor = .taking) (first : scan.queue = none :: rest) :
      Step audit scan .stop { scan with auditor := .joining, queue := rest }
  | join {scan : ThreadedScan} {finished : Results} (joins : scan.auditor = .joining)
      (ended : scan.finder = .ended)
      (timed : finished = { scan.results with duration := some (.measured 0.0) }) :
      Step audit scan .join { scan with
        auditor := .finished
        results := finished
        log := scan.log ++ [⟨.info, .audit, finished.closingMessage⟩] }

/-- Steps one after the other, in any order that the threads allow. -/
inductive Run (audit : Audit) (files : List FoundFile) : List Action → ThreadedScan → Prop
  | start : Run audit files [] (start files)
  | step {trace : List Action} {scan next : ThreadedScan} {action : Action}
      (before : Run audit files trace scan) (step : Step audit scan action next) :
      Run audit files (trace ++ [action]) next

def Action.lookedAt : Action → Option FoundFile
  | .look file => some file
  | _ => none

def Action.taken : Action → Option ReadText
  | .take item => some item
  | _ => none

def lookedAt (trace : List Action) : List FoundFile := trace.filterMap Action.lookedAt

def put (trace : List Action) : List ReadText := (lookedAt trace).filterMap FoundFile.readable

def taken (trace : List Action) : List ReadText := trace.filterMap Action.taken

end ThreadedScan

namespace Results

variable {audit : Audit}

/-- The violations of a path, over all texts read there. -/
def foundAt (audit : Audit) (items : List ReadText) (path : String) : List Violation :=
  (items.filter (·.1 = path)).flatMap fun item => (audit.auditText item.1 item.2).1

theorem recordAll_append (results : Results) (items : List ReadText) (item : ReadText) :
    results.recordAll audit (items ++ [item]) =
      (((results.recordAll audit items).1.record audit item.1 item.2).1,
        (results.recordAll audit items).2 ++
          ((results.recordAll audit items).1.record audit item.1 item.2).2) := by
  induction items generalizing results with
  | nil => simp [recordAll]
  | cons first rest ih => simp [recordAll, ih]

theorem fileCount_recordAll (results : Results) (items : List ReadText) :
    (results.recordAll audit items).1.fileCount = results.fileCount + items.length := by
  induction items generalizing results with
  | nil => rfl
  | cons item rest ih =>
      simp only [recordAll, ih, record, List.length_cons]
      omega

theorem keys_recordAll (items : List ReadText) :
    Entries.keys (({} : Results).recordAll audit items).1.files =
      (items.map Prod.fst).eraseDups := by
  induction items using List.reverseRecOn with
  | nil => rfl
  | append_singleton items item ih =>
      simp only [recordAll_append, record, add, Entries.keys_put, ih, List.map_append,
        List.map_cons, List.map_nil, List.eraseDups_append, List.mem_eraseDups]
      by_cases known : item.1 ∈ items.map Prod.fst
      · simp [known, List.removeAll]
      · simp [known, List.removeAll, List.eraseDups_cons]

theorem find?_recordAll (items : List ReadText) (path : String) :
    (Entries.find? (({} : Results).recordAll audit items).1.files path).getD [] =
      foundAt audit items path := by
  induction items using List.reverseRecOn with
  | nil => rfl
  | append_singleton items item ih =>
      simp only [recordAll_append, record, add, Entries.find?_put]
      by_cases here : item.1 = path
      · subst here
        simp [ih, foundAt]
      · simp [ih, foundAt, here, Ne.symm here]

end Results

namespace ThreadedScan

variable {audit : Audit} {files : List FoundFile} {trace : List Action} {scan next last : ThreadedScan}
  {action : Action}

def Walked (files : List FoundFile) (trace : List Action) : Finder → Prop
  | .walking ahead => files = lookedAt trace ++ ahead ∧ .fail ∉ trace
  | _ => lookedAt trace <+: files ∧ (.fail ∉ trace → lookedAt trace = files)

/-- The queue holds what is pending, and the end mark once the walk has ended and until it has been
taken. -/
def Queued (queue : List (Option ReadText)) (pending : List ReadText) : Finder → Auditor → Prop
  | .ended, .taking => queue = pending.map some ++ [none]
  | _, .taking => queue = pending.map some
  | .ended, _ => queue = [] ∧ pending = []
  | _, _ => False

def Recorded (audit : Audit) (items : List ReadText) (results : Results) (log : Log) :
    Auditor → Prop
  | .finished => results = { (({} : Results).recordAll audit items).1 with
        duration := some (.measured 0.0) } ∧
      log = (({} : Results).recordAll audit items).2 ++ [⟨.info, .audit, results.closingMessage⟩]
  | _ => results = (({} : Results).recordAll audit items).1 ∧
      log = (({} : Results).recordAll audit items).2

/-- What the threads have done so far agrees with what they have put, taken and recorded. -/
structure Sound (audit : Audit) (files : List FoundFile) (trace : List Action)
    (scan : ThreadedScan) : Prop where
  walked : Walked files trace scan.finder
  warned : scan.warnings = (lookedAt trace).filterMap FoundFile.warning
  queued : ∃ pending, put trace = taken trace ++ pending ∧
    Queued scan.queue pending scan.finder scan.auditor
  recorded : Recorded audit (taken trace) scan.results scan.log scan.auditor

@[simp]
theorem lookedAt_append (trace : List Action) (action : Action) :
    lookedAt (trace ++ [action]) = lookedAt trace ++ action.lookedAt.toList := by
  cases action <;> simp [lookedAt, Action.lookedAt]

@[simp]
theorem put_append (trace : List Action) (action : Action) :
    put (trace ++ [action]) =
      put trace ++ (action.lookedAt.bind FoundFile.readable).toList := by
  cases action <;> simp [put, Action.lookedAt, List.filterMap_cons]
  split <;> simp_all

@[simp]
theorem taken_append (trace : List Action) (action : Action) :
    taken (trace ++ [action]) = taken trace ++ action.taken.toList := by
  cases action <;> simp [taken, Action.taken]

theorem Step.walked (step : Step audit scan action next)
    (walked : Walked files trace scan.finder) : Walked files (trace ++ [action]) next.finder := by
  cases step with
  | look walks =>
      rw [walks] at walked
      obtain ⟨split, sound⟩ := walked
      exact ⟨by simp [split, Action.lookedAt], by simpa using sound⟩
  | finish walks =>
      rw [walks] at walked
      obtain ⟨split, _⟩ := walked
      simp [Walked, Action.lookedAt, split]
  | fail walks =>
      rw [walks] at walked
      obtain ⟨split, _⟩ := walked
      simp [Walked, Action.lookedAt, split]
  | close closing =>
      rw [closing] at walked
      simpa [Walked, Action.lookedAt] using walked
  | take | stop | join =>
      cases finder : scan.finder <;> rw [finder] at walked <;>
        simpa [Walked, Action.lookedAt] using walked

theorem Step.warned (step : Step audit scan action next)
    (warned : scan.warnings = (lookedAt trace).filterMap FoundFile.warning) :
    next.warnings = (lookedAt (trace ++ [action])).filterMap FoundFile.warning := by
  cases step with
  | @look file =>
      cases refused : file.warning <;> simp [warned, Action.lookedAt, refused]
  | _ => simp [warned, Action.lookedAt]

theorem Step.queued (step : Step audit scan action next)
    (queued : ∃ pending, put trace = taken trace ++ pending ∧
      Queued scan.queue pending scan.finder scan.auditor) :
    ∃ pending, put (trace ++ [action]) = taken (trace ++ [action]) ++ pending ∧
      Queued next.queue pending next.finder next.auditor := by
  obtain ⟨pending, split, held⟩ := queued
  cases step with
  | @look file ahead walks =>
      refine ⟨pending ++ file.readable.toList, by simp [split, Action.lookedAt, Action.taken], ?_⟩
      cases auditor : scan.auditor <;> simp_all [Queued]
  | finish walks | fail walks =>
      refine ⟨pending, by simp [split, Action.lookedAt, Action.taken], ?_⟩
      cases auditor : scan.auditor <;> simp_all [Queued]
  | close closing =>
      refine ⟨pending, by simp [split, Action.lookedAt, Action.taken], ?_⟩
      cases auditor : scan.auditor <;> simp_all [Queued]
  | @take item rest takes first =>
      cases pending with
      | nil => cases finder : scan.finder <;> simp_all [Queued]
      | cons head pending =>
          refine ⟨pending, ?_, ?_⟩
          · cases finder : scan.finder <;> simp_all [Queued, Action.lookedAt, Action.taken]
          · cases finder : scan.finder <;> simp_all [Queued]
  | @stop rest takes first =>
      -- the end mark went in behind everything, so nothing is pending when it comes out
      refine ⟨pending, by simp [split, Action.lookedAt, Action.taken], ?_⟩
      cases pending <;> cases finder : scan.finder <;> simp_all [Queued]
  | join joins ended =>
      refine ⟨pending, by simp [split, Action.lookedAt, Action.taken], ?_⟩
      simp_all [Queued]

theorem Step.recorded (step : Step audit scan action next)
    (recorded : Recorded audit (taken trace) scan.results scan.log scan.auditor) :
    Recorded audit (taken (trace ++ [action])) next.results next.log next.auditor := by
  cases step with
  | take takes =>
      rw [takes] at recorded
      obtain ⟨results, log⟩ := recorded
      simp [takes, Recorded, Action.taken, Results.recordAll_append, results, log]
  | stop takes =>
      rw [takes] at recorded
      simpa [Recorded, Action.taken] using recorded
  | join joins ended timed =>
      rw [joins] at recorded
      obtain ⟨results, log⟩ := recorded
      simp [Recorded, Action.taken, timed, results, log]
  | look | finish | fail | close => simpa [Action.taken] using recorded

theorem Sound.step (sound : Sound audit files trace scan) (step : Step audit scan action next) :
    Sound audit files (trace ++ [action]) next where
  walked := step.walked sound.walked
  warned := step.warned sound.warned
  queued := step.queued sound.queued
  recorded := step.recorded sound.recorded

theorem sound_start : Sound audit files [] (start files) where
  walked := ⟨rfl, List.not_mem_nil⟩
  warned := rfl
  queued := ⟨[], rfl, rfl⟩
  recorded := ⟨rfl, rfl⟩

theorem Run.sound (run : Run audit files trace last) : Sound audit files trace last := by
  induction run with
  | start => exact sound_start
  | step _ step ih => exact ih.step step

/-- More than the steps that are left: every file is looked at and perhaps taken, and the end mark
costs the rest. -/
def work (scan : ThreadedScan) : Nat :=
  scan.finder.work + scan.queue.length + scan.auditor.work

theorem Step.work_lt (step : Step audit scan action next) : next.work < scan.work := by
  cases step with
  | @look file ahead walks =>
      have atMostOne : file.readable.toList.length ≤ 1 := by
        cases file.readable <;> simp
      simp only [work, walks, Finder.work, List.length_append, List.length_map, List.length_cons]
      omega
  | finish walks | fail walks | close walks =>
      simp only [work, walks, Finder.work, List.length_append, List.length_singleton]
      omega
  | take takes first | stop takes first => simp [work, takes, first, Auditor.work]
  | join joins => simp [work, joins, Auditor.work]

theorem Run.length_le (run : Run audit files trace last) :
    trace.length + last.work ≤ 2 * files.length + 4 := by
  induction run with
  | start => simp [work, ThreadedScan.start, Finder.work, Auditor.work]
  | step _ step ih =>
      have less := step.work_lt
      simp only [List.length_append, List.length_singleton]
      omega

theorem Sound.progress (sound : Sound audit files trace scan)
    (unfinished : scan.auditor ≠ .finished) : ∃ action next, Step audit scan action next := by
  -- the finder can always go on, and when it has ended the end mark is in the queue
  cases finder : scan.finder with
  | walking ahead =>
      cases ahead with
      | nil => exact ⟨_, _, .finish finder⟩
      | cons file ahead => exact ⟨_, _, .look finder⟩
  | closing => exact ⟨_, _, .close finder⟩
  | ended =>
      cases auditor : scan.auditor with
      | taking =>
          obtain ⟨pending, _, held⟩ := sound.queued
          simp only [finder, auditor, Queued] at held
          cases pending with
          | nil => exact ⟨_, _, .stop auditor held⟩
          | cons item pending => exact ⟨_, _, .take auditor held⟩
      | joining => exact ⟨_, _, .join auditor finder rfl⟩
      | finished => exact absurd auditor unfinished

theorem Sound.drained (sound : Sound audit files trace scan)
    (finished : scan.auditor = .finished) :
    taken trace = put trace ∧ scan.queue = [] ∧ scan.finder = .ended := by
  obtain ⟨pending, split, held⟩ := sound.queued
  cases finder : scan.finder <;> simp_all [Queued]

theorem Sound.scanned (sound : Sound audit files trace scan)
    (finished : scan.auditor = .finished) :
    (scan.results, scan.log ++ scan.warnings) = Results.scan audit (lookedAt trace) := by
  obtain ⟨all, -, -⟩ := sound.drained finished
  have recorded := sound.recorded
  simp only [finished, Recorded, all, put] at recorded
  obtain ⟨results, log⟩ := recorded
  simp [Results.scan, log, results, sound.warned]

/-- In whatever order the threads take their steps, the scan ends, with the results of auditing the
texts one after the other. -/
theorem run_eq_scan (audit : Audit) (files : List FoundFile) (trace : List Action)
    (last : ThreadedScan) (run : Run audit files trace last) :
    trace.length ≤ 2 * files.length + 4 ∧
    (last.auditor ≠ .finished → ∃ action next, Step audit last action next) ∧
    (last.auditor = .finished →
      taken trace = put trace ∧
      last.queue = [] ∧
      lookedAt trace <+: files ∧ (.fail ∉ trace → lookedAt trace = files) ∧
      last.results.fileCount = (put trace).length ∧
      Entries.keys last.results.files = ((put trace).map Prod.fst).eraseDups ∧
      (∀ path, (Entries.find? last.results.files path).getD [] =
        Results.foundAt audit (put trace) path) ∧
      (last.results, last.log ++ last.warnings) = Results.scan audit (lookedAt trace)) := by
  have sound := run.sound
  refine ⟨Nat.le_of_add_right_le run.length_le, sound.progress, fun finished => ?_⟩
  obtain ⟨all, empty, ended⟩ := sound.drained finished
  have walked := sound.walked
  simp only [ended, Walked] at walked
  have recorded := sound.recorded
  simp only [finished, Recorded, all] at recorded
  refine ⟨all, empty, walked.1, walked.2, ?_, ?_, ?_, sound.scanned finished⟩
  · simp [recorded.1, Results.fileCount_recordAll]
  · simp [recorded.1, Results.keys_recordAll]
  · simp [recorded.1, Results.find?_recordAll]

/-- A text, a file that is gone, and one that the walk does not come to. -/
def brokenWalk : List FoundFile :=
  [⟨{ parts := ["a.php"] }, .ok "<?php eval($x);".toUTF8.toList⟩,
    ⟨{ parts := ["gone.php"] }, .error .missing⟩,
    ⟨{ parts := ["z.php"] }, .ok []⟩]

theorem run_eq_scan_brokenWalk :
    ∃ trace last, Run ⟨Catalogue.standard.rules⟩ brokenWalk trace last ∧
      last.auditor = .finished ∧ .fail ∈ trace ∧ last.queue = [] ∧ last.results.fileCount = 1 ∧
      (last.results, last.log ++ last.warnings) =
        Results.scan ⟨Catalogue.standard.rules⟩ (brokenWalk.take 2) := by
  obtain ⟨trace, last, run, finished, failed, seen⟩ :
      ∃ trace last, Run ⟨Catalogue.standard.rules⟩ brokenWalk trace last ∧
        last.auditor = .finished ∧ .fail ∈ trace ∧ lookedAt trace = brokenWalk.take 2 :=
    ⟨_, _, Run.start |>.step (.look rfl) |>.step (.look rfl) |>.step (.fail rfl)
      |>.step (.take rfl rfl) |>.step (.close rfl) |>.step (.stop rfl rfl)
      |>.step (.join rfl rfl rfl), rfl, by simp, rfl⟩
  obtain ⟨-, -, ended⟩ := run_eq_scan _ brokenWalk trace last run
  obtain ⟨-, empty, -, -, count, -, -, same⟩ := ended finished
  refine ⟨trace, last, run, finished, failed, empty, ?_, seen ▸ same⟩
  rw [count, put, seen]
  rfl

end ThreadedScan

end PhpAudit
