import BenchStats.Command.Run
import BenchStats.Proofs.Files.Documents

/-!
# What commands leave behind

A command reads everything and makes its report before it writes, so whatever fails until then keeps
all files.  From the creation of the output on, a failure leaves a beginning of the report there,
and nothing is taken back.  With a histogram there are two outputs: it is complete before the
statistics are begun.
-/

namespace BenchStats

/-- The paths that a task writes to, in this order. -/
def Task.outputs : Task → List String
  | .heapReport _ target => [target]
  | .columns _ _ target => [target]
  | .total _ _ target _ => [target]
  | .groups _ target _ _ none _ => [target]
  | .groups _ target _ _ (some histogramTarget) _ => [histogramTarget, target]
  | .profiles _ _ target _ _ _ _ => [target]

namespace Command

open Machine

/-- What stays at the path of an output behind its creation, when the file does not take all of it
or when the line that reports it cannot be printed. -/
inductive Left (path : String) (t : Table) (before after : FileTree) : Stop → Prop
  | part {content : String} {e : DocumentError} : e.AfterCreation →
      before.ReceivesPartOf path t after →
      Left path t before after (.error (.output content path e))
  | whole {cause : FileError} : before.ReceivesTable path t after →
      Left path t before after (.printing cause)

/-- An action that sends a table to a path, which is found in the files beforehand.  When it stops,
it leaves that behind, or it keeps all files. -/
structure Writes (action : ExceptT Stop (StateM Machine) Unit) (path : String)
    (table? : FileTree → Except CommandError Table) : Prop where
  stopped : ∀ {before after : Machine} {stop : Stop},
    runOn action before = (.error stop, after) → before.files.KeepsFiles after.files ∨
      ∃ t, table? before.files = .ok t ∧ Left path t before.files after.files stop
  done : ∀ {before after : Machine}, runOn action before = (.ok (), after) →
    ∃ t, table? before.files = .ok t ∧ before.files.ReceivesTable path t after.files

/-- The configuration in the files. -/
def config? (path : Option String) (files : FileTree) : Except CommandError Config :=
  match path with
  | none => .ok {}
  | some path => do
    let text ← (files.text? path).mapError (.readingConfig path)
    match Config.ofToml? text with
    | some config => .ok config
    | none => .error (.notConfig path)

def inputTable? (path : String) (files : FileTree) : Except CommandError Table :=
  (files.table? path).mapError .input

/-- The report of a task on the files; for groups, their statistics. -/
def report? (config : Config) (task : Task) (files : FileTree) : Except CommandError Table :=
  match task with
  | .heapReport source _ => do
    let report ← (files.heapReport? source).mapError .input
    return report.toTable
  | .columns first second _ => do
    let a ← inputTable? first files
    let b ← inputTable? second files
    return Report.columns a b
  | .total first second _ column => do
    let a ← inputTable? first files
    let b ← inputTable? second files
    (Report.total a b (column.getD config.totalColumn)).mapError (.comparing first second)
  | .groups source _ key value _ _ => do
    let t ← inputTable? source files
    (Report.groups t (key.getD config.groupColumn)
      (value.getD config.profileColumns.duration)).mapError
      (.grouping source (key.getD config.groupColumn))
  | .profiles old new _ oldLabel newLabel duration visited => do
    let a ← inputTable? old files
    let b ← inputTable? new files
    (Report.profiles a b ⟨duration.getD config.profileColumns.duration,
      visited.getD config.profileColumns.visited⟩ (oldLabel.getD config.oldLabel)
      (newLabel.getD config.newLabel)).mapError (.comparing old new)

/-- The histogram of the groups in a table. -/
def histogramOf? (key value : String) (bins : Nat) (t : Table) : Except CommandError Table :=
  (ReportError.ofColumn (t.groupBy key value) >>=
    fun groups => Report.histogram groups bins).mapError .histogram

/-- The histogram of the groups in a file. -/
def histogram? (source key value : String) (bins : Nat) (files : FileTree) :
    Except CommandError Table :=
  inputTable? source files >>= histogramOf? key value bins

section Steps

variable {path : String} {report? : FileTree → Except CommandError Table}
  {x : ExceptT Stop (StateM Machine) Unit}

/-- What is read first decides what is written. -/
theorem Writes.after_reading {α : Type} {first : ExceptT Stop (StateM Machine) α}
    {view : FileTree → Except CommandError α} {rest : α → ExceptT Stop (StateM Machine) Unit}
    {report? : α → FileTree → Except CommandError Table} (reads : Reads first view)
    (writes : ∀ a, Writes (rest a) path (report? a)) :
    Writes (first >>= rest) path fun files => view files >>= fun a => report? a files := by
  constructor
  · intro before after stop ended
    rcases reads.bind_eq_error ended with kept | ⟨a, between, found, same, ended⟩
    · exact Or.inl kept
    · have left := (writes a).stopped ended
      rw [same] at left
      rw [found]
      exact left
  · intro before after ended
    obtain ⟨a, between, found, same, ended⟩ := reads.bind_eq_ok ended
    have written := (writes a).done ended
    rw [same] at written
    rw [found]
    exact written

theorem reads_print (text : String) :
    Reads (print text : ExceptT Stop (StateM Machine) Unit) fun _ =>
      (.ok () : Except CommandError Unit) :=
  (Machine.reads_print text).adapt _

theorem reads_printLine (text : String) :
    Reads (printLine text : ExceptT Stop (StateM Machine) Unit) fun _ =>
      (.ok () : Except CommandError Unit) :=
  reads_print _

theorem Writes.after_print {first : ExceptT Stop (StateM Machine) Unit}
    (prints : Reads first fun _ => (.ok () : Except CommandError Unit))
    (writes : Writes x path report?) : Writes (first >>= fun _ => x) path report? :=
  .after_reading prints fun _ => writes

theorem reads_input (path : String) :
    Reads (input (Document.readTable path)) (inputTable? path) :=
  ((reads_table path).adapt _).mapError _

theorem reads_make (onError : ReportError → CommandError) (report : Except ReportError Table) :
    Reads (make onError report) fun _ => report.mapError onError := by
  cases report with
  | error e => exact reads_throw _ _
  | ok t => exact reads_pure t

theorem reads_loadConfig (path : Option String) : Reads (loadConfig path) (config? path) := by
  cases path with
  | none => exact reads_pure _
  | some path =>
    apply Reads.bind (((reads_readText path).adapt _).mapError _)
    intro text
    cases Config.ofToml? text with
    | none => exact reads_throw _ _
    | some config => exact reads_pure config

/-- An output stops at once, and all files are kept, or behind its creation. -/
theorem report_stopped {content path message : String} {t : Table} {before after : Machine}
    {stop : Stop}
    (ended : runOn (do output content path t; printLine message) before = (.error stop, after)) :
    (before.files.KeepsFiles after.files ∧
      ∃ e, ¬ e.AfterCreation ∧ stop = .error (.output content path e)) ∨
    Left path t before.files after.files stop := by
  obtain ⟨text, rendering, ends⟩ := ends_writeTable path t
  rcases runOn_bind_eq_error ended with failed | ⟨_, between, done, printed⟩
  · obtain ⟨e, refused, rfl⟩ := adapt_eq_error failed
    rcases ends.failed refused with ⟨late, part⟩ | ⟨early, kept⟩
    · exact Or.inr (.part late ⟨text, rendering, part⟩)
    · exact Or.inl ⟨kept, e, early, rfl⟩
  · have received := ends.done (adapt_eq_ok done)
    have same := (reads_printLine message).keeps between
    rw [printed] at same
    obtain ⟨cause, -, rfl⟩ := adapt_eq_error printed
    rw [← same] at received
    exact Or.inr (.whole ⟨text, rendering, received⟩)

theorem report_done {content path message : String} {t : Table} {before after : Machine}
    (ended : runOn (do output content path t; printLine message) before = (.ok (), after)) :
    before.files.ReceivesTable path t after.files := by
  obtain ⟨text, rendering, ends⟩ := ends_writeTable path t
  obtain ⟨_, between, done, printed⟩ := runOn_bind_eq_ok ended
  have received := ends.done (adapt_eq_ok done)
  have same := (reads_printLine message).keeps between
  rw [printed] at same
  rw [← same] at received
  exact ⟨text, rendering, received⟩

theorem writes_report (content path message : String) (t : Table) :
    Writes (do output content path t; printLine message) path fun _ => .ok t := by
  constructor
  · intro before after stop ended
    exact (report_stopped ended).imp And.left fun left => ⟨t, rfl, left⟩
  · intro before after ended
    exact ⟨t, rfl, report_done ended⟩

theorem writes_make {onError : ReportError → CommandError}
    {report : Except ReportError Table} {path : String}
    {rest : Table → ExceptT Stop (StateM Machine) Unit}
    (writes : ∀ t, Writes (rest t) path fun _ => .ok t) :
    Writes (make onError report >>= rest) path fun _ => report.mapError onError := by
  have written := Writes.after_reading (reads_make onError report) writes
  cases report with
  | error e => exact written
  | ok t => exact written

end Steps

section Tasks

/-- A task with one output writes its report there. -/
theorem writes_perform (config : Config) {task : Task} {target : String}
    (single : task.outputs = [target]) :
    Writes (perform config task) target (report? config task) := by
  cases task with
  | heapReport source path =>
    cases single
    apply Writes.after_reading (((reads_heapReport source).adapt _).mapError _)
    intro report
    apply writes_report
  | columns first second path =>
    cases single
    apply Writes.after_print (reads_printLine _)
    apply Writes.after_reading (reads_input first)
    intro a
    apply Writes.after_print (reads_printLine _)
    apply Writes.after_reading (reads_input second)
    intro b
    apply writes_report
  | total first second path column =>
    cases single
    apply Writes.after_reading (reads_input first)
    intro a
    apply Writes.after_reading (reads_input second)
    intro b
    apply writes_make
    intro report
    apply writes_report
  | groups source path key value histogramTarget bins =>
    cases histogramTarget with
    | some histogramTarget => simp [Task.outputs] at single
    | none =>
      cases single
      apply Writes.after_reading (reads_input source)
      intro t
      apply writes_make
      intro report
      apply Writes.after_print (reads_printLine _)
      apply Writes.after_print (reads_print _)
      apply writes_report
  | profiles old new path oldLabel newLabel duration visited =>
    cases single
    apply Writes.after_reading (reads_input old)
    intro a
    apply Writes.after_reading (reads_input new)
    intro b
    apply writes_make
    intro report
    apply writes_report

theorem writes_histogram (t : Table) (key value : String) (bins : Nat) (path : String) :
    Writes (histogram t key value bins path) path fun _ => histogramOf? key value bins t := by
  apply writes_make
  intro report
  apply writes_report

/-- What stays of two outputs that are written one after the other. -/
inductive LeftOfTwo (path target : String) (histogram statistics : Table)
    (before after : FileTree) : Stop → Prop
  | histogram {stop : Stop} : Left path histogram before after stop →
      LeftOfTwo path target histogram statistics before after stop
  /-- The histogram is complete, and the file for the statistics cannot be created. -/
  | blocked {e : DocumentError} : before.ReceivesTable path histogram after → ¬ e.AfterCreation →
      LeftOfTwo path target histogram statistics before after
        (.error (.output "statistics" target e))
  /-- The histogram is complete, and the statistics are begun. -/
  | statistics {between : FileTree} {stop : Stop} : before.ReceivesTable path histogram between →
      Left target statistics between after stop →
      LeftOfTwo path target histogram statistics before after stop

/-- What a task that stops leaves behind, if it does not keep all files. -/
inductive LeftBehind (config : Config) (before after : FileTree) : Task → Stop → Prop
  | one {task : Task} {target : String} {report : Table} {stop : Stop} :
      task.outputs = [target] → report? config task before = .ok report →
      Left target report before after stop → LeftBehind config before after task stop
  | two {source target path : String} {key value : Option String} {bins : Option Nat}
      {histogram statistics : Table} {stop : Stop} :
      histogram? source (key.getD config.groupColumn)
        (value.getD config.profileColumns.duration) (bins.getD config.bins) before =
          .ok histogram →
      report? config (.groups source target key value (some path) bins) before = .ok statistics →
      LeftOfTwo path target histogram statistics before after stop →
      LeftBehind config before after (.groups source target key value (some path) bins) stop

theorem twoOutputs_stopped {t statistics : Table} {key value path target message : String}
    {bins : Nat} {before after : Machine} {stop : Stop}
    (ended : runOn (do
      histogram t key value bins path
      output "statistics" target statistics
      printLine message) before = (.error stop, after)) :
    before.files.KeepsFiles after.files ∨ ∃ report, histogramOf? key value bins t = .ok report ∧
      LeftOfTwo path target report statistics before.files after.files stop := by
  rcases runOn_bind_eq_error ended with failed | ⟨_, between, done, ended⟩
  · refine ((writes_histogram _ _ _ _ _).stopped failed).imp_right ?_
    rintro ⟨report, made, left⟩
    exact ⟨report, made, .histogram left⟩
  · obtain ⟨report, made, received⟩ := (writes_histogram _ _ _ _ _).done done
    refine Or.inr ⟨report, made, ?_⟩
    rcases report_stopped ended with ⟨kept, e, early, rfl⟩ | left
    · exact .blocked (received.keepsFiles kept) early
    · exact .statistics received left

/-- A task that stops keeps all files or leaves behind what it has written. -/
theorem perform_stopped (config : Config) (task : Task) {before after : Machine} {stop : Stop}
    (ended : runOn (perform config task) before = (.error stop, after)) :
    before.files.KeepsFiles after.files ∨
      LeftBehind config before.files after.files task stop := by
  by_cases single : ∃ target, task.outputs = [target]
  · obtain ⟨target, single⟩ := single
    refine ((writes_perform config single).stopped ended).imp_right ?_
    rintro ⟨report, made, left⟩
    exact .one single made left
  cases task with
  | groups source target key value histogramTarget bins =>
    cases histogramTarget with
    | none => exact absurd ⟨target, rfl⟩ single
    | some path =>
      rcases (reads_input source).bind_eq_error ended with kept | ⟨t, m₁, read, same₁, ended⟩
      · exact Or.inl kept
      rcases (reads_make _ _).bind_eq_error ended with kept | ⟨statistics, m₂, made, same₂, ended⟩
      · exact Or.inl (same₁ ▸ kept)
      rcases (reads_printLine _).bind_eq_error ended with kept | ⟨_, m₃, -, same₃, ended⟩
      · exact Or.inl (same₁ ▸ same₂ ▸ kept)
      rcases (reads_print _).bind_eq_error ended with kept | ⟨_, m₄, -, same₄, ended⟩
      · exact Or.inl (same₁ ▸ same₂ ▸ same₃ ▸ kept)
      have left := twoOutputs_stopped ended
      rw [same₄, same₃, same₂, same₁] at left
      refine left.imp_right ?_
      rintro ⟨report, histogramMade, left⟩
      refine @LeftBehind.two _ _ _ _ _ _ _ _ _ report statistics _ ?_ ?_ left
      · rw [histogram?, read]
        exact histogramMade
      · rw [report?, read]
        exact made
  | _ => exact absurd ⟨_, rfl⟩ single

end Tasks

section Execution

/-- The report that a task asks for, with the configuration at a path. -/
def requested? (path : Option String) (task : Task) (files : FileTree) :
    Except CommandError Table := do
  let config ← config? path files
  report? config task files

/-- A task on a machine, with the configuration at a path. -/
def carryOut (path : Option String) (task : Task) : ExceptT Stop (StateM Machine) Unit := do
  let config ← loadConfig path
  perform config task

/-- What a command line does on a machine: its outcome, and the machine it leaves. -/
def execution (environment : Option String) (words : List String) (before : Machine) :
    Outcome × Machine :=
  (execute environment words : StateM Machine Outcome).run before

theorem keepsFiles_print (text : String) (machine : Machine) :
    ((discard (Host.print text) : StateM Machine Unit).run machine).2.files = machine.files :=
  (reads_print text).keeps machine

/-- A command line either asks for no task, or its task is done or stops. -/
theorem execution_cases (environment : Option String) (words : List String) (before : Machine) :
    ((execution environment words before).2.files = before.files ∧
      ∀ path task, Arguments.read environment words ≠ .ok (.run path task)) ∨
    ∃ path task, Arguments.read environment words = .ok (.run path task) ∧
      ((∃ after, execution environment words before = (.done, after) ∧
          runOn (carryOut path task) before = (.ok (), after)) ∨
        ∃ stop after, execution environment words before = (.stopped stop, after) ∧
          runOn (carryOut path task) before = (.error stop, after)) := by
  unfold execution execute
  cases understood : Arguments.read environment words with
  | error e => exact Or.inl ⟨rfl, by simp⟩
  | ok request =>
    cases request with
    | help => exact Or.inl ⟨keepsFiles_print _ before, by simp⟩
    | version => exact Or.inl ⟨keepsFiles_print _ before, by simp⟩
    | run path task =>
      refine Or.inr ⟨path, task, rfl, ?_⟩
      unfold runOn
      dsimp only
      rw [StateT.run_bind]
      rcases performed : (carryOut path task).run.run before with ⟨stop | _, after⟩
      · rw [carryOut] at performed
        rw [performed]
        exact Or.inr ⟨stop, after, rfl, rfl⟩
      · rw [carryOut] at performed
        rw [performed]
        exact Or.inl ⟨after, rfl, rfl⟩

/-- A command that does not end well keeps all files, or its task has stopped and leaves behind what
it has written until then. -/
theorem files_after_failure {environment : Option String} {words : List String} {before : Machine}
    (failed : (execution environment words before).1.code ≠ 0) :
    before.files.KeepsFiles (execution environment words before).2.files ∨
      ∃ path task config stop, Arguments.read environment words = .ok (.run path task) ∧
        config? path before.files = .ok config ∧
        (execution environment words before).1 = .stopped stop ∧
        LeftBehind config before.files (execution environment words before).2.files task stop := by
  rcases execution_cases environment words before with
    ⟨same, -⟩ | ⟨path, task, understood, ⟨after, ran, -⟩ | ⟨stop, after, ran, ended⟩⟩
  · rw [same]
    exact Or.inl (.refl before.files)
  · rw [ran] at failed
    exact absurd rfl failed
  · rw [ran]
    rcases (reads_loadConfig path).bind_eq_error ended with kept | ⟨config, _, found, same, ended⟩
    · exact Or.inl kept
    · have left := perform_stopped config task ended
      rw [same] at left
      exact left.imp_right fun left => ⟨path, task, config, stop, understood, found, rfl, left⟩

/-- A file to be grouped, and a directory where the statistics are to go. -/
def blocked : Machine where
  files :=
    { entries :=
        [(["in.csv"], .file "thread index,duration in microseconds\n0,1\n0,3\n".toUTF8),
          (["d"], .directory)]
      workingDirectory := [] }
  output := ""

def blockedWords : List String :=
  ["thread-stats", "--input", "in.csv", "--output", "d", "--histogram", "h.csv", "--bins", "2"]

theorem code_blocked : (execution none blockedWords blocked).1.code = 1 := by decide +kernel

theorem not_keepsFiles_blocked :
    ¬ blocked.files.KeepsFiles (execution none blockedWords blocked).2.files := by
  intro kept
  have absent : blocked.files.lookup ["h.csv"] = none := rfl
  have present : ((execution none blockedWords blocked).2.files.lookup ["h.csv"]).any
      (!·.isDirectory) = true := by decide +kernel
  rcases kept.everywhere ["h.csv"] with same | ⟨-, directory⟩
  · rw [same, absent] at present
    exact absurd present (by decide)
  · rw [directory] at present
    exact absurd present (by decide)

/-- The run in which the statistics cannot be written leaves the histogram. -/
theorem files_after_failure_blocked : ∃ path task config stop,
    Arguments.read none blockedWords = .ok (.run path task) ∧
      config? path blocked.files = .ok config ∧
      (execution none blockedWords blocked).1 = .stopped stop ∧
      LeftBehind config blocked.files (execution none blockedWords blocked).2.files task stop := by
  have failed : (execution none blockedWords blocked).1.code ≠ 0 := by
    rw [code_blocked]
    decide
  exact (files_after_failure failed).resolve_left not_keepsFiles_blocked

/-- Statistics of groups and their histogram are not all or nothing together: the command fails, and
yet a file is new. -/
theorem not_all_or_nothing_blocked :
    ¬ ∀ (environment : Option String) (words : List String) (before : Machine)
      (path : Option String) (source target : String) (key value histogramTarget : Option String)
      (bins : Option Nat), Arguments.read environment words =
        .ok (.run path (.groups source target key value histogramTarget bins)) →
      (execution environment words before).1.code ≠ 0 →
        before.files.KeepsFiles (execution environment words before).2.files := by
  intro allOrNothing
  apply not_keepsFiles_blocked
  apply allOrNothing none blockedWords blocked none "in.csv" "d" none none (some "h.csv") (some 2)
  · rfl
  · rw [code_blocked]
    decide

/-- A command with a single output touches no other file, and it touches the output last.  If it
ends well, the report that was asked for went there; if not, all files are kept or, behind the
creation of the output, a beginning of the report stays there. -/
theorem single_output_written_last {environment : Option String} {words : List String}
    (before : Machine) (single : ∀ path task,
      Arguments.read environment words = .ok (.run path task) → ∃ target, task.outputs = [target]) :
    ((execution environment words before).1.code ≠ 0 →
      before.files.KeepsFiles (execution environment words before).2.files ∨
        ∃ path task target report stop,
          Arguments.read environment words = .ok (.run path task) ∧ task.outputs = [target] ∧
          requested? path task before.files = .ok report ∧
          (execution environment words before).1 = .stopped stop ∧
          Left target report before.files (execution environment words before).2.files stop) ∧
    ((execution environment words before).1.code = 0 →
      ∀ path task, Arguments.read environment words = .ok (.run path task) →
        ∃ target report, task.outputs = [target] ∧
          requested? path task before.files = .ok report ∧
          before.files.ReceivesTable target report
            (execution environment words before).2.files) := by
  rcases execution_cases environment words before with
    ⟨same, nothing⟩ | ⟨path, task, understood, ended⟩
  · refine ⟨?_, fun _ path task understood => absurd understood (nothing path task)⟩
    intro _
    rw [same]
    exact Or.inl (.refl before.files)
  obtain ⟨target, one⟩ := single path task understood
  have whole : Writes (carryOut path task) target (requested? path task) := by
    apply Writes.after_reading (reads_loadConfig path)
    intro config
    exact writes_perform config one
  rcases ended with ⟨after, ran, ended⟩ | ⟨stop, after, ran, ended⟩
  · rw [ran]
    refine ⟨fun failed => absurd rfl failed, ?_⟩
    intro _ path' task' understood'
    cases understood.symm.trans understood'
    obtain ⟨report, made, received⟩ := whole.done ended
    exact ⟨target, report, one, made, received⟩
  · rw [ran]
    constructor
    · intro _
      refine (whole.stopped ended).imp_right ?_
      rintro ⟨report, made, left⟩
      exact ⟨path, task, target, report, stop, understood, one, made, rfl, left⟩
    · exact fun done => absurd done (Outcome.code_stopped_ne_zero stop)

/-- A heap report, a table that is to be replaced, and a file system with room for eight bytes. -/
def full : Machine where
  files :=
    { entries :=
        [(["in.txt"], .file "1 2 3 4 5 6\n".toUTF8), (["out.csv"], .file "n\n".toUTF8)]
      workingDirectory := [] }
  output := ""
  responses := [⟨none, 0⟩, ⟨none, 0⟩, ⟨none, 0⟩, ⟨some .noSpace, 8⟩]

def fullWords : List String := ["massif", "in.txt", "out.csv"]

/-- A heap report, and the device that keeps nothing. -/
def lost : Machine where
  files :=
    { entries :=
        [(["work"], .directory), (["work", "in.txt"], .file "1 2 3 4 5 6\n".toUTF8),
          (["dev"], .directory), (["dev", "null"], .sink)]
      workingDirectory := ["work"] }
  output := ""

def lostWords : List String := ["massif", "in.txt", "../dev/null"]

theorem code_full : (execution none fullWords full).1.code = 1 := by decide +kernel

theorem not_keepsFiles_full :
    ¬ full.files.KeepsFiles (execution none fullWords full).2.files := by
  intro kept
  have before : full.files.read "out.csv" = .ok "n\n".toUTF8 := rfl
  have after : ((execution none fullWords full).2.files.read "out.csv").map ByteArray.size =
      .ok 8 := by decide +kernel
  rw [kept.read_eq_ok before] at after
  exact absurd after (by decide)

/-- A command with a single output is not all or nothing: it fails and has changed a file, or it
ends well and its output is nowhere. -/
theorem not_single_output_all_or_nothing :
    (Arguments.read none fullWords = .ok (.run none (.heapReport "in.txt" "out.csv")) ∧
      (execution none fullWords full).1.code ≠ 0 ∧
      ¬ full.files.KeepsFiles (execution none fullWords full).2.files) ∧
    Arguments.read none lostWords = .ok (.run none (.heapReport "in.txt" "../dev/null")) ∧
      (execution none lostWords lost).1.code = 0 ∧
      ∀ content, ¬ lost.files.Stores "../dev/null" content
        (execution none lostWords lost).2.files := by
  refine ⟨⟨rfl, ?_, not_keepsFiles_full⟩, rfl, by decide +kernel, ?_⟩
  · rw [code_full]
    exact Nat.one_ne_zero
  · intro content stored
    obtain ⟨place, ⟨resolved, holds⟩, -⟩ := stored.elsewhere
    have leads : (execution none lostWords lost).2.files.resolve "../dev/null" =
        .ok ["dev", "null"] := by decide +kernel
    have device : ((execution none lostWords lost).2.files.lookup ["dev", "null"]).any
        FileEntry.isSink = true := by decide +kernel
    cases resolved.symm.trans leads
    rw [holds] at device
    cases device

/-- A heap report that is to be stored in a directory that is not there yet. -/
def reported : Machine where
  files :=
    { entries := [(["in.txt"], .file "cmd: a\n 1 2 3,000 4 5.5 6\n".toUTF8)]
      workingDirectory := [] }
  output := ""

def reportedWords : List String := ["massif", "in.txt", "d/out.json"]

/-- The report goes to a new directory, and it fills what room there is where that is not enough. -/
theorem single_output_written_last_runs :
    ((execution none reportedWords reported).1.code = 0 ∧ ∃ report,
      requested? none (.heapReport "in.txt" "d/out.json") reported.files = .ok report ∧
        reported.files.ReceivesTable "d/out.json" report
          (execution none reportedWords reported).2.files) ∧
    ((execution none fullWords full).1.code ≠ 0 ∧ ∃ report stop,
      requested? none (.heapReport "in.txt" "out.csv") full.files = .ok report ∧
        (execution none fullWords full).1 = .stopped stop ∧
        Left "out.csv" report full.files (execution none fullWords full).2.files stop) := by
  have asks : Arguments.read none reportedWords =
      .ok (.run none (.heapReport "in.txt" "d/out.json")) := rfl
  have asks' : Arguments.read none fullWords =
      .ok (.run none (.heapReport "in.txt" "out.csv")) := rfl
  have ends : (execution none reportedWords reported).1.code = 0 := by decide +kernel
  have fails : (execution none fullWords full).1.code ≠ 0 := by
    rw [code_full]
    exact Nat.one_ne_zero
  refine ⟨⟨ends, ?_⟩, fails, ?_⟩
  · have single : ∀ path task, Arguments.read none reportedWords = .ok (.run path task) →
        ∃ target, task.outputs = [target] := by
      intro path task asked
      cases asks.symm.trans asked
      exact ⟨_, rfl⟩
    obtain ⟨target, report, one, made, received⟩ :=
      (single_output_written_last reported single).2 ends _ _ asks
    cases one
    exact ⟨report, made, received⟩
  · have single : ∀ path task, Arguments.read none fullWords = .ok (.run path task) →
        ∃ target, task.outputs = [target] := by
      intro path task asked
      cases asks'.symm.trans asked
      exact ⟨_, rfl⟩
    obtain ⟨path, task, target, report, stop, asked, one, made, stopped, left⟩ :=
      ((single_output_written_last full single).1 fails).resolve_left not_keepsFiles_full
    cases asks'.symm.trans asked
    cases one
    exact ⟨report, stop, made, stopped, left⟩

end Execution

end Command

end BenchStats
