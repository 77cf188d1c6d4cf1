import BenchStats.Proofs.Files.Extension
import BenchStats.Proofs.Files.Tree

/-!
# Documents on a machine

Whatever a machine refuses, what a reading finds is what the files hold, and it leaves them as they
are.  Writing a document opens its file once.  Until then every file is kept; from then on the bytes
in the file and those that wait for it are together the bytes that were handed over, so a refusal
leaves a beginning of the text there.  No other file is touched, and directories may be new in any
case.  Actions of both kinds are put together here without looking into them again.
-/

namespace BenchStats

/-- The text that stands for a table in the file that a path names. -/
inductive Rendering (path : String) (t : Table) : String → Prop
  | csv : ¬ AsksForJson path → Rendering path t t.toCsv
  | json : AsksForJson path → Rendering path t (t.toRecords.indented ++ "\n")

/-- The file was open already when this went wrong. -/
def DocumentError.AfterCreation : DocumentError → Prop
  | .writingCsv .. | .flushingCsv _ | .writingJson _ | .endingJson _ | .flushingJson _ => True
  | _ => False

namespace FileTree

def text? (tree : FileTree) (path : String) : Except FileError String := do
  let content ← tree.read path
  match String.fromUTF8? content with
  | some text => .ok text
  | none => .error .notText

/-- The table in a file. -/
def table? (tree : FileTree) (path : String) : Except DocumentError Table := do
  let text ← (tree.text? path).mapError (.reading path)
  (Table.ofCsv? text).mapError (.notTable path)

/-- The heap report in a file. -/
def heapReport? (tree : FileTree) (path : String) : Except DocumentError HeapReport := do
  let text ← (tree.text? path).mapError (.reading path)
  (HeapReport.read? text).mapError (.notHeapReport path)

/-- A beginning of some content went to a path. -/
def ReceivesPart (path : String) (content : ByteArray) (before after : FileTree) : Prop :=
  ∃ part rest, part ++ rest = content ∧ Receives path part before after

/-- A table went to a path in the form that the path asks for. -/
def ReceivesTable (path : String) (t : Table) (before after : FileTree) : Prop :=
  ∃ text, Rendering path t text ∧ Receives path text.toUTF8 before after

/-- A beginning of a table went to a path in the form that the path asks for. -/
def ReceivesPartOf (path : String) (t : Table) (before after : FileTree) : Prop :=
  ∃ text, Rendering path t text ∧ ReceivesPart path text.toUTF8 before after

theorem ReceivesPart.append {path : String} {content : ByteArray} {before after : FileTree}
    (received : ReceivesPart path content before after) (more : ByteArray) :
    ReceivesPart path (content ++ more) before after := by
  obtain ⟨part, rest, rfl, received⟩ := received
  exact ⟨part, rest ++ more, ByteArray.append_assoc.symm, received⟩

theorem KeepsFiles.receivesPart {path : String} {content : ByteArray}
    {before between after : FileTree} (kept : KeepsFiles before between)
    (received : ReceivesPart path content between after) :
    ReceivesPart path content before after := by
  obtain ⟨part, rest, whole, received⟩ := received
  exact ⟨part, rest, whole, kept.receives received⟩

theorem ReceivesTable.keepsFiles {path : String} {t : Table} {before between after : FileTree}
    (received : ReceivesTable path t before between) (kept : KeepsFiles between after) :
    ReceivesTable path t before after := by
  obtain ⟨text, rendering, received⟩ := received
  exact ⟨text, rendering, received.keepsFiles kept⟩

end FileTree

namespace Machine

variable {ε δ α β : Type}

/-- The result of an action on a machine, and the machine afterwards. -/
def runOn (action : ExceptT ε (StateM Machine) α) (machine : Machine) : Except ε α × Machine :=
  action.run.run machine

/-- An action that leaves the files as they are, and gives only what is found in them. -/
structure Reads (action : ExceptT ε (StateM Machine) α) (view : FileTree → Except δ α) : Prop where
  keeps : ∀ machine, (runOn action machine).2.files = machine.files
  finds : ∀ {machine a}, (runOn action machine).1 = .ok a → view machine.files = .ok a

section Running

variable {x : ExceptT ε (StateM Machine) α} {f : α → ExceptT ε (StateM Machine) β}
  {before after : Machine}

theorem runOn_bind_of_ok {a : α} {between : Machine} (ran : runOn x before = (.ok a, between)) :
    runOn (x >>= f) before = runOn (f a) between := by
  unfold runOn at *
  rw [ExceptT.run_bind, StateT.run_bind, ran]
  rfl

theorem runOn_bind_of_error {cause : ε} (ran : runOn x before = (.error cause, after)) :
    runOn (x >>= f) before = (.error cause, after) := by
  unfold runOn at *
  rw [ExceptT.run_bind, StateT.run_bind, ran]
  rfl

theorem runOn_bind_eq_ok {result : β} (ended : runOn (x >>= f) before = (.ok result, after)) :
    ∃ a between, runOn x before = (.ok a, between) ∧ runOn (f a) between = (.ok result, after) := by
  rcases ran : runOn x before with ⟨e | a, between⟩
  · rw [runOn_bind_of_error ran] at ended
    cases ended
  · rw [runOn_bind_of_ok ran] at ended
    exact ⟨a, between, rfl, ended⟩

theorem runOn_bind_eq_error {cause : ε} (ended : runOn (x >>= f) before = (.error cause, after)) :
    runOn x before = (.error cause, after) ∨
      ∃ a between, runOn x before = (.ok a, between) ∧
        runOn (f a) between = (.error cause, after) := by
  rcases ran : runOn x before with ⟨e | a, between⟩
  · rw [runOn_bind_of_error ran] at ended
    cases ended
    exact Or.inl rfl
  · rw [runOn_bind_of_ok ran] at ended
    exact Or.inr ⟨a, between, rfl, ended⟩

@[simp] theorem runOn_adapt (x : ExceptT ε (StateM Machine) α) (change : ε → δ) (before : Machine) :
    runOn (x.adapt change) before = ((runOn x before).1.mapError change, (runOn x before).2) := rfl

theorem adapt_eq_ok {change : ε → δ} {a : α}
    (ended : runOn (x.adapt change) before = (.ok a, after)) : runOn x before = (.ok a, after) := by
  rw [runOn_adapt] at ended
  rcases ran : runOn x before with ⟨cause | result, between⟩
  · rw [ran] at ended
    cases ended
  · rw [ran] at ended
    cases ended
    rfl

theorem adapt_eq_error {change : ε → δ} {e : δ}
    (ended : runOn (x.adapt change) before = (.error e, after)) :
    ∃ cause, runOn x before = (.error cause, after) ∧ e = change cause := by
  rw [runOn_adapt] at ended
  rcases ran : runOn x before with ⟨cause | result, between⟩
  · rw [ran] at ended
    cases ended
    exact ⟨cause, rfl, rfl⟩
  · rw [ran] at ended
    cases ended

end Running

section Reading

variable {x : ExceptT ε (StateM Machine) α} {f : α → ExceptT ε (StateM Machine) β}
  {view : FileTree → Except δ α} {next : α → FileTree → Except δ β}

theorem Reads.of_eq_ok {before after : Machine} {a : α} (reads : Reads x view)
    (ended : runOn x before = (.ok a, after)) :
    view before.files = .ok a ∧ after.files = before.files := by
  have kept := reads.keeps before
  rw [ended] at kept
  exact ⟨reads.finds (congrArg Prod.fst ended), kept⟩

/-- A sequence that starts with reading ends there, with all files as they are, or behind it, on the
files that were read. -/
theorem Reads.bind_eq_error {before after : Machine} {cause : ε} (reads : Reads x view)
    (ended : runOn (x >>= f) before = (.error cause, after)) :
    before.files.KeepsFiles after.files ∨ ∃ a between, view before.files = .ok a ∧
      between.files = before.files ∧ runOn (f a) between = (.error cause, after) := by
  rcases runOn_bind_eq_error ended with failed | ⟨a, between, done, ended⟩
  · have kept := reads.keeps before
    rw [failed] at kept
    exact Or.inl (kept ▸ .refl before.files)
  · obtain ⟨found, kept⟩ := reads.of_eq_ok done
    exact Or.inr ⟨a, between, found, kept, ended⟩

theorem Reads.bind_eq_ok {before after : Machine} {result : β} (reads : Reads x view)
    (ended : runOn (x >>= f) before = (.ok result, after)) :
    ∃ a between, view before.files = .ok a ∧ between.files = before.files ∧
      runOn (f a) between = (.ok result, after) := by
  obtain ⟨a, between, done, ended⟩ := runOn_bind_eq_ok ended
  obtain ⟨found, kept⟩ := reads.of_eq_ok done
  exact ⟨a, between, found, kept, ended⟩

theorem Reads.bind (reads : Reads x view) (reads' : ∀ a, Reads (f a) (next a)) :
    Reads (x >>= f) fun files => view files >>= fun a => next a files := by
  constructor
  · intro machine
    rcases ran : runOn x machine with ⟨e | a, between⟩
    · have kept := reads.keeps machine
      rw [ran] at kept
      rw [runOn_bind_of_error ran, kept]
    · rw [runOn_bind_of_ok ran, (reads' a).keeps, (reads.of_eq_ok ran).2]
  · intro machine b ended
    obtain ⟨a, between, found, kept, ended⟩ := reads.bind_eq_ok (Prod.ext ended rfl)
    have found' := (reads' a).finds (congrArg Prod.fst ended)
    rw [kept] at found'
    rw [found]
    exact found'

theorem Reads.adapt {ε' : Type} (reads : Reads x view) (change : ε → ε') :
    Reads (x.adapt change) view :=
  ⟨reads.keeps, fun {_ _} ended =>
    reads.finds (congrArg Prod.fst (adapt_eq_ok (Prod.ext ended rfl)))⟩

theorem Reads.mapError {δ' : Type} (reads : Reads x view) (change : δ → δ') :
    Reads x fun files => (view files).mapError change := by
  refine ⟨reads.keeps, ?_⟩
  intro machine a ended
  rw [reads.finds ended]
  rfl

theorem reads_pure (a : α) :
    Reads (δ := δ) (pure a : ExceptT ε (StateM Machine) α) fun _ => .ok a :=
  ⟨fun _ => rfl, fun {_ _} ended => by cases ended; rfl⟩

theorem reads_throw (e : ε) (view : FileTree → Except δ α) :
    Reads (throw e : ExceptT ε (StateM Machine) α) view :=
  ⟨fun _ => rfl, fun {_ _} ended => by cases ended⟩

end Reading

section Operations

variable {path : String} {given content : ByteArray} {before : FileTree} {machine : Machine}
  {meaning : FileError → DocumentError}

theorem runOn_attempt {step : StateM Machine (Except FileError α)} {result : Except FileError α}
    {after : Machine} (ran : step.run machine = (result, after)) :
    runOn (Document.attempt meaning step) machine = (result.mapError meaning, after) := by
  rw [Document.attempt, runOn_adapt, runOn, ExceptT.run_mk, ran]

/-- An operation is refused without effect, or it is done on the files as they are. -/
theorem operate_cases (operation : FileTree → Except FileError (α × FileTree)) (machine : Machine) :
    (∃ e after, (operate operation).run machine = (.error e, after) ∧
      after.files = machine.files) ∨
    ∃ result after, (operate operation).run machine = (.ok result, after) ∧
      operation machine.files = .ok (result, after.files) := by
  have ran : (operate operation).run machine = conclude
      ((machine.responses.headD .plain).answer (operation machine.files))
      { machine with responses := machine.responses.tail } := rfl
  rw [ran]
  cases answered : (machine.responses.headD .plain).answer (operation machine.files) with
  | error e => exact Or.inl ⟨e, _, rfl, rfl⟩
  | ok done => exact Or.inr ⟨done.1, _, rfl, Response.eq_ok_of_answer answered⟩

theorem reads_print (text : String) :
    Reads (δ := δ) (ExceptT.mk (Host.print text : StateM Machine _)) fun _ => .ok () := by
  exact ⟨fun _ => rfl, fun {_ _} _ => rfl⟩

/-- The bytes in an open file and those that wait for it are the ones that were handed over. -/
structure Writer.Holds (writer : Writer) (path : String) (given : ByteArray)
    (before files : FileTree) : Prop where
  leads : files.resolve path = .ok writer.place
  received : ∃ content, content ++ writer.waiting = given ∧ before.Receives path content files

theorem Writer.Holds.part {writer : Writer} {files : FileTree}
    (holds : writer.Holds path given before files) : before.ReceivesPart path given files := by
  obtain ⟨content, whole, received⟩ := holds.received
  exact ⟨content, writer.waiting, whole, received⟩

theorem Writer.Holds.deliver {writer : Writer}
    (holds : writer.Holds path given before machine.files) (count : Nat) :
    ((deliver writer count).run machine).1.Holds path given before
      ((deliver writer count).run machine).2.files := by
  obtain ⟨content, whole, received⟩ := holds.received
  obtain ⟨received', leads⟩ := received.append holds.leads (writer.waiting.extract 0 count)
  refine ⟨leads, _, ?_, received'⟩
  show content ++ writer.waiting.extract 0 count ++
    writer.waiting.extract count writer.waiting.size = given
  rw [ByteArray.append_assoc, ← whole]
  simp

theorem create_cases (path : String) (machine : Machine) :
    (∃ e after, runOn (Document.attempt meaning (Host.create path)) machine =
        (.error (meaning e), after) ∧ machine.files.KeepsFiles after.files) ∨
    ∃ writer after, runOn (Document.attempt meaning (Host.create path)) machine =
        (.ok writer, after) ∧ writer.Holds path .empty machine.files after.files := by
  rcases operate_cases (fun files => (files.create path).map fun made =>
      ((⟨made.1, .empty⟩ : Writer), made.2)) machine with
    ⟨e, after, ran, kept⟩ | ⟨writer, after, ran, done⟩
  · exact Or.inl ⟨e, after, runOn_attempt ran, kept ▸ .refl machine.files⟩
  · obtain ⟨⟨place, files⟩, created, made⟩ := map_eq_ok done
    obtain ⟨rfl, rfl⟩ := Prod.mk.inj made
    obtain ⟨received, leads⟩ := FileTree.receives_create created
    exact Or.inr ⟨_, _, runOn_attempt ran, leads, .empty, ByteArray.append_empty, received⟩

theorem write_cases {writer : Writer} (holds : writer.Holds path given before machine.files)
    (bytes : ByteArray) :
    (∃ e after, runOn (Document.attempt meaning (Host.write writer bytes)) machine =
        (.error (meaning e), after) ∧ before.ReceivesPart path (given ++ bytes) after.files) ∨
    ∃ writer' after, runOn (Document.attempt meaning (Host.write writer bytes)) machine =
        (.ok writer', after) ∧ writer'.Holds path (given ++ bytes) before after.files := by
  obtain ⟨content, whole, received⟩ := holds.received
  have handed : Writer.Holds { writer with waiting := writer.waiting ++ bytes } path
      (given ++ bytes) before machine.files :=
    ⟨holds.leads, content, by rw [← ByteArray.append_assoc, whole], received⟩
  have delivered := handed.deliver (machine.responses.headD .plain).through
  rcases ran : (Host.write writer bytes : StateM Machine _).run machine with ⟨e | writer', after⟩
  · obtain ⟨-, rfl⟩ := Prod.mk.inj ran
    exact Or.inl ⟨e, _, runOn_attempt ran, delivered.part⟩
  · obtain ⟨answered, rfl⟩ := Prod.mk.inj ran
    cases Response.eq_ok_of_answer answered
    exact Or.inr ⟨_, _, runOn_attempt ran, delivered⟩

theorem flush_cases {writer : Writer} (holds : writer.Holds path given before machine.files) :
    (∃ e after, runOn (Document.attempt meaning (Host.flush writer)) machine =
        (.error (meaning e), after) ∧ before.ReceivesPart path given after.files) ∨
    ∃ after, runOn (Document.attempt meaning (Host.flush writer)) machine = (.ok (), after) ∧
      before.Receives path given after.files := by
  have delivered := holds.deliver ((machine.responses.headD .plain).count writer.waiting.size)
  rcases ran : (Host.flush writer : StateM Machine _).run machine with ⟨e | _, after⟩
  · obtain ⟨-, rfl⟩ := Prod.mk.inj ran
    exact Or.inl ⟨e, _, runOn_attempt ran, delivered.part⟩
  · obtain ⟨answered, rfl⟩ := Prod.mk.inj ran
    refine Or.inr ⟨_, runOn_attempt ran, ?_⟩
    -- Nothing waits any more, so the file has all of it.
    obtain ⟨content, whole, received⟩ := delivered.received
    have nothing : writer.waiting.extract ((machine.responses.headD .plain).count
        writer.waiting.size) writer.waiting.size = .empty := by
      rw [Response.count_of_answer answered]
      simp
    have complete : content = given := by
      rw [← whole]
      show content = content ++ writer.waiting.extract _ _
      rw [nothing, ByteArray.append_empty]
    rw [← complete]
    exact received

end Operations

section Documents

theorem reads_read (path : String) :
    Reads (ExceptT.mk (Host.read path : StateM Machine _)) fun files => files.read path := by
  have ran := operate_cases fun files => (files.read path).map (·, files)
  constructor
  · intro machine
    rcases ran machine with ⟨e, after, ran, same⟩ | ⟨content, after, ran, done⟩
    · exact (congrArg (·.2.files) ran).trans same
    · obtain ⟨_, -, found⟩ := map_eq_ok done
      exact (congrArg (·.2.files) ran).trans (Prod.mk.inj found).2.symm
  · intro machine content ended
    rcases ran machine with ⟨e, after, ran, -⟩ | ⟨content', after, ran, done⟩
    · cases (congrArg Prod.fst ran).symm.trans ended
    · obtain ⟨_, read, found⟩ := map_eq_ok done
      cases (congrArg Prod.fst ran).symm.trans ended
      rw [read, (Prod.mk.inj found).1]

theorem reads_readText (path : String) :
    Reads (Document.readText path) fun files => files.text? path := by
  apply Reads.bind (reads_read path)
  intro content
  cases String.fromUTF8? content with
  | none => exact reads_throw _ _
  | some text => exact reads_pure text

theorem reads_text (path : String) : Reads (Document.text path) fun files =>
    (files.text? path).mapError (DocumentError.reading path) :=
  ((reads_readText path).adapt _).mapError _

theorem reads_table (path : String) :
    Reads (Document.readTable path) fun files => files.table? path := by
  apply Reads.bind (reads_text path)
  intro text
  cases Table.ofCsv? text with
  | error e => exact reads_throw _ _
  | ok t => exact reads_pure t

theorem reads_heapReport (path : String) :
    Reads (Document.readHeapReport path) fun files => files.heapReport? path := by
  apply Reads.bind (reads_text path)
  intro text
  cases HeapReport.read? text with
  | error e => exact reads_throw _ _
  | ok report => exact reads_pure report

end Documents

section Directories

/-- An action after which every file is as before. -/
def KeepsFiles (action : StateM Machine α) : Prop :=
  ∀ machine : Machine, machine.files.KeepsFiles (action.run machine).2.files

theorem keepsFiles_pure (a : α) : KeepsFiles (pure a) := fun machine => .refl machine.files

theorem KeepsFiles.bind {x : StateM Machine α} {f : α → StateM Machine β} (first : KeepsFiles x)
    (next : ∀ a, KeepsFiles (f a)) : KeepsFiles (x >>= f) :=
  fun machine => (first machine).trans (next _ _)

theorem keepsFiles_operate {operation : FileTree → Except FileError (α × FileTree)}
    (keeps : ∀ {before result after}, operation before = .ok (result, after) →
      before.KeepsFiles after) : KeepsFiles (operate operation) := by
  intro machine
  rcases operate_cases operation machine with ⟨e, after, ran, same⟩ | ⟨result, after, ran, done⟩
  · rw [ran, same]
    exact .refl machine.files
  · rw [ran]
    exact keeps done

theorem keepsFiles_createDirectory (path : String) : KeepsFiles (Host.createDirectory path) := by
  apply keepsFiles_operate
  intro before result after done
  obtain ⟨files, made, ended⟩ := map_eq_ok done
  obtain ⟨-, rfl⟩ := Prod.mk.inj ended
  exact FileTree.keepsFiles_createDirectory made

theorem keepsFiles_isDirectory (path : String) : KeepsFiles (Host.isDirectory path) := by
  apply KeepsFiles.bind
  · apply keepsFiles_operate
    intro before result after done
    cases done
    exact .refl before
  · exact fun answer => keepsFiles_pure _

theorem keepsFiles_settle (path : String) (result : Except FileError Unit) :
    KeepsFiles (Host.createAlong.settle path result) := by
  unfold Host.createAlong.settle
  split
  · exact keepsFiles_pure _
  · apply KeepsFiles.bind (keepsFiles_isDirectory path)
    exact fun isDirectory => keepsFiles_pure _

theorem keepsFiles_createAlong (paths : List String) : KeepsFiles (Host.createAlong paths) := by
  induction paths with
  | nil => exact keepsFiles_pure _
  | cons path above inductionHypothesis =>
    unfold Host.createAlong
    split
    · exact keepsFiles_pure _
    · apply KeepsFiles.bind (keepsFiles_createDirectory path)
      intro made
      split
      · exact keepsFiles_pure _
      · apply KeepsFiles.bind inductionHypothesis
        intro madeAbove
        split
        · exact keepsFiles_pure _
        · apply KeepsFiles.bind (keepsFiles_createDirectory path)
          exact keepsFiles_settle path
      · exact keepsFiles_settle path _

end Directories

section Writing

variable {path : String} {given content : ByteArray}

/-- The end of a writing action: it completes the content of an open file, or it leaves a beginning
of it there. -/
structure Completes (action : Writer → ExceptT DocumentError (StateM Machine) Unit) (path : String)
    (given content : ByteArray) : Prop where
  failed : ∀ {before writer machine e after}, writer.Holds path given before machine.files →
    runOn (action writer) machine = (.error e, after) →
      e.AfterCreation ∧ before.ReceivesPart path content after.files
  done : ∀ {before writer machine after}, writer.Holds path given before machine.files →
    runOn (action writer) machine = (.ok (), after) → before.Receives path content after.files

/-- A writing action as a whole: it stores the content, or a beginning of it, or keeps all files. -/
structure Ends (action : ExceptT DocumentError (StateM Machine) Unit) (path : String)
    (content : ByteArray) : Prop where
  failed : ∀ {before e after}, runOn action before = (.error e, after) →
    (e.AfterCreation ∧ before.files.ReceivesPart path content after.files) ∨
      (¬ e.AfterCreation ∧ before.files.KeepsFiles after.files)
  done : ∀ {before after}, runOn action before = (.ok (), after) →
    before.files.Receives path content after.files

theorem keepsFiles_ensureParent (path : String) (machine : Machine) :
    machine.files.KeepsFiles (runOn (Document.ensureParent path) machine).2.files := by
  unfold Document.ensureParent
  split
  · exact .refl machine.files
  · split
    · exact .refl machine.files
    next directory _ _ => exact keepsFiles_createAlong (Path.ancestors directory) machine

theorem not_afterCreation_of_ensureParent {machine after : Machine} {e : DocumentError}
    (failed : runOn (Document.ensureParent path) machine = (.error e, after)) :
    ¬ e.AfterCreation := by
  unfold Document.ensureParent at failed
  split at failed
  · cases failed
  · split at failed
    · cases failed
    · obtain ⟨cause, -, rfl⟩ := adapt_eq_error failed
      exact id

theorem completes_flush {meaning : FileError → DocumentError}
    (late : ∀ cause, (meaning cause).AfterCreation) (whole : given = content) :
    Completes (fun writer => Document.attempt meaning (Host.flush writer)) path given content := by
  subst whole
  constructor
  · intro before writer machine e after holds ended
    rcases flush_cases holds with ⟨cause, _, refused, part⟩ | ⟨_, flushed, -⟩
    · cases refused.symm.trans ended
      exact ⟨late cause, part⟩
    · cases flushed.symm.trans ended
  · intro before writer machine after holds ended
    rcases flush_cases holds with ⟨_, _, refused, -⟩ | ⟨_, flushed, received⟩
    · cases refused.symm.trans ended
    · cases flushed.symm.trans ended
      exact received

/-- Bytes are handed over that the content goes on with. -/
theorem Completes.after_write {meaning : FileError → DocumentError} {bytes : ByteArray}
    {rest : Writer → ExceptT DocumentError (StateM Machine) Unit}
    (late : ∀ cause, (meaning cause).AfterCreation)
    (goesOn : ∃ more, given ++ bytes ++ more = content)
    (completes : Completes rest path (given ++ bytes) content) :
    Completes (fun writer => Document.attempt meaning (Host.write writer bytes) >>= rest) path given
      content := by
  obtain ⟨more, goesOn⟩ := goesOn
  constructor
  · intro before writer machine e after holds ended
    rcases write_cases holds bytes with ⟨cause, _, refused, part⟩ | ⟨_, _, written, holds'⟩
    · cases (runOn_bind_of_error refused).symm.trans ended
      exact ⟨late cause, goesOn ▸ part.append more⟩
    · rw [runOn_bind_of_ok written] at ended
      exact completes.failed holds' ended
  · intro before writer machine after holds ended
    rcases write_cases holds bytes with ⟨_, _, refused, -⟩ | ⟨_, _, written, holds'⟩
    · cases (runOn_bind_of_error refused).symm.trans ended
    · rw [runOn_bind_of_ok written] at ended
      exact completes.done holds' ended

theorem ends_open {rest : Writer → ExceptT DocumentError (StateM Machine) Unit}
    (completes : Completes rest path .empty content) :
    Ends (do
      Document.ensureParent path
      let writer ← Document.attempt (.creating path) (Host.create path)
      rest writer) path content := by
  constructor
  · intro before e after ended
    rcases runOn_bind_eq_error ended with failed | ⟨_, parented, done, ended⟩
    · have kept := keepsFiles_ensureParent path before
      rw [failed] at kept
      exact Or.inr ⟨not_afterCreation_of_ensureParent failed, kept⟩
    have kept := keepsFiles_ensureParent path before
    rw [done] at kept
    rcases create_cases path parented with ⟨_, _, refused, kept'⟩ | ⟨_, _, created, holds⟩
    · cases (runOn_bind_of_error refused).symm.trans ended
      exact Or.inr ⟨id, kept.trans kept'⟩
    · rw [runOn_bind_of_ok created] at ended
      obtain ⟨late, part⟩ := completes.failed holds ended
      exact Or.inl ⟨late, kept.receivesPart part⟩
  · intro before after ended
    obtain ⟨_, parented, done, ended⟩ := runOn_bind_eq_ok ended
    have kept := keepsFiles_ensureParent path before
    rw [done] at kept
    rcases create_cases path parented with ⟨_, _, refused, -⟩ | ⟨_, _, created, holds⟩
    · cases (runOn_bind_of_error refused).symm.trans ended
    · rw [runOn_bind_of_ok created] at ended
      exact kept.receives (completes.done holds ended)

theorem ends_writeCsv (path : String) (t : Table) :
    Ends (Document.writeCsv path t) path t.toCsv.toUTF8 := by
  have whole : .empty ++ t.toCsv.toUTF8 = t.toCsv.toUTF8 := ByteArray.empty_append
  apply ends_open
  refine Completes.after_write (fun _ => ?late) ?goesOn ?completes
  case late => trivial
  case goesOn => exact ⟨.empty, by rw [whole, ByteArray.append_empty]⟩
  case completes => exact completes_flush (fun _ => trivial) whole

theorem ends_writeJson (path : String) (t : Table) :
    Ends (Document.writeJson path t) path (t.toRecords.indented ++ "\n").toUTF8 := by
  have whole : .empty ++ t.toRecords.indented.toUTF8 ++ "\n".toUTF8 =
      (t.toRecords.indented ++ "\n").toUTF8 := by
    rw [ByteArray.empty_append]
    exact String.toByteArray_append.symm
  apply ends_open
  refine Completes.after_write (fun _ => ?late) ⟨_, whole⟩
    (Completes.after_write (fun _ => ?late') ?goesOn ?completes)
  case late | late' => trivial
  case goesOn => exact ⟨.empty, by rw [whole, ByteArray.append_empty]⟩
  case completes => exact completes_flush (fun _ => trivial) whole

/-- The text of the table in the form that the path asks for goes to the path. -/
theorem ends_writeTable (path : String) (t : Table) :
    ∃ text, Rendering path t text ∧ Ends (Document.writeTable path t) path text.toUTF8 := by
  unfold Document.writeTable
  cases format : TableFormat.ofPath path with
  | csv =>
    refine ⟨_, .csv ?_, ends_writeCsv path t⟩
    intro asks
    cases format.symm.trans (TableFormat.ofPath_eq_json_iff.2 asks)
  | json => exact ⟨_, .json (TableFormat.ofPath_eq_json_iff.1 format), ends_writeJson path t⟩

end Writing

end Machine

end BenchStats
