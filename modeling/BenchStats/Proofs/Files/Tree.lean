import BenchStats.Files.Tree
import BenchStats.Proofs.Outcome

/-!
# Changes of file trees

Making a directory puts it where nothing was, so every file stays as it is.  Creating a file and
appending to it change the place that the path leads to, afterwards as before: the way there passes
through directories only, and a directory is never replaced.  Where that place is the device that
keeps nothing, there is no change at all.
-/

namespace BenchStats

theorem Path.pieces_of_cutLast {path : String} {front : List (List Char)} {last : List Char}
    (cut : cutLast path = (front, last, false)) : pieces path = front ++ [last] := by
  unfold cutLast at cut
  cases backwards : (pieces path).reverse with
  | nil => simp [backwards] at cut
  | cons final others =>
    simp only [backwards] at cut
    by_cases slash : final = []
    · -- A slash at the end leaves an empty piece there, which the cut reports.
      split at cut
      · simp at cut
      · simp [slash] at cut
    · have solid : final.isEmpty = false := by simpa using slash
      rw [List.dropWhile_cons_of_neg (by simp [solid])] at cut
      simp only [Prod.mk.injEq] at cut
      obtain ⟨rfl, rfl, -⟩ := cut
      rw [← List.reverse_reverse (pieces path), backwards, List.reverse_cons]

namespace FileTree

variable {tree before between after : FileTree} {path : String} {content : ByteArray}

/-- What is at a place stays there, or nothing was there and a directory is new. -/
def SameOrNewDirectory (before after : FileTree) (place : Place) : Prop :=
  after.lookup place = before.lookup place ∨
    before.lookup place = none ∧ after.lookup place = some .directory

/-- No file is created or changed; at most, there are new directories. -/
structure KeepsFiles (before after : FileTree) : Prop where
  workingDirectory : after.workingDirectory = before.workingDirectory
  everywhere : ∀ place, SameOrNewDirectory before after place

/-- What is at the end of a path. -/
def LeadsTo (tree : FileTree) (path : String) (place : Place) (entry : FileEntry) : Prop :=
  tree.resolve path = .ok place ∧ tree.lookup place = some entry

/-- A path leads to a file with the given content, and no file at any other place is created or
changed. -/
structure Stores (path : String) (content : ByteArray) (before after : FileTree) : Prop where
  workingDirectory : after.workingDirectory = before.workingDirectory
  elsewhere : ∃ place, after.LeadsTo path place (.file content) ∧
    ∀ other, other ≠ place → SameOrNewDirectory before after other

/-- Content went to a path: a file there holds it now, or it was lost in a device there. -/
inductive Receives (path : String) (content : ByteArray) (before after : FileTree) : Prop
  | file : Stores path content before after → Receives path content before after
  | sink {place : Place} : after.LeadsTo path place .sink → KeepsFiles before after →
      Receives path content before after

theorem SameOrNewDirectory.trans {place : Place} (first : SameOrNewDirectory before between place)
    (second : SameOrNewDirectory between after place) : SameOrNewDirectory before after place := by
  rcases first with same | ⟨absent, present⟩
  · rcases second with same' | ⟨absent', present'⟩
    · exact Or.inl (same'.trans same)
    · exact Or.inr ⟨same.symm.trans absent', present'⟩
  · rcases second with same' | ⟨absent', -⟩
    · exact Or.inr ⟨absent, same'.trans present⟩
    · exact absurd (present.symm.trans absent') (Option.some_ne_none _)

theorem SameOrNewDirectory.keeps {place : Place} {entry : FileEntry}
    (same : SameOrNewDirectory before after place) (found : before.lookup place = some entry) :
    after.lookup place = some entry := by
  rcases same with same | ⟨absent, -⟩
  · exact same.trans found
  · exact absurd (absent.symm.trans found) (Option.some_ne_none _).symm

@[simp] theorem KeepsFiles.refl (tree : FileTree) : KeepsFiles tree tree :=
  ⟨rfl, fun _ => Or.inl rfl⟩

theorem KeepsFiles.trans (first : KeepsFiles before between) (second : KeepsFiles between after) :
    KeepsFiles before after := by
  refine ⟨second.workingDirectory.trans first.workingDirectory, ?_⟩
  intro place
  exact (first.everywhere place).trans (second.everywhere place)

section Following

theorem directory_of_enter {place next : Place} {piece : List Char}
    (entered : tree.enter place piece = .ok next) : tree.lookup place = some .directory := by
  unfold enter at entered
  split at entered
  next => cases entered
  next => cases entered
  next => cases entered
  next found => exact found

theorem enter_of_isName {place next : Place} {piece : List Char} (name : Path.isName piece = true)
    (entered : tree.enter place piece = .ok next) : next ≠ [] := by
  rw [Path.isName, Bool.and_eq_true, Bool.not_eq_true', decide_eq_true_eq] at name
  unfold enter at entered
  split at entered
  next => cases entered
  next => cases entered
  next => cases entered
  next =>
    rw [if_neg (by simp [name.1]), if_neg name.2] at entered
    split at entered
    next => cases entered
    next =>
      cases entered
      exact List.append_ne_nil_of_right_ne_nil _ (List.cons_ne_nil _ _)

variable (directories : ∀ place, before.lookup place = some .directory →
  after.lookup place = some .directory)

include directories

theorem enter_of_directories {place next : Place} {piece : List Char}
    (entered : before.enter place piece = .ok next) : after.enter place piece = .ok next := by
  have left := directory_of_enter entered
  unfold enter at entered ⊢
  rw [left] at entered
  rw [directories place left]
  exact entered

theorem follow_of_directories {start next : Place} {pieces : List (List Char)}
    (followed : before.follow start pieces = .ok next) : after.follow start pieces = .ok next := by
  unfold follow at *
  induction pieces generalizing start with
  | nil => exact followed
  | cons piece rest inductionHypothesis =>
    rw [List.foldlM_cons] at followed ⊢
    obtain ⟨middle, entered, followed⟩ := bind_eq_ok followed
    rw [enter_of_directories directories entered]
    exact inductionHypothesis followed

theorem resolve_of_directories (sameStart : after.workingDirectory = before.workingDirectory)
    {place : Place} (resolved : before.resolve path = .ok place) :
    after.resolve path = .ok place := by
  obtain ⟨_, checked, followed⟩ := bind_eq_ok resolved
  have starts : after.start path = before.start path := by
    unfold start
    rw [sameStart]
  unfold resolve
  rw [checked, starts]
  exact follow_of_directories directories followed

end Following

theorem KeepsFiles.directories (kept : KeepsFiles before after) (place : Place)
    (found : before.lookup place = some .directory) : after.lookup place = some .directory :=
  (kept.everywhere place).keeps found

theorem LeadsTo.keepsFiles {place : Place} {entry : FileEntry}
    (leads : before.LeadsTo path place entry) (kept : KeepsFiles before after) :
    after.LeadsTo path place entry :=
  ⟨resolve_of_directories kept.directories kept.workingDirectory leads.1,
    (kept.everywhere place).keeps leads.2⟩

/-- What can be read stays as it is. -/
theorem KeepsFiles.read_eq_ok (kept : KeepsFiles before after)
    (read : before.read path = .ok content) : after.read path = .ok content := by
  obtain ⟨place, resolved, found⟩ := bind_eq_ok read
  unfold FileTree.read
  rw [resolve_of_directories kept.directories kept.workingDirectory resolved]
  simp only [bind, Except.bind]
  cases entry : before.lookup place with
  | none =>
    rw [entry] at found
    cases found
  | some entry' =>
    rw [(kept.everywhere place).keeps entry]
    rw [entry] at found
    exact found

theorem KeepsFiles.receives (kept : KeepsFiles before between)
    (received : Receives path content between after) : Receives path content before after := by
  cases received with
  | file stored =>
    obtain ⟨place, leads, elsewhere⟩ := stored.elsewhere
    refine .file ⟨stored.workingDirectory.trans kept.workingDirectory, place, leads, ?_⟩
    intro other different
    exact (kept.everywhere other).trans (elsewhere other different)
  | sink leads kept' => exact .sink leads (kept.trans kept')

theorem Receives.keepsFiles (received : Receives path content before between)
    (kept : KeepsFiles between after) : Receives path content before after := by
  cases received with
  | file stored =>
    obtain ⟨place, leads, elsewhere⟩ := stored.elsewhere
    refine .file ⟨kept.workingDirectory.trans stored.workingDirectory, place,
      leads.keepsFiles kept, ?_⟩
    intro other different
    exact (elsewhere other different).trans (kept.everywhere other)
  | sink leads kept' => exact .sink (leads.keepsFiles kept) (kept'.trans kept)

theorem keepsFiles_createDirectory (made : tree.createDirectory path = .ok after) :
    KeepsFiles tree after := by
  unfold createDirectory at made
  obtain ⟨_, -, made⟩ := bind_eq_ok made
  generalize Path.cutLast path = cut at made
  obtain ⟨front, last, slash⟩ := cut
  obtain ⟨directory, -, made⟩ := bind_eq_ok made
  obtain ⟨place, entered, made⟩ := bind_eq_ok made
  split at made
  next => cases made
  next free =>
    cases made
    simp only [Bool.or_eq_true, not_or, Bool.not_eq_true, Bool.not_eq_false',
      Option.isSome_eq_false_iff, Option.isNone_iff_eq_none] at free
    obtain ⟨name, absent⟩ := free
    refine ⟨rfl, ?_⟩
    intro other
    by_cases here : other = place
    · subst here
      have below := enter_of_isName name entered
      exact Or.inr ⟨absent, by simp [below]⟩
    · exact Or.inl (by simp [here])

/-- No way leads through a file, so a path that ends in one leads there as before. -/
theorem resolve_insert {place : Place} (resolved : tree.resolve path = .ok place)
    (noDirectory : tree.lookup place ≠ some .directory) :
    (tree.insert place (.file content)).resolve path = .ok place := by
  have directories (other : Place) (found : tree.lookup other = some .directory) :
      (tree.insert place (.file content)).lookup other = some .directory := by
    have different : other ≠ place := by
      rintro rfl
      exact noDirectory found
    simpa [different] using found
  exact resolve_of_directories directories rfl resolved

theorem eq_sink_of_isSink {entry : Option FileEntry}
    (device : entry.any FileEntry.isSink = true) : entry = some .sink := by
  rcases entry with _ | _ | _ | _
  · cases device
  · cases device
  · cases device
  · rfl

/-- The file that is created is empty, and the path leads to its place. -/
theorem receives_create {place : Place} (created : tree.create path = .ok (place, after)) :
    Receives path .empty tree after ∧ after.resolve path = .ok place := by
  unfold create at created
  obtain ⟨_, checked, created⟩ := bind_eq_ok created
  rcases cut : Path.cutLast path with ⟨front, last, slash⟩
  rw [cut] at created
  obtain ⟨directory, followed, created⟩ := bind_eq_ok created
  obtain ⟨there, entered, created⟩ := bind_eq_ok created
  split at created
  next => cases created
  next free =>
    cases created
    simp only [Bool.or_eq_true, not_or, Bool.not_eq_true, Bool.not_eq_false'] at free
    obtain ⟨⟨rfl, name⟩, noDirectory⟩ := free
    rw [if_neg Bool.false_ne_true] at entered
    have resolved : tree.resolve path = .ok place := by
      unfold resolve follow
      rw [checked, Path.pieces_of_cutLast cut, List.foldlM_append]
      unfold follow at followed
      simp only [followed, bind, Except.bind, List.foldlM_cons, entered]
      rfl
    unfold clear
    split
    next found => exact ⟨.sink ⟨resolved, eq_sink_of_isSink found⟩ (.refl tree), resolved⟩
    next =>
      have noDirectory' : tree.lookup place ≠ some .directory := by
        intro found
        simp [found, FileEntry.isDirectory] at noDirectory
      have leads : (tree.insert place (.file .empty)).resolve path = .ok place :=
        resolve_insert resolved noDirectory'
      refine ⟨.file ⟨rfl, place, ⟨leads, ?_⟩, ?_⟩, leads⟩
      · simp [enter_of_isName name entered]
      · intro other different
        exact Or.inl (by simp [different])

/-- What is appended goes to the file that has taken the content before it. -/
theorem Receives.append {place : Place} (received : Receives path content before tree)
    (resolved : tree.resolve path = .ok place) (bytes : ByteArray) :
    Receives path (content ++ bytes) before (tree.append place bytes) ∧
      (tree.append place bytes).resolve path = .ok place := by
  unfold FileTree.append
  cases received with
  | file stored =>
    obtain ⟨there, ⟨leads, holds⟩, elsewhere⟩ := stored.elsewhere
    cases leads.symm.trans resolved
    have below : place ≠ [] := by
      rintro rfl
      simp at holds
    have noDirectory : tree.lookup place ≠ some .directory := by simp [holds]
    have leads' : (tree.insert place (.file (content ++ bytes))).resolve path = .ok place :=
      resolve_insert leads noDirectory
    simp only [holds]
    refine ⟨.file ⟨stored.workingDirectory, place, ⟨leads', by simp [below]⟩, ?_⟩, leads'⟩
    intro other different
    simpa [SameOrNewDirectory, different] using elsewhere other different
  | sink leads kept =>
    cases leads.1.symm.trans resolved
    simp only [leads.2]
    exact ⟨.sink leads kept, resolved⟩

end FileTree

end BenchStats
