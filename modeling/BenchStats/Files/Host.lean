import BenchStats.Files.Tree

/-!
# Hosts

A host is where a command runs: it reads and writes files and takes printed text, and it may refuse
any of that. A file is written in steps, and what the steps before a refusal have done stays done.
Commands are written for any host, so that they run on a real file system as well as on a file tree.
-/

namespace BenchStats

/-- The operations that a host offers. -/
class Host (m : Type → Type) where
  /-- A file that is open for writing. -/
  Writer : Type
  read : String → m (Except FileError ByteArray)
  /-- Makes an empty file, or empties one that is there, and opens it. -/
  create : String → m (Except FileError Writer)
  /-- Hands bytes to an open file, where they may wait to be written with others. -/
  write : Writer → ByteArray → m (Except FileError Writer)
  /-- Writes all bytes that wait. -/
  flush : Writer → m (Except FileError Unit)
  /-- Makes a directory in one that is there. -/
  createDirectory : String → m (Except FileError Unit)
  isDirectory : String → m Bool
  print : String → m (Except FileError Unit)

namespace Host

variable {m : Type → Type} [Monad m] [Host m]

/-- Makes the first of the paths a directory, and before it the others, as far as they are not
there. -/
def createAlong : List String → m (Except FileError Unit)
  | [] => return .error .notFound
  | path :: above => do
    if path.isEmpty then return .ok ()
    match ← Host.createDirectory path with
    | .ok () => return .ok ()
    | .error .notFound =>
      match ← createAlong above with
      | .error e => return .error e
      | .ok () => settle path (← Host.createDirectory path)
    | .error e => settle path (.error e)
where
  /-- A directory that is there already is as good as a new one. -/
  settle (path : String) : Except FileError Unit → m (Except FileError Unit)
    | .ok () => return .ok ()
    | .error e => return if ← Host.isDirectory path then .ok () else .error e

/-- Makes a path a directory, with all the directories above it. -/
def createDirectories (path : String) : m (Except FileError Unit) :=
  createAlong (Path.ancestors path)

end Host

/-- What a system makes of an operation: whether it refuses it, and how many of the bytes on their
way get through all the same. -/
structure Response where
  refusal : Option FileError
  through : Nat

namespace Response

def plain : Response := ⟨none, 0⟩

/-- The result of an operation, unless it is refused. -/
def answer {α : Type} (response : Response) (result : Except FileError α) : Except FileError α :=
  match response.refusal with
  | some e => .error e
  | none => result

/-- How many of the bytes on their way get through: all of them, unless there is a refusal. -/
def count (response : Response) (onTheWay : Nat) : Nat :=
  if response.refusal.isSome then response.through else onTheWay

theorem eq_ok_of_answer {α : Type} {response : Response} {result : Except FileError α} {value : α}
    (answered : response.answer result = .ok value) : result = .ok value := by
  unfold answer at answered
  split at answered
  · cases answered
  · exact answered

theorem count_of_answer {α : Type} {response : Response} {result : Except FileError α} {value : α}
    (answered : response.answer result = .ok value) (onTheWay : Nat) :
    response.count onTheWay = onTheWay := by
  unfold answer at answered
  split at answered
  · cases answered
  next allowed => simp [count, allowed]

end Response

/-- A file tree as a host, with what was printed on it. -/
structure Machine where
  files : FileTree
  output : String
  /-- What is made of the operations to come; none behind the last of these is refused. -/
  responses : List Response := []

namespace Machine

/-- An open file, with the bytes that are not in it yet. -/
structure Writer where
  place : Place
  waiting : ByteArray

def respond : StateM Machine Response :=
  modifyGet fun machine =>
    (machine.responses.headD .plain, { machine with responses := machine.responses.tail })

/-- The machine with the effect of an operation, which has none if it is refused. -/
def conclude {α : Type} (result : Except FileError (α × FileTree)) (machine : Machine) :
    Except FileError α × Machine :=
  match result with
  | .ok (value, files) => (.ok value, { machine with files })
  | .error e => (.error e, machine)

def operate {α : Type} (operation : FileTree → Except FileError (α × FileTree)) :
    StateM Machine (Except FileError α) := do
  let response ← respond
  modifyGet fun machine => machine.conclude (response.answer (operation machine.files))

/-- Writes the first bytes that wait. -/
def deliver (writer : Writer) (count : Nat) : StateM Machine Writer := do
  let bytes := writer.waiting.extract 0 count
  modify fun machine => { machine with files := machine.files.append writer.place bytes }
  return { writer with waiting := writer.waiting.extract count writer.waiting.size }

instance : Host (StateM Machine) where
  Writer := Writer
  read path := operate fun files => (files.read path).map (·, files)
  create path := operate fun files =>
    (files.create path).map fun made => (⟨made.1, .empty⟩, made.2)
  write writer bytes := do
    let response ← respond
    let writer ← deliver { writer with waiting := writer.waiting ++ bytes } response.through
    return response.answer (.ok writer)
  flush writer := do
    let response ← respond
    discard (deliver writer (response.count writer.waiting.size))
    return response.answer (.ok ())
  createDirectory path := operate fun files => (files.createDirectory path).map ((), ·)
  isDirectory path := do
    let answer ← operate fun files => .ok (files.isDirectory path, files)
    return answer.toOption.getD false
  print text := do
    let response ← respond
    let printed := String.ofList (text.toList.take (response.count text.length))
    modify fun machine => { machine with output := machine.output ++ printed }
    return response.answer (.ok ())

end Machine

end BenchStats
