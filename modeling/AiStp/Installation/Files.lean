import AiStp.Installation.Model

/-!
# File observations and publication

`observeFile` reads one file with the directories that lead to it. `publish` replaces or removes one
file: it makes the missing directories, stages the content in the control directory, and renames the
staged file into its place. Every step is durable once it is made, and a write may stop after any
number of bytes.

A reading is one state here, so the repeated readings that detect a change in between are made once.
-/

set_option autoImplicit false

namespace AiStp.Installation

open Foundation Library

open Custody (Identity Stamp)

open Program

/-! ### Observations -/

/-- The directories on the way to the last part, from `here` on, and whether they all exist. -/
def walk (tree : Tree) : Path → Path → Option (Bool × List (Path × Identity))
  | _, [] => none
  | _, [_] => some (true, [])
  | here, name :: next :: rest =>
    match tree.entry (here ++ [name]) with
    | some (.directory identity) =>
      (walk tree (here ++ [name]) (next :: rest)).map fun found ↦
        (found.1, (here ++ [name], identity) :: found.2)
    | none => some (false, [])
    | some _ => none

/-- `read_file`, of the entry under the name. -/
def readFile : Option Entry → Option (Option File)
  | none => some none
  | some (.file file) =>
    if file.readable ∧ file.bytes.length ≤ fileLimit then some (some file) else none
  | some _ => none

def File.stamp (system : System) (file : File) : Stamp :=
  { identity := file.identity
    digest := system.digest file.bytes
    length := file.bytes.length
    mode := file.mode }

/-- `read`. -/
def observeFile (system : System) (tree : Tree) (path : Path) :
    Option (Observation × Option Content) := do
  guard (system.validPath path)
  let (found, parents) ← walk tree [] path
  let file ← readFile (if found then tree.entry path else none)
  some ({ parents := parents, file := file.map (File.stamp system) }, file.map File.content)

def sameContent (system : System) : Option Stamp → Option Content → Bool
  | none, none => true
  | some stamp, some content =>
    stamp.digest = system.digest content.bytes && stamp.length = content.bytes.length &&
      stamp.mode = content.mode
  | _, _ => false

/-- `check_parents`: the directories of the first observation are all in the second. -/
def Observation.within (before now : Observation) : Bool :=
  before.parents.all fun parent ↦ now.parents.lookup parent.1 = some parent.2

/-! ### Steps on the trees -/

def edit (base : Base) (change : World → Tree → Option Tree) : Writer Unit :=
  act fun world ↦ (change world (world.tree base)).map (world.withTree base)

/-- A new directory. -/
def createDirectory (system : System) (base : Base) (path : Path) : Writer Unit :=
  edit base fun world tree ↦
    if (tree.entry path).isNone then tree.put path (.directory (system.allocate world)) else none

/-- A new file, as `create_new` opens it. -/
def createFile (system : System) (base : Base) (path : Path) : Writer Unit :=
  edit base fun world tree ↦
    if (tree.entry path).isNone then
      tree.put path (.file { identity := system.allocate world, bytes := [], mode := 0o600 })
    else none

/-- A change of an open file. -/
def changeFile (base : Base) (path : Path) (change : File → File) : Writer Unit :=
  edit base fun _ tree ↦
    match tree.entry path with
    | some (.file file) => tree.put path (.file (change file))
    | _ => none

def removeFile (base : Base) (path : Path) : Writer Unit :=
  edit base fun _ tree ↦
    match tree.entry path with
    | some (.file _) => tree.drop path
    | _ => none

def removeDirectory (base : Base) (path : Path) : Writer Unit :=
  edit base fun _ tree ↦
    match tree.entry path with
    | some (.directory _) => tree.drop path
    | _ => none

/-- Rename a staged file into its place, in one step. -/
def rename (base : Base) (name : String) (path : Path) : Writer Unit :=
  act fun world ↦
    match world.staged name with
    | some entry => do
      let control ← world.control.drop [stagingName, name]
      let moved := world.withTree .control control
      let tree ← (moved.tree base).put path entry
      some (moved.withTree base tree)
    | none => none

/-! ### Publication -/

/-- Make one directory where it is missing, and read its identity. -/
def ensureDirectory (system : System) (base : Base) (path : Path) : Option Entry → Writer Identity
  | some (.directory identity) => pure identity
  | some _ => refuse
  | none => do
    createDirectory system base path
    look fun world ↦
      match (world.tree base).entry path with
      | some (.directory identity) => some identity
      | _ => none

/-- `parent`, where it makes the missing directories. -/
def makeParents (system : System) (base : Base) : Path → Path → Writer (List (Path × Identity))
  | _, [] => refuse
  | _, [_] => pure []
  | here, name :: next :: rest => do
    let entry ← look fun world ↦ some ((world.tree base).entry (here ++ [name]))
    let identity ← ensureDirectory system base (here ++ [name]) entry
    let parents ← makeParents system base (here ++ [name]) (next :: rest)
    pure ((here ++ [name], identity) :: parents)

/-- `parent`. -/
def parent (system : System) (base : Base) (path : Path) (create : Bool) :
    Writer (List (Path × Identity)) :=
  if create then makeParents system base [] path
  else look fun world ↦ do
    let (found, parents) ← walk (world.tree base) [] path
    guard (found = true)
    some parents

/-- Open the staged file for writing. -/
def openStaged (system : System) (name : String) : Option File → Writer Unit
  | none => createFile system .control [stagingName, name]
  | some file => need (file.writable = true)

/-- `write_all`. -/
def writeBytes (name : String) (bytes : List UInt8) : Writer Unit :=
  forEach (fun count ↦ changeFile .control [stagingName, name] ({ · with
    bytes := bytes.take (count + 1) })) (List.range bytes.length)

def stage (system : System) (name : String) (content : Content) : Writer Unit := do
  let previous ← look fun world ↦ readFile (world.staged name)
  need (∀ file ∈ previous, file.bytes <+: content.bytes)
  openStaged system name previous
  changeFile .control [stagingName, name] ({ · with bytes := [] })
  writeBytes name content.bytes
  changeFile .control [stagingName, name] ({ · with mode := content.mode })

/-- Stage the content of a change that has one. -/
def stageAfter (system : System) (name : String) : Option Content → Writer Unit
  | none => pure ()
  | some content => stage system name content

/-- The file effect itself. -/
def replace (base : Base) (name : String) (path : Path) : Option Content → Writer Unit
  | none => removeFile base path
  | some _ => rename base name path

def observe (system : System) (base : Base) (path : Path) : Writer Observation :=
  look fun world ↦ (observeFile system (world.tree base) path).map (·.1)

/-- The part of `publish` that changes something. -/
def publishFrom (system : System) (base : Base) (name : String) (change : Change)
    (now : Observation) : Writer Unit := do
  need (now.file = change.before.file)
  let parents ← parent system base change.path change.after.isSome
  stageAfter system name change.after
  let checked ← observe system base change.path
  need (checked.file = now.file ∧ checked.parents = parents)
  replace base name change.path change.after
  let after ← observe system base change.path
  need (after.parents = parents ∧ sameContent system after.file change.after = true)

def publish (system : System) (base : Base) (name : String) (change : Change) : Writer Unit := do
  let now ← observe system base change.path
  need (change.before.within now = true)
  if sameContent system now.file change.after then pure ()
  else publishFrom system base name change now

end AiStp.Installation
