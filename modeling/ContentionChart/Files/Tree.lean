import ContentionChart.Files.Fault
import ContentionChart.Files.Path

/-!
# File trees

Files and directories by their place below the root. Paths are followed through a tree one segment
at a time, and each step but the last needs a directory to stand in.

## Main definitions

* `FileTree` — the files and directories that there are.
* `FileTree.follow` — the place that a path leads to.
* `FileTree.read`, `FileTree.write`, `FileTree.makeDirectory` — what can be done at a place.
* `FileTree.makeDirectories` — a directory with whatever is missing above it.
-/

namespace ContentionChart

open Utf8 (Bytes)

/-- A place in a tree: the names on the way to it from the root. -/
abbrev Location := List Bytes

/-- What is at a place. -/
inductive Node where
  | file (content : Bytes)
  | directory
  deriving DecidableEq

/-- The files and directories below the root, which is always a directory itself. -/
structure FileTree where
  nodes : List (Location × Node)
  deriving DecidableEq

namespace FileTree

def empty : FileTree := ⟨[]⟩

/-- What is at a place. -/
def node? (t : FileTree) (place : Location) : Option Node :=
  if place = [] then some .directory else t.nodes.lookup place

/-- Put a node at a place, instead of the one that is there. -/
def put (t : FileTree) (place : Location) (node : Node) : FileTree :=
  ⟨(place, node) :: t.nodes.filter fun e => e.1 ≠ place⟩

@[simp] theorem node?_nil (t : FileTree) : t.node? [] = some .directory := rfl

theorem node?_put_self (t : FileTree) {place : Location} (node : Node) (h : place ≠ []) :
    (t.put place node).node? place = some node := by
  simp [node?, put, h]

theorem node?_put_of_ne (t : FileTree) {place other : Location} (node : Node) (h : other ≠ place) :
    (t.put place node).node? other = t.node? other := by
  have different : (other == place) = false := by simpa using h
  obtain ⟨nodes⟩ := t
  simp only [node?, put, List.lookup_cons, different]
  split
  · rfl
  · induction nodes with
    | nil => rfl
    | cons first rest ih =>
      obtain ⟨l, n⟩ := first
      simp only [ne_eq, decide_not] at ih
      by_cases same : l = place
      · simp [List.lookup_cons, same, different, ih]
      · simp [List.lookup_cons, same, ih]

def maxNameLength : Nat := 255

def maxPathLength : Nat := 4095

/-- One step along a path, which needs a directory to start from. -/
def step (t : FileTree) (place : Location) (segment : Bytes) : Except FileFault Location :=
  match t.node? place with
  | none => .error .notFound
  | some (.file _) => .error .notADirectory
  | some .directory =>
    if Path.isIdle segment then .ok place
    else if Path.isUp segment then .ok place.dropLast
    else if maxNameLength < segment.length then .error .nameTooLong
    else .ok (place ++ [segment])

def follow (t : FileTree) (start : Location) (segments : List Bytes) :
    Except FileFault Location :=
  segments.foldlM t.step start

@[simp] theorem follow_nil (t : FileTree) (start : Location) : t.follow start [] = .ok start := rfl

theorem follow_cons_of_ok {t : FileTree} {start next : Location} {segment : Bytes}
    (h : t.step start segment = .ok next) (segments : List Bytes) :
    t.follow start (segment :: segments) = t.follow next segments := by
  rw [follow, List.foldlM_cons, h]
  rfl

theorem follow_cons_of_error {t : FileTree} {start : Location} {segment : Bytes}
    {fault : FileFault} (h : t.step start segment = .error fault) (segments : List Bytes) :
    t.follow start (segment :: segments) = .error fault := by
  rw [follow, List.foldlM_cons, h]
  rfl

theorem follow_append_of_ok {t : FileTree} {start next : Location} {before : List Bytes}
    (h : t.follow start before = .ok next) (after : List Bytes) :
    t.follow start (before ++ after) = t.follow next after := by
  rw [follow] at h
  rw [follow, List.foldlM_append, h]
  rfl

theorem follow_concat (t : FileTree) (start : Location) (segments : List Bytes) (last : Bytes) :
    t.follow start (segments ++ [last]) = (t.follow start segments).bind (t.step · last) := by
  rw [follow, List.foldlM_append]
  exact bind_congr fun place => by simp

/-- What is wrong with a path before it is followed. -/
def pathFault? (p : Path) : Option FileFault :=
  if p.bytes.contains 0 then some .nulInName
  else if p.isEmpty then some .notFound
  else if maxPathLength < p.bytes.length then some .nameTooLong
  else none

/-- Where a path is followed from, given the working directory. -/
def startOf (workingDirectory : Location) (p : Path) : Location :=
  if p.isAbsolute then [] else workingDirectory

/-- What a path leads to. -/
def resolve (t : FileTree) (workingDirectory : Location) (p : Path) :
    Except FileFault (Location × Node) :=
  match pathFault? p with
  | some fault => .error fault
  | none => do
    let place ← t.follow (startOf workingDirectory p) p.segments
    match t.node? place with
    | some node => .ok (place, node)
    | none => .error .notFound

def pathExists (t : FileTree) (workingDirectory : Location) (p : Path) : Bool :=
  (t.resolve workingDirectory p).toOption.isSome

def isDirectory (t : FileTree) (workingDirectory : Location) (p : Path) : Bool :=
  (t.resolve workingDirectory p).toOption.any fun e => e.2 = .directory

/-- Where the last name of a path would be put. A path that ends by leading nowhere new gives no
name; the flag says whether slashes follow the name. -/
def placeForNew (t : FileTree) (workingDirectory : Location) (p : Path) :
    Except FileFault (Option (Location × Bool)) :=
  match pathFault? p with
  | some fault => .error fault
  | none => do
    let segments := (p.segments.reverse.dropWhile List.isEmpty).reverse
    match segments.getLast? with
    | none => .ok none
    | some last =>
      let above ← t.follow (startOf workingDirectory p) segments.dropLast
      let place ← t.step above last
      if Path.isIdle last ∨ Path.isUp last then .ok none
      else .ok (some (place, decide (segments.length < p.segments.length)))

/-- Write a file, instead of one that is there. A directory cannot be written, nor a path that can
only name one. -/
def write (t : FileTree) (workingDirectory : Location) (p : Path) (content : Bytes) :
    Except FileFault FileTree := do
  match ← t.placeForNew workingDirectory p with
  | none => .error .isADirectory
  | some (place, slashes) =>
    if slashes ∨ t.node? place = some .directory then .error .isADirectory
    else .ok (t.put place (.file content))

/-- Make a directory where nothing is yet. -/
def makeDirectory (t : FileTree) (workingDirectory : Location) (p : Path) :
    Except FileFault FileTree := do
  match ← t.placeForNew workingDirectory p with
  | none => .error .alreadyThere
  | some (place, _) =>
    if (t.node? place).isSome then .error .alreadyThere
    else .ok (t.put place .directory)

/-- Make the first directory of a list. Where that needs the one after it, that one is made before.
A directory that is there already is as good as one that was made. What was made on the way stays,
even if the last step fails. -/
def makeChain (workingDirectory : Location) : List Path → FileTree → FileTree × Option FileFault
  | [], t => (t, some (.other "failed to create whole tree"))
  | p :: above, t =>
    if p.isEmpty then (t, none)
    else
      match t.makeDirectory workingDirectory p with
      | .ok made => (made, none)
      | .error .notFound =>
        match makeChain workingDirectory above t with
        | (made, some fault) => (made, some fault)
        | (made, none) =>
          match made.makeDirectory workingDirectory p with
          | .ok both => (both, none)
          | .error fault =>
            if made.isDirectory workingDirectory p then (made, none) else (made, some fault)
      | .error fault => if t.isDirectory workingDirectory p then (t, none) else (t, some fault)

/-- Make a directory and all that is missing above it. -/
def makeDirectories (t : FileTree) (workingDirectory : Location) (p : Path) :
    FileTree × Option FileFault :=
  makeChain workingDirectory p.ancestors t

end FileTree

end ContentionChart
