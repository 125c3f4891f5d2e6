import SchemaModules.Boundary.PathList
import SchemaModules.Identifier.FullName

/-!
# Boundaries of modules

A boundary says which files of a workspace make up a module: the directory of the module, the roots
below it that are searched for files, and for each root the directories to take files from and the
directories to leave out. `Boundary.make` builds a boundary from parts and checks it,
`Boundary.locate?` says where in the module a file belongs.
-/

namespace SchemaModules

/-- A directory to be searched for files, with the directories to take files from (all, if none are
given) and the directories to leave out. -/
structure Root where
  path : String
  includes : List String
  excludes : List String
  deriving DecidableEq, Repr

/-- The directories given for each root. -/
abbrev RootPaths := SortedMap String (List String)

/-- The files of a workspace that make up a module: the directories that each root takes files from,
and those that each root leaves out. Roots and directories are relative to the directory of the
module. In a boundary that was made both maps have the same roots. -/
structure Boundary where
  version : FileVersion
  dirPath : String
  fullName : Option FullName
  includesByRoot : RootPaths
  excludesByRoot : RootPaths
  deriving DecidableEq

namespace Root

/-- Whether a path lies strictly below a root. -/
def covers (root : Root) (path : String) : Bool :=
  Path.contains root.path path .relative

/-- Whether a path lies in a directory that a root takes files from. -/
def includesPath (root : Root) (path : String) : Bool :=
  root.includes.isEmpty || root.includes.any fun dir => Path.equalsOrContains dir path .relative

/-- Whether a path lies in a directory that a root leaves out. -/
def excludesPath (root : Root) (path : String) : Bool :=
  root.excludes.any fun dir => Path.equalsOrContains dir path .relative

/-- Check that neither the includes nor the excludes of a root lie within each other, and that all
of them lie within the root. -/
def check (root : Root) : Except PlacementError Unit := do
  Boundary.checkApart "include" root.includes
  Boundary.checkWithin root.path "include" root.includes
  Boundary.checkApart "exclude" root.excludes
  Boundary.checkWithin root.path "exclude" root.excludes

end Root

namespace Boundary

/-- The top as the only root, without any directories. -/
def topOnly : RootPaths := SortedMap.ofList [(".", [])]

/-- The whole workspace, with one root and no filters. -/
def whole (version : FileVersion) : Boundary := ⟨version, ".", none, topOnly, topOnly⟩

/-- The roots of the includes in ascending order, with the excludes that are given for them. -/
def rootsOf (includes excludes : RootPaths) : List Root :=
  includes.entries.map fun e => ⟨e.1, e.2, (excludes.find? e.1).getD []⟩

/-- The roots of a boundary in ascending order. -/
def roots (b : Boundary) : List Root := rootsOf b.includesByRoot b.excludesByRoot

/-- The same roots without any directories. -/
def withoutPaths (paths : RootPaths) : RootPaths := paths.mapValues fun _ _ => []

/-- Includes and excludes for the same roots, where one of them is left out: the other's roots
count, or the top alone if both are. -/
def completeRoots (includes excludes : RootPaths) : RootPaths × RootPaths :=
  match includes.entries.isEmpty, excludes.entries.isEmpty with
  | true, true => (topOnly, topOnly)
  | false, true => (includes, withoutPaths includes)
  | true, false => (withoutPaths excludes, excludes)
  | false, false => (includes, excludes)

/-- What is wrong with roots for a version, before their paths are looked at. -/
def shapeFault? (version : FileVersion) (includes excludes : RootPaths) : Option ShapeFault :=
  if includes.keys ≠ excludes.keys then some .differentRoots
  else if version.singleRoot ∧ excludes.size ≠ 1 then some (.rootCount excludes.size version)
  else if version.singleRoot ∧ !excludes.contains "." then some (.missingTopRoot version)
  else if version = .v1beta1 ∧ includes.entries.any (fun e => !e.2.isEmpty) then some .includes
  else none

/-- The normal forms of paths in ascending order, each once. -/
def normalizeSet (paths : List String) : Except PathError (List String) := do
  return SortedMap.sortedSet (← paths.mapM Path.validate)

/-- The normal forms of roots and of the directories given for each. -/
def normalizeRoots (paths : RootPaths) : Except PathError RootPaths :=
  paths.entries.foldlM (fun normalized e => do
    let root ← Path.validate e.1
    let directories ← normalizeSet e.2
    return normalized.insert root directories) SortedMap.empty

/-- The boundary of the given parts, brought into normal form. Parts that contradict each other or
the version are refused. -/
def make (version : FileVersion) (dirPath : String) (fullName : Option FullName)
    (includes excludes : RootPaths) : Except BoundaryError Boundary := do
  let dirPath ← (Path.validate dirPath).mapError .path
  if !version.allowsDirPath && dirPath ≠ "." then
    throw (.contradiction (.dirPath dirPath version))
  let (includes, excludes) := completeRoots includes excludes
  if let some fault := shapeFault? version includes excludes then
    throw (.contradiction fault)
  let included ← (normalizeRoots includes).mapError .path
  let excluded ← (normalizeRoots excludes).mapError .path
  if included.size ≠ includes.size then
    throw (.contradiction .duplicateRoots)
  (checkApart "root" included.keys).mapError fun e => .contradiction (.placement e)
  ((rootsOf included excluded).forM Root.check).mapError fun e => .contradiction (.placement e)
  return ⟨version, dirPath, fullName, included, excluded⟩

/-- Where a path lies within the first of the roots that covers it, if that root takes it in. -/
def locateAmong? (roots : List Root) (path : String) : Option String := do
  let path ← (Path.validate path).toOption
  let root ← roots.find? (·.covers path)
  if root.includesPath path && !root.excludesPath path then
    (Path.relative root.path path).toOption
  else none

/-- Where a file of the module's directory lies within its root, if the boundary takes it in. -/
def locate? (b : Boundary) (path : String) : Option String := locateAmong? b.roots path

/-- Whether a file of the module's directory lies in a directory that its root leaves out. -/
def isExcluded (b : Boundary) (path : String) : Bool :=
  match Path.validate path with
  | .ok path => b.excludesByRoot.entries.any fun (root, excludes) =>
      Path.contains root path .relative &&
        excludes.any fun dir => Path.equalsOrContains dir path .relative
  | .error _ => false

end Boundary

end SchemaModules
