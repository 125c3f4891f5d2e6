import SchemaModules.Boundary.Basic

/-!
# Declarations of modules

A declaration is what a user writes to set the boundary of a module. Its paths are relative to the
workspace; `Declaration.toBoundary` checks them, takes them relative to the module and sorts them to
the roots they belong to.
-/

namespace SchemaModules

/-- A module as a user declares it. -/
structure Declaration where
  version : FileVersion
  path : Option String
  name : Option String
  roots : Option (List String)
  includes : List String
  excludes : List String
  deriving DecidableEq, Repr

namespace Declaration

/-- The first field of a declaration that its version does not have. -/
def unsupportedField? (d : Declaration) : Option VersionedField :=
  if d.path.isSome ∧ !d.version.allowsDirPath then some .path
  else if d.roots.isSome ∧ d.version ≠ .v1beta1 then some .roots
  else if d.includes ≠ [] ∧ d.version ≠ .v2 then some .includes
  else none

/-- A path of the workspace as seen from the directory of the module, in which it must lie. -/
def fromDirectory (dirPath name path : String) : Except BoundaryError String :=
  if Path.contains dirPath path .relative then (Path.relative dirPath path).mapError .path
  else .error (.placement (.outsideRoot name path dirPath))

/-- A list of paths of the workspace as seen from the directory of the module. -/
def listFromDirectory (dirPath name : String) (paths : List String) :
    Except BoundaryError (List String) := do
  let paths ← Boundary.normalizeList name paths
  if dirPath = "." then return paths
  paths.mapM (fromDirectory dirPath name)

/-- The roots of a declaration in ascending order; the top alone if it names none. -/
def normalizedRoots (d : Declaration) : Except BoundaryError (List String) :=
  match d.roots with
  | some (root :: roots) => Boundary.normalizeList "root" (root :: roots)
  | _ => .ok ["."]

/-- Put a path to the first root that contains it. -/
def assign (name : String) (assigned : RootPaths) (path : String) :
    Except BoundaryError RootPaths :=
  match assigned.keys.find? fun root => Path.contains root path .relative with
  | some root => .ok (assigned.insert root ((assigned.find? root).getD [] ++ [path]))
  | none => .error (.placement (.outsideRoot name path (", ".intercalate assigned.keys)))

/-- Put every path to the root that contains it. -/
def assignAll (name : String) (roots paths : List String) : Except BoundaryError RootPaths :=
  paths.foldlM (assign name) (SortedMap.ofList (roots.map fun root => (root, [])))

/-- The boundary that a declaration stands for. -/
def toBoundary (d : Declaration) : Except BoundaryError Boundary := do
  let fullName ← (d.name.mapM FullName.parse).mapError .identifier
  if let some field := d.unsupportedField? then
    throw (.unsupported field d.version)
  let dirPath ← (Path.validate (d.path.getD ".")).mapError .path
  let includes ← listFromDirectory dirPath "include" d.includes
  let excludes ← listFromDirectory dirPath "exclude" d.excludes
  let roots ← d.normalizedRoots
  let includes ← assignAll "include" roots includes
  let excludes ← assignAll "exclude" roots excludes
  Boundary.make d.version dirPath fullName includes excludes

end Declaration

end SchemaModules
