import SchemaModules.Registry.Client
import SchemaModules.Identifier.CommitId

/-!
# What registries keep

The modules, labels, organizations and commits of all registries, and the operations on them. Ids
are handed out one after another from a counter that all of them share.

Most operations either succeed or leave everything as it is, which their type says. Moving labels
(`Store.moveLabels`) is done one after another, and those before a failing one stay moved.
-/

namespace SchemaModules

/-- Where a module is kept. -/
structure ModulePlace where
  registry : String
  owner : String
  name : String
  deriving DecidableEq, Repr

instance : Key ModulePlace where
  texts p := [p.registry, p.owner, p.name]
  texts_injective a b h := by
    cases a
    cases b
    simpa using h

/-- The place of a module on a registry. -/
def ModuleRef.on (registry : String) (r : ModuleRef) : ModulePlace := ⟨registry, r.owner, r.name⟩

/-- Where a label is kept. -/
structure LabelPlace where
  registry : String
  moduleId : String
  name : String
  deriving DecidableEq, Repr

instance : Key LabelPlace where
  texts p := [p.registry, p.moduleId, p.name]
  texts_injective a b h := by
    cases a
    cases b
    simpa using h

/-- Where an organization is kept. -/
structure OrganizationPlace where
  registry : String
  name : String
  deriving DecidableEq, Repr

instance : Key OrganizationPlace where
  texts p := [p.registry, p.name]
  texts_injective a b h := by
    cases a
    cases b
    simpa using h

/-- A commit as registries keep it. -/
structure StoredCommit where
  registry : String
  moduleId : String
  digest : Digest
  createTime : Int

/-- The content of all registries. -/
structure Store where
  modules : SortedMap ModulePlace RegistryModule
  /-- The id of the commit that each label points to. -/
  labels : SortedMap LabelPlace String
  organizations : SortedMap OrganizationPlace Organization
  commits : SortedMap String StoredCommit
  nextId : Nat

namespace Store

/-- The store with nothing in it. -/
def empty : Store :=
  ⟨SortedMap.empty, SortedMap.empty, SortedMap.empty, SortedMap.empty, 1⟩

/-- An id as text: thirty-two hexadecimal digits. -/
def idText (n : Nat) : String := String.ofList (Text.Hex.ofNat 32 n)

/-- The time from which commits are dated, in seconds since the epoch. -/
def baseTime : Int := 1700000000

/-- The first second of the first year that dates have, -262143. -/
def earliestTime : Int := -8334601228800

/-- The last second of the last year that dates have, 262142. -/
def latestTime : Int := 8210266876799

/-- The time of the commit of a number: so many seconds after the base, where the number counts as a
signed one of 64 bits. Where that is no date, it is the epoch. -/
def commitTime (n : Nat) : Int :=
  let time := baseTime + (Int64.ofNat n).toInt
  if earliestTime ≤ time ∧ time ≤ latestTime then time else 0

/-- Commits are a second apart, up to the last date. -/
theorem commitTime_of_le {n : Nat} (small : baseTime + n ≤ latestTime) :
    commitTime n = baseTime + n := by
  have same : (Int64.ofNat n).toInt = n := by
    rw [baseTime, latestTime] at small
    exact Int64.toInt_ofNat_of_lt (by omega)
  rw [commitTime, same]
  exact if_pos ⟨by rw [earliestTime, baseTime]; omega, small⟩

/-- A number that leads to no date is dated at the epoch. -/
example : commitTime (2 ^ 63) = 0 := by decide

/-- The store with a new module, over one at the same place. -/
def addModule (s : Store) (registry : String) (new : NewModule) : RegistryModule × Store :=
  let added : RegistryModule :=
    ⟨idText s.nextId, new.ref.owner, new.ref.name, new.visibility, new.defaultLabel, .active⟩
  (added, { s with
    modules := s.modules.insert (new.ref.on registry) added
    nextId := s.nextId + 1 })

/-- The store with new modules, one after another. -/
def addModules (registry : String) : List NewModule → Store → List RegistryModule × Store
  | [], s => ([], s)
  | new :: rest, s =>
      let (added, s) := s.addModule registry new
      let (more, s) := addModules registry rest s
      (added :: more, s)

/-- The store with a new commit of a module, which is dated by its id. -/
def addCommit (s : Store) (registry moduleId : String) (digest : Digest) : String × Store :=
  let id := idText s.nextId
  (id, { s with
    commits := s.commits.insert id ⟨registry, moduleId, digest, commitTime s.nextId⟩
    nextId := s.nextId + 1 })

/-- The store with a new organization, over one of the same name. -/
def addOrganization (s : Store) (registry name : String) : Organization × Store :=
  let added : Organization := ⟨idText s.nextId, name⟩
  (added, { s with
    organizations := s.organizations.insert ⟨registry, name⟩ added
    nextId := s.nextId + 1 })

/-- The store with a label that points to a commit. -/
def setLabel (s : Store) (registry moduleId commitId name : String) : Store :=
  { s with labels := s.labels.insert ⟨registry, moduleId, name⟩ commitId }

/-- The module of a reference. -/
def findModule (s : Store) (registry : String) (ref : ModuleRef) :
    Except RegistryError RegistryModule :=
  match s.modules.find? (ref.on registry) with
  | some found => .ok found
  | none => .error (.notFound ref.text)

/-- The commit that a label of a module points to, if the module has it. -/
def labelTarget? (s : Store) (registry : String) (ref : LabelRef) : Option String := do
  let found ← s.modules.find? (ref.module.on registry)
  s.labels.find? ⟨registry, found.id, ref.label⟩

/-- Create modules. If one of them exists, none is created. -/
def createModules (registry : String) (requests : List NewModule) (s : Store) :
    Except RegistryError (List RegistryModule × Store) :=
  match requests.find? fun new => s.modules.contains (new.ref.on registry) with
  | some existing => .error (.alreadyExists existing.ref.text)
  | none => .ok (addModules registry requests s)

/-- Get modules by reference. -/
def getModules (registry : String) (refs : List ModuleRef) (s : Store) :
    Except RegistryError (List RegistryModule) :=
  refs.mapM (s.findModule registry)

/-- Publish the content of a module in a new commit and place that on the labels of the content, or
on the default label if there are none. -/
def publish (s : Store) (registry : String) (content : UploadContent) (module : RegistryModule) :
    UploadedCommit × Store :=
  let digest := Digest.ofFiles content.files
  let createTime := commitTime s.nextId
  let (id, s) := s.addCommit registry module.id digest
  let labels := if content.labels = [] then [module.defaultLabel] else content.labels
  let s := labels.foldl (fun s label => s.setLabel registry module.id id label) s
  (⟨id, module.id, some digest.text, some createTime⟩, s)

/-- Publish contents one after another. -/
def publishAll (registry : String) :
    List (UploadContent × RegistryModule) → Store → List UploadedCommit × Store
  | [], s => ([], s)
  | (content, module) :: rest, s =>
      let (commit, s) := s.publish registry content module
      let (more, s) := publishAll registry rest s
      (commit :: more, s)

/-- Upload contents. If the module of one of them does not exist, nothing is published. -/
def upload (registry : String) (contents : List UploadContent) (s : Store) :
    Except RegistryError (List UploadedCommit × Store) := do
  let modules ← getModules registry (contents.map (·.ref)) s
  return publishAll registry (contents.zip modules) s

/-- Get labels by reference. -/
def getLabels (registry : String) (refs : List LabelRef) (s : Store) :
    Except RegistryError (List Label) :=
  refs.mapM fun ref =>
    match s.modules.find? (ref.module.on registry), s.labelTarget? registry ref with
    | some found, some commitId => .ok ⟨ref.label, found.id, commitId⟩
    | _, _ => .error (.notFound ref.text)

/-- Create a label or move it to a commit of its module. -/
def moveLabel (registry : String) (move : LabelMove) (s : Store) :
    Except RegistryError (Label × Store) := do
  let found ← s.findModule registry move.ref.module
  if (s.commits.find? move.commitId).any (·.moduleId = found.id) then
    return (⟨move.ref.label, found.id, move.commitId⟩,
      s.setLabel registry found.id move.commitId move.ref.label)
  else throw (.notFound move.commitId)

/-- Create or move labels one after another, up to the first that fails. -/
def moveLabels (registry : String) : List LabelMove → Call Store (List Label)
  | [], s => (.ok [], s)
  | move :: rest, s =>
      match moveLabel registry move s with
      | .error error => (.error error, s)
      | .ok (label, s) =>
          let (more, s) := moveLabels registry rest s
          (more.map (label :: ·), s)

/-- Set the state of a module. -/
def setModuleState (registry : String) (ref : ModuleRef) (state : ModuleState) (s : Store) :
    Except RegistryError (RegistryModule × Store) := do
  let found ← s.findModule registry ref
  let changed := { found with state := state }
  return (changed, { s with modules := s.modules.insert (ref.on registry) changed })

/-- Create an organization, unless there is one of its name. -/
def createOrganization (registry name : String) (s : Store) :
    Except RegistryError (Organization × Store) :=
  if s.organizations.contains ⟨registry, name⟩ then .error (.alreadyExists name)
  else .ok (s.addOrganization registry name)

/-- Delete an organization. -/
def deleteOrganization (registry name : String) (s : Store) :
    Except RegistryError (Unit × Store) :=
  if s.organizations.contains ⟨registry, name⟩ then
    .ok ((), { s with organizations := s.organizations.erase ⟨registry, name⟩ })
  else .error (.notFound name)

end Store

end SchemaModules
