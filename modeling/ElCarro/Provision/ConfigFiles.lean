import ElCarro.Lib.Dialogue
import ElCarro.Lib.LinkedFiles
import ElCarro.Lib.SlashPath

/-! # Configuration files of a database

A database expects its server parameters and its password file in the home of the software,
which a restart of the container takes away. They are kept on the persistent disk, and the
names in the home are links. When a database is created, the files appear in the home, are
moved to the disk and linked.
-/

namespace ElCarro.Provision

open Dialogue LinkedFiles

section Names

abbrev Path := List Char

inductive ConfigFile where
  | spfile | initOra | orapw
  deriving DecidableEq, Repr

def ConfigFile.name (cdbName : String) : ConfigFile → String
  | .spfile => "spfile" ++ cdbName ++ ".ora"
  | .initOra => "init" ++ cdbName ++ ".ora"
  | .orapw => "orapw" ++ cdbName

/-- Where the software is installed and which database it runs. -/
structure Installation where
  oracleHome : String
  cdbName : String
  rooted : oracleHome.toList.head? = some '/'
  plain : SlashPath.Plain cdbName.toList
  /-- The home is not the place in which the configurations are kept. -/
  apart : (SlashPath.parse oracleHome.toList).parts ≠
    ["u02".toList, "app".toList, "oracle".toList, "oraconfig".toList]

variable (i : Installation)

def configDir : Path := ("/u02/app/oracle/oraconfig/" ++ i.cdbName).toList

def sourceConfigDir : Path := SlashPath.join i.oracleHome.toList "dbs".toList

/-- The name of a file in the home. -/
def link (f : ConfigFile) : Path := SlashPath.join (sourceConfigDir i) (f.name i.cdbName).toList

/-- The name of a file on the disk. -/
def file (f : ConfigFile) : Path := SlashPath.join (configDir i) (f.name i.cdbName).toList

/-- `filepath.Dir` -/
def dirOf (path : Path) : Path :=
  SlashPath.clean (path.reverse.dropWhile (· ≠ '/')).reverse

def unseededImageFile : Path := "/tmp/unseeded_image".toList

end Names

section Calls

/-- What the code asks of the operating system; `copy` goes from one open file to another. -/
inductive Call where
  | lstat (path : Path)
  | stat (path : Path)
  | remove (path : Path)
  | symlink (target path : Path)
  | mkdirAll (path : Path)
  | openFile (path : Path)
  | create (path : Path)
  | copy (source dest : Path)
  | createDotEnv (dbName : String)
  | runDbca (params : List String)
  deriving DecidableEq, Repr

/-- Whether there is a file; the file that was opened; or an error if there is one. -/
abbrev Answer : Call → Type
  | .lstat _ | .stat _ => Bool
  | .openFile _ | .create _ => Except String Path
  | _ => Option String

abbrev T := Talk Call Answer String

def ask (q : Call) : T (Answer q) := Talk.request q

def orFail (err : Option String) (text : String → String) : T Unit :=
  match err with
  | none => pure ()
  | some err => .fail (text err)

end Calls

section Functions

def moveFile (sourceFile destFile : Path) : T (Option String) := do
  match ← ask (.openFile sourceFile) with
  | .error err => pure (some ("couldn't open source file: " ++ err))
  | .ok inputFile =>
    match ← ask (.create destFile) with
    | .error err => pure (some ("couldn't open dest file: " ++ err))
    | .ok outputFile =>
      match ← ask (.copy inputFile outputFile) with
      | some err => pure (some ("writing to output file failed: " ++ err))
      | none => ask (.remove sourceFile)

variable (i : Installation)

def moveEach : List ConfigFile → T (Option String)
  | [] => pure none
  | f :: fs => do
    let sf := link i f
    let tf := file i f
    let tfDir := dirOf tf
    match ← ask (.mkdirAll tfDir) with
    | some err =>
      pure (some ("MoveConfigFiles: failed to create dir " ++ String.ofList tfDir ++ ": " ++ err))
    | none =>
      match ← moveFile sf tf with
      | some err =>
        pure (some ("MoveConfigFiles: move config file " ++ String.ofList sf ++ " to " ++
          String.ofList tf ++ " failed: " ++ err))
      | none => moveEach fs

def moveConfigFiles : T (Option String) := moveEach i [.spfile, .orapw]

/-- The files are a map, which is visited in any order. -/
def removeConfigFileLinks : List ConfigFile → T (Option String)
  | [] => pure none
  | f :: fs => do
    if ← ask (.lstat (link i f)) then
      match ← ask (.remove (link i f)) with
      | some err =>
        pure (some ("RemoveConfigFileLinks: unable to delete existing link " ++
          String.ofList (link i f) ++ ": " ++ err))
      | none => removeConfigFileLinks fs
    else removeConfigFileLinks fs

def linkEach : List ConfigFile → T (Option String)
  | [] => pure none
  | f :: fs => do
    match ← ask (.symlink (file i f) (link i f)) with
    | some err =>
      pure (some ("RelinkConfigFiles: symlink creation failed from " ++ String.ofList (link i f) ++
        " to oracle directories " ++ String.ofList (file i f) ++ ": " ++ err))
    | none => linkEach fs

/-- The map is built twice, and may be visited in another order the second time. -/
def relinkConfigFiles (order order' : List ConfigFile) : T (Option String) := do
  match ← removeConfigFileLinks i order with
  | some err => pure (some ("RelinkConfigFiles: unable to delete existing links: " ++ err))
  | none => linkEach i order'

/-- The bootstrap task asks whether there is a file, not whether there is the name. -/
def removeExisting (f : ConfigFile) : T Unit := do
  if ← ask (.stat (link i f)) then
    orFail (← ask (.remove (link i f))) fun err =>
      "relinkConfigFiles: unable to delete existing file " ++ f.name i.cdbName ++ ": " ++ err
  else pure ()

def relinkEach : List ConfigFile → T Unit
  | [] => pure ()
  | f :: fs => do
    removeExisting i f
    orFail (← ask (.symlink (file i f) (link i f))) fun err =>
      "relinkConfigFiles: symlink creation failed for " ++ f.name i.cdbName ++
        " to oracle directories: " ++ err
    relinkEach fs

/-- `relinkConfigFiles` of the bootstrap task, which has no link for the initial parameters. -/
def bootstrapRelinkConfigFiles : T Unit := relinkEach i [.spfile, .orapw]

/-- In which order each of the loops over the files goes. -/
structure Orders where
  first : List ConfigFile
  second : List ConfigFile
  third : List ConfigFile
  all : ∀ f, f ∈ first ∧ f ∈ second ∧ f ∈ third
  nodup : third.Nodup

def proxyRunDbca (o : Orders) (params : List String) : T Unit := do
  orFail (← removeConfigFileLinks i o.first) id
  orFail (← ask (.runDbca params)) fun err => "dbca cmd failed: " ++ err
  orFail (← ask (.createDotEnv i.cdbName)) id
  orFail (← moveConfigFiles i) id
  orFail (← relinkConfigFiles i o.second o.third) id

/-- `New`: a server starts with links when the image has no database of its own. -/
def new (o : Orders) : T Unit := do
  orFail (← ask (.createDotEnv i.cdbName)) fun err =>
    "an error occured while initializing the environment for Oracle: " ++ err
  if ← ask (.stat unseededImageFile) then
    orFail (← relinkConfigFiles i o.second o.third) id
  else pure ()

end Functions

end ElCarro.Provision
