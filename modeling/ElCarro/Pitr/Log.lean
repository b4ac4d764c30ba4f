import Mathlib.Data.Finmap
import ElCarro.Lib.GoTime
import ElCarro.Api.Types

/-! # Catalog of the archived redo logs

One record tells where a log was replicated to, an entry of the catalog adds what
the database reports about the log. A log may be cleaned up when both its last
change and the date in its replica path lie before the expiration time.
-/

namespace ElCarro.Pitr

open GoTime K8s Api

structure LogHashEntry where
  crc32cHash : String
  /-- Empty for a log that was not replicated yet. -/
  replicaPath : String
  modTime : Time
  deriving DecidableEq

structure LogMetadataEntry extends LogHashEntry where
  srcPath : String
  firstChange : String
  nextChange : String
  firstTime : Time
  nextTime : Time
  completionTime : String
  sequence : String
  incarnation : String
  thread : String
  deriving DecidableEq

/-- `KeyToLogEntry`: entries under a key made of thread, incarnation and sequence. -/
abbrev LogMetadata := Finmap fun _ : String => LogMetadataEntry

section Paths

/-- `filepath.Clean` on the parts of a path, the last one kept first. -/
def cleanParts (rooted : Bool) : List (List Char) → List (List Char) → List (List Char)
  | [], kept => kept
  | part :: parts, kept =>
    if part = [] ∨ part = ['.'] then cleanParts rooted parts kept
    else if part = ['.', '.'] then
      match kept with
      | top :: rest =>
        if top = ['.', '.'] then cleanParts rooted parts (part :: kept)
        else cleanParts rooted parts rest
      | [] => if rooted then cleanParts rooted parts [] else cleanParts rooted parts [part]
    else cleanParts rooted parts (part :: kept)

/-- `filepath.Base(filepath.Dir(path))`. -/
def dirBase (path : String) : List Char :=
  let rooted := path.toList.head? = some '/'
  match cleanParts rooted (path.toList.splitOn '/').dropLast [] with
  | top :: _ => top
  | [] => if rooted then ['/'] else ['.']

def digit (c : Char) : Option Nat := if c.isDigit then some (c.toNat - '0'.toNat) else none

def number (cs : List Char) : Option Nat :=
  cs.foldlM (fun n c => (digit c).map (10 * n + ·)) 0

/-- `time.Parse` with the layout `2006_01_02`. -/
def parseDateDir : List Char → Option Time
  | [y₁, y₂, y₃, y₄, '_', m₁, m₂, '_', d₁, d₂] => do
    let year ← number [y₁, y₂, y₃, y₄]
    let month ← number [m₁, m₂]
    let dayOfMonth ← number [d₁, d₂]
    let length ← if 1 ≤ month then (monthLengths year)[month - 1]? else none
    if 1 ≤ dayOfMonth ∧ (dayOfMonth : Int) ≤ length then some (date year month dayOfMonth)
    else none
  | _ => none

end Paths

example : parseDateDir (dirBase "gs://test/mydb/archivelog/2021_09_13/o1_mf_1_1.arc") =
    some (date 2021 9 13) := by decide

/-- Midnight of the day that lies the given number of days back. -/
def expireTime (now : Time) (retentionDays : Int) : Time := (now / day - retentionDays) * day

/-- The check on the directory of a replica before it is deleted. -/
def checkDateDir (expire : Time) (replicaPath : String) : Except String Unit :=
  match parseDateDir (dirBase replicaPath) with
  | none => .error ("failed to parse time from dir " ++ String.ofList (dirBase replicaPath))
  | some t =>
    if t < expire then .ok ()
    else .error ("skip deletion, date in the path(\"" ++ replicaPath ++ "\") not expired")

/-- The log is cleaned up: its last change and its directory lie before the expiration time. -/
def Expired (expire : Time) (entry : LogMetadataEntry) : Prop :=
  entry.nextTime < expire ∧ checkDateDir expire entry.replicaPath = .ok ()

instance (expire : Time) (entry : LogMetadataEntry) : Decidable (Expired expire entry) :=
  inferInstanceAs (Decidable (_ ∧ _))

section Rows

/-- A row of the view of archived logs; a field that it lacks reads as empty. -/
abbrev Row := StrMap

def rowKey (row : Row) : String :=
  valueAt row "THREAD#" ++ "-" ++ valueAt row "INCARNATION#" ++ "-" ++ valueAt row "SEQUENCE#"

/-- The entry of a row before its replica is looked up; the times must be readable. -/
def rowEntry (parseTime : String → Option Time) (row : Row) : Option LogMetadataEntry := do
  let firstTime ← parseTime (valueAt row "FIRST_TIME")
  let nextTime ← parseTime (valueAt row "NEXT_TIME")
  some
    { crc32cHash := "", replicaPath := "", modTime := 0
      incarnation := valueAt row "INCARNATION#"
      sequence := valueAt row "SEQUENCE#"
      srcPath := valueAt row "NAME"
      firstTime := firstTime
      nextTime := nextTime
      firstChange := valueAt row "FIRST_CHANGE#"
      nextChange := valueAt row "NEXT_CHANGE#"
      completionTime := valueAt row "COMPLETION_TIME"
      thread := valueAt row "THREAD#" }

end Rows

end ElCarro.Pitr
