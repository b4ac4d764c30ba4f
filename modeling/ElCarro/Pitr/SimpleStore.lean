import ElCarro.Lib.FileMap
import ElCarro.Lib.SlashPath
import ElCarro.Pitr.Storage

/-! # A store of records in a directory

A store keeps encoded records below its directory, which lies in a bucket of the cloud
storage or in the file system. The file system has no symbolic links, so that a path names
the place that its cleaned form names. A record is read and written below the directory of
the store, but deleted at its path as it is.
-/

namespace ElCarro.PitrStore

open Pitr FileMap SlashPath

/-- Where an object can be. -/
inductive Place where
  | object (bucket name : String)
  | file (path : List (List Char))
  deriving DecidableEq

/-- The objects of the cloud storage and the files of the agent. -/
structure Storage (β : Type*) where
  objects : Finmap fun _ : String × String => β
  files : Files (List Char) β

/-- The content of the object at a place. -/
def Storage.content {β : Type*} (st : Storage β) : Place → Option β
  | .object bucket name => st.objects.lookup (bucket, name)
  | .file path => FileMap.content st.files path

section Paths

/-- The directory that a path starts from: the root, or the working directory. -/
def origin (cwd : List (List Char)) (path : String) : List (List Char) :=
  if path.toList.head? = some '/' then [] else cwd

/-- `filepath.Dir` of a path, followed from where the path starts. -/
def directory (cwd : List (List Char)) (path : String) : List (List Char) :=
  (reduce true (path.toList.splitOn '/').dropLast (origin cwd path).reverse).reverse

/-- The last part of a path. -/
def lastPart (path : String) : List Char := ((path.toList.splitOn '/').getLast?).getD []

/-- The path of a file, unless it ends in a slash or in dots. -/
def filePath (cwd : List (List Char)) (path : String) : Option (List (List Char)) :=
  if Plain (lastPart path) then some (directory cwd path ++ [lastPart path]) else none

end Paths

/-- `storageClient`. -/
inductive StorageClient where
  | gcs
  | fs
  deriving DecidableEq

namespace StorageClient

variable {β : Type*} (cwd : List (List Char))

/-- The place that a path stands for, with the working directory of the agent. -/
def locate (c : StorageClient) (path : String) : Option Place :=
  match c with
  | .gcs =>
    match splitURI path with
    | .ok key => some (.object key.1 key.2)
    | .error _ => none
  | .fs => (filePath cwd path).map .file

def read (c : StorageClient) (st : Storage β) (path : String) : Option β :=
  (c.locate cwd path).bind st.content

/-- `write` together with what is written: the directories of a file are made first. -/
def write (c : StorageClient) (st : Storage β) (path : String) (data : β) : Storage β × Bool :=
  match c with
  | .gcs =>
    match splitURI path with
    | .ok key => ({ st with objects := st.objects.insert key data }, true)
    | .error _ => (st, false)
  | .fs =>
    match mkdirAll st.files (directory cwd path) with
    | none => (st, false)
    | some files =>
      match (filePath cwd path).bind fun file => create files file data with
      | none => ({ st with files := files }, false)
      | some files => ({ st with files := files }, true)

/-- `os.Remove`. -/
def osRemove (files : Files (List Char) β) (path : String) : Removal (List Char) β :=
  if path = "" then .missing
  else match filePath cwd path with
    | some file => remove files file
    | none =>
      -- a path that ends in dots names a directory that cannot be removed by this name
      if lastPart path ≠ [] ∧ isDir files (directory cwd path) then .refused
      else rmdir files (directory cwd path)

def delete (c : StorageClient) (st : Storage β) (path : String) (ignoreNotExists : Bool) :
    Storage β × Bool :=
  match c with
  | .gcs =>
    match splitURI path with
    | .ok key => ({ st with objects := st.objects.erase key },
        ignoreNotExists || (st.objects.lookup key).isSome)
    | .error _ => (st, false)
  | .fs =>
    match osRemove cwd st.files path with
    | .removed files => ({ st with files := files }, true)
    | .missing => (st, ignoreNotExists)
    | .refused => (st, false)

/-- A deletion that does not mind a missing object, and may fail; the flag tells whether the caller
sees success. -/
def tryDelete (c : StorageClient) (st : Storage β) (path : String) (r : CallResult) :
    Storage β × Bool :=
  match r with
  | .ok => c.delete cwd st path true
  | .failed => (st, false)
  | .lost => ((c.delete cwd st path true).1, false)

end StorageClient

/-- The storage lets an object be written at a place: no file is on the way, and no directory. -/
def Accepts {β : Type*} (st : Storage β) : Place → Prop
  | .object _ _ => True
  | .file path => ¬ Blocked st.files path.dropLast ∧ ¬ isDir st.files path

section Client

variable {β : Type*} {cwd : List (List Char)} {c : StorageClient} {st : Storage β} {path : String}
  {data : β} {place : Place}

theorem content_insert_object {bucket name : String} :
    { st with objects := st.objects.insert (bucket, name) data : Storage β }.content =
      Function.update st.content (.object bucket name) (some data) := by
  ext1 place
  cases place with
  | file path => rfl
  | object bucket' name' =>
    by_cases hkey : (bucket', name') = (bucket, name)
    · cases hkey
      rw [Function.update_self]
      exact Finmap.lookup_insert _
    · rw [Function.update_of_ne (by simpa using hkey)]
      exact Finmap.lookup_insert_of_ne _ hkey

theorem content_erase_object {bucket name : String} :
    { st with objects := st.objects.erase (bucket, name) : Storage β }.content =
      Function.update st.content (.object bucket name) none := by
  ext1 place
  cases place with
  | file path => rfl
  | object bucket' name' =>
    by_cases hkey : (bucket', name') = (bucket, name)
    · cases hkey
      rw [Function.update_self]
      exact Finmap.lookup_erase _ _
    · rw [Function.update_of_ne (by simpa using hkey)]
      exact Finmap.lookup_erase_ne hkey

/-- A change of one file is a change at one place. -/
theorem content_files {files : Files (List Char) β} {path : List (List Char)} {value : Option β}
    (h : FileMap.content files = Function.update (FileMap.content st.files) path value) :
    { st with files := files : Storage β }.content =
      Function.update st.content (.file path) value := by
  ext1 place
  cases place with
  | object bucket name => rfl
  | file path' =>
    change FileMap.content files path' = _
    by_cases hpath : path' = path
    · subst hpath
      rw [h, Function.update_self, Function.update_self]
    · rw [h, Function.update_of_ne hpath, Function.update_of_ne (by simpa using hpath)]
      rfl

theorem content_files_eq {files : Files (List Char) β}
    (h : FileMap.content files = FileMap.content st.files) :
    { st with files := files : Storage β }.content = st.content := by
  ext1 place
  cases place with
  | object bucket name => rfl
  | file path => exact congrFun h path

theorem directory_of_filePath {file : List (List Char)} (h : filePath cwd path = some file) :
    ∃ name, file = directory cwd path ++ [name] := by
  unfold filePath at h
  split at h
  · exact ⟨_, (Option.some.inj h).symm⟩
  · cases h

/-- A write sets the content at its place, or shows nowhere. -/
theorem write_spec (cwd : List (List Char)) (c : StorageClient) (st : Storage β) (path : String)
    (data : β) :
    (∃ place, c.locate cwd path = some place ∧ Accepts st place ∧
        (c.write cwd st path data).2 = true ∧
        (c.write cwd st path data).1.content = Function.update st.content place (some data)) ∨
      (∀ place, c.locate cwd path = some place → ¬ Accepts st place) ∧
        (c.write cwd st path data).2 = false ∧
        (c.write cwd st path data).1.content = st.content := by
  unfold StorageClient.locate StorageClient.write
  cases c with
  | gcs =>
    dsimp only
    cases splitURI path with
    | error e => exact .inr ⟨by simp, rfl, rfl⟩
    | ok key => exact .inl ⟨_, rfl, trivial, rfl, content_insert_object⟩
  | fs =>
    dsimp only
    cases hmkdir : mkdirAll st.files (directory cwd path) with
    | none =>
      refine .inr ⟨?_, rfl, rfl⟩
      intro place hplace hok
      obtain ⟨file, hfile, rfl⟩ := Option.map_eq_some_iff.mp hplace
      obtain ⟨name, rfl⟩ := directory_of_filePath hfile
      have hblocked := mkdirAll_eq_none_iff.mp hmkdir
      exact hok.1 (by rwa [List.dropLast_concat])
    | some files =>
      have hblocked := (mkdirAll_eq_some hmkdir).1
      have hcontent := content_mkdirAll hmkdir
      dsimp only
      cases hfile : filePath cwd path with
      | none => exact .inr ⟨by simp, rfl, content_files_eq hcontent⟩
      | some file =>
        obtain ⟨name, rfl⟩ := directory_of_filePath hfile
        have hisDir := isDir_mkdirAll_below hmkdir name
        dsimp only [Option.bind_some, Option.map_some]
        cases hcreate : create files (directory cwd path ++ [name]) data with
        | none =>
          refine .inr ⟨?_, rfl, content_files_eq hcontent⟩
          rintro _ ⟨⟩ hok
          exact hok.2 (hisDir ▸ create_eq_none_iff.mp hcreate)
        | some files' =>
          have hset := content_create hcreate
          rw [hcontent] at hset
          refine .inl ⟨_, rfl, ⟨by rwa [List.dropLast_concat], ?_⟩, rfl, content_files hset⟩
          intro hdir
          rw [create_eq_none_iff.mpr (hisDir.trans hdir)] at hcreate
          cases hcreate

section Remove

variable {files files' : Files (List Char) β}

theorem filePath_empty : filePath cwd "" = none := by
  unfold filePath
  rw [if_neg]
  intro hplain
  exact hplain.ne_nil rfl

theorem osRemove_of_filePath {file : List (List Char)} (h : filePath cwd path = some file) :
    StorageClient.osRemove cwd files path = remove files file := by
  unfold StorageClient.osRemove
  rw [if_neg, h]
  rintro rfl
  rw [filePath_empty] at h
  cases h

/-- Only a directory can go with a path that names no file. -/
theorem content_osRemove_of_none (h : filePath cwd path = none)
    (hremoved : StorageClient.osRemove cwd files path = .removed files') :
    FileMap.content files' = FileMap.content files := by
  unfold StorageClient.osRemove at hremoved
  rw [h] at hremoved
  split at hremoved
  · cases hremoved
  · dsimp only at hremoved
    split at hremoved
    · cases hremoved
    · rw [content_rmdir hremoved, ← content_of_rmdir hremoved, Function.update_eq_self]

/-- A file that is there goes. -/
theorem content_of_not_removed {file : List (List Char)}
    (h : ∀ files', remove files file ≠ .removed files') : FileMap.content files file = none := by
  cases hcontent : FileMap.content files file with
  | none => rfl
  | some data => exact absurd (remove_of_content hcontent) (h _)

end Remove

/-- A deletion takes out the content at its place, or shows nowhere. -/
theorem delete_spec (cwd : List (List Char)) (c : StorageClient) (st : Storage β) (path : String) :
    (∃ place, c.locate cwd path = some place ∧ (c.delete cwd st path true).2 = true ∧
        (c.delete cwd st path true).1.content = Function.update st.content place none) ∨
      (∀ place, c.locate cwd path = some place → st.content place = none) ∧
        (c.delete cwd st path true).1.content = st.content := by
  unfold StorageClient.locate StorageClient.delete
  cases c with
  | gcs =>
    dsimp only
    cases splitURI path with
    | error e => exact .inr ⟨by simp, rfl⟩
    | ok key => exact .inl ⟨_, rfl, rfl, content_erase_object⟩
  | fs =>
    dsimp only
    cases hfile : filePath cwd path with
    | some file =>
      rw [osRemove_of_filePath hfile]
      cases hremove : remove st.files file with
      | removed files => exact .inl ⟨_, rfl, rfl, content_files (content_remove hremove)⟩
      | missing =>
        refine .inr ⟨?_, rfl⟩
        rintro _ ⟨⟩
        exact content_of_not_removed (by simp [hremove])
      | refused =>
        refine .inr ⟨?_, rfl⟩
        rintro _ ⟨⟩
        exact content_of_not_removed (by simp [hremove])
    | none =>
      refine .inr ⟨by simp, ?_⟩
      cases hremove : StorageClient.osRemove cwd st.files path with
      | removed files => exact content_files_eq (content_osRemove_of_none hfile hremove)
      | missing => rfl
      | refused => rfl

section Delete

variable {path' : String} {b : β}

/-- A deletion brings nothing back. -/
theorem content_of_content_delete (h : (c.delete cwd st path true).1.content place = some b) :
    st.content place = some b := by
  rcases delete_spec cwd c st path with ⟨place', -, -, hcontent⟩ | ⟨-, hcontent⟩
  · rw [hcontent] at h
    by_cases heq : place = place'
    · subst heq
      rw [Function.update_self] at h
      cases h
    · rwa [Function.update_of_ne heq] at h
  · rwa [hcontent] at h

/-- Nothing is left at the place of a deletion. -/
theorem content_delete_self (h : c.locate cwd path = some place) :
    (c.delete cwd st path true).1.content place = none := by
  rcases delete_spec cwd c st path with ⟨place', hplace', -, hcontent⟩ | ⟨hnone, hcontent⟩
  · obtain rfl := Option.some.inj (h.symm.trans hplace')
    rw [hcontent, Function.update_self]
  · rw [hcontent, hnone place h]

theorem content_delete_of_ne (h : c.locate cwd path ≠ some place) :
    (c.delete cwd st path true).1.content place = st.content place := by
  rcases delete_spec cwd c st path with ⟨place', hplace', -, hcontent⟩ | ⟨-, hcontent⟩
  · rw [hcontent, Function.update_of_ne]
    rintro rfl
    exact h hplace'
  · rw [hcontent]

/-- What is there can be deleted. -/
theorem delete_succeeds (hplace : c.locate cwd path = some place)
    (hb : st.content place = some b) : (c.delete cwd st path true).2 = true := by
  rcases delete_spec cwd c st path with ⟨-, -, hok, -⟩ | ⟨hnone, -⟩
  · exact hok
  · rw [hnone place hplace] at hb
    cases hb

variable {r : CallResult}

theorem content_of_content_tryDelete
    (h : (c.tryDelete cwd st path r).1.content place = some b) : st.content place = some b := by
  cases r with
  | failed => exact h
  | ok => exact content_of_content_delete h
  | lost => exact content_of_content_delete h

theorem content_tryDelete_of_ne (h : c.locate cwd path ≠ some place) :
    (c.tryDelete cwd st path r).1.content place = st.content place := by
  cases r with
  | failed => rfl
  | ok => exact content_delete_of_ne h
  | lost => exact content_delete_of_ne h

theorem tryDelete_succeeded (h : (c.tryDelete cwd st path r).2 = true) :
    r = .ok ∧ (c.delete cwd st path true).2 = true := by
  cases r with
  | ok => exact ⟨rfl, h⟩
  | failed => cases h
  | lost => cases h

end Delete

end Client

section Bucket

variable {cwd : List (List Char)} {st : Storage Object} {url : String}

/-- In a bucket the client does what the storage of the agent does. -/
theorem read_gcs : StorageClient.gcs.read cwd st url = Objects.at? st.objects url := by
  unfold StorageClient.read StorageClient.locate Objects.at?
  cases splitURI url with
  | error e => rfl
  | ok key => rfl

theorem write_gcs (object : Object) : StorageClient.gcs.write cwd st url object =
    ({ st with objects := (Objects.write st.objects url object .ok).1 },
      (Objects.write st.objects url object .ok).2) := by
  unfold StorageClient.write Objects.write
  cases splitURI url with
  | error e => rfl
  | ok key => rfl

theorem tryDelete_gcs (r : CallResult) : StorageClient.gcs.tryDelete cwd st url r =
    ({ st with objects := (Objects.delete st.objects url r).1 },
      (Objects.delete st.objects url r).2) := by
  unfold StorageClient.tryDelete StorageClient.delete Objects.delete
  cases splitURI url with
  | error e => cases r <;> rfl
  | ok key => cases r <;> rfl

end Bucket

/-- `gob`: values are encoded, and decoded over a value of the caller. A value that is decoded over
the zero value comes back as it was, and the end of the input is an error. -/
structure Codec (α β : Type*) where
  encode : α → β
  decode : α → β → Option α
  zero : α
  eof : β
  decode_encode : ∀ v, decode zero (encode v) = some v
  decode_eof : ∀ data, decode data eof = none

/-- What becomes of the calls of a write. -/
inductive WriteResult (β : Type*) where
  | ok
  /-- The object cannot be opened. -/
  | failed
  /-- The caller sees an error while encoding or closing, and the object is left with a content. -/
  | torn (data : β)

/-- `SimpleStore`. -/
structure SimpleStore where
  c : StorageClient
  dataDir : String
  deriving DecidableEq

/-- `NewSimpleStore`. -/
def newSimpleStore (dataDir : String) : SimpleStore where
  c := if gsPrefix.toList <+: dataDir.toList then .gcs else .fs
  dataDir := if ['/'] <:+ dataDir.toList then dataDir else dataDir ++ "/"

namespace SimpleStore

variable {α β : Type*} (codec : Codec α β) (cwd : List (List Char)) (s : SimpleStore)
  (st : Storage β) (path : String)

/-- The result of decoding over `data`. -/
def read (data : α) : Option α :=
  (s.c.read cwd st (s.dataDir ++ path)).bind (codec.decode data)

/-- The flag tells whether the caller sees success. -/
def write (v : α) (r : WriteResult β) : Storage β × Bool :=
  match r with
  | .ok => s.c.write cwd st (s.dataDir ++ path) (codec.encode v)
  | .failed => (st, false)
  | .torn data => ((s.c.write cwd st (s.dataDir ++ path) data).1, false)

/-- Unlike the other operations this one takes the path as it is, without the directory. -/
def delete (r : CallResult) : Storage β × Bool := s.c.tryDelete cwd st path r

/-- A value can be read under the path. -/
def Holds : Prop := ∃ data v, s.read codec cwd st path data = some v

end SimpleStore

section Laws

variable {α β : Type*} (codec : Codec α β) (cwd : List (List Char)) (s : SimpleStore)
  (st : Storage β) (p q : String) (v : α)

/-- The laws of a store, for a write and a deletion of one key and what is read under it and under
another key. -/
structure StoreLaws : Prop where
  read_write : ∀ r, (s.write codec cwd st p v r).2 = true →
    s.read codec cwd (s.write codec cwd st p v r).1 p codec.zero = some v
  read_delete : ∀ r data, (s.delete cwd st p r).2 = true →
    s.read codec cwd (s.delete cwd st p r).1 p data = none
  write_frame : q ≠ p → ∀ r data,
    s.read codec cwd (s.write codec cwd st p v r).1 q data = s.read codec cwd st q data
  delete_frame : q ≠ p → ∀ r data,
    s.read codec cwd (s.delete cwd st p r).1 q data = s.read codec cwd st q data
  delete_ok : s.Holds codec cwd st p → (s.delete cwd st p .ok).2 = true

/-- The path of a key by itself names the place of the key, unless nothing is stored under it, and
never the place of another key that something is stored under. No other key has the place of the
key, unless it cannot be written. -/
structure Placed : Prop where
  own : s.Holds codec cwd st p → s.c.locate cwd p = s.c.locate cwd (s.dataDir ++ p)
  other : q ≠ p → s.Holds codec cwd st q → s.c.locate cwd p ≠ s.c.locate cwd (s.dataDir ++ q)
  apart : q ≠ p → ∀ place ∈ s.c.locate cwd (s.dataDir ++ p), Accepts st place →
    s.c.locate cwd (s.dataDir ++ q) ≠ some place

variable {codec cwd s st p q v}

theorem read_eq_some {data w : α} (h : s.read codec cwd st p data = some w) :
    ∃ place b, s.c.locate cwd (s.dataDir ++ p) = some place ∧ st.content place = some b ∧
      codec.decode data b = some w := by
  obtain ⟨b, hb, hdecode⟩ := Option.bind_eq_some_iff.mp h
  obtain ⟨place, hplace, hcontent⟩ := Option.bind_eq_some_iff.mp hb
  exact ⟨place, b, hplace, hcontent, hdecode⟩

theorem read_of_locate {place : Place} {data : α}
    (h : s.c.locate cwd (s.dataDir ++ p) = some place) :
    s.read codec cwd st p data = (st.content place).bind (codec.decode data) := by
  unfold SimpleStore.read StorageClient.read
  rw [h, Option.bind_some]

/-- A read depends on the content at its place only. -/
theorem read_congr {st' : Storage β} {data : α}
    (h : ∀ place, s.c.locate cwd (s.dataDir ++ p) = some place →
      st'.content place = st.content place) :
    s.read codec cwd st' p data = s.read codec cwd st p data := by
  cases hplace : s.c.locate cwd (s.dataDir ++ p) with
  | none =>
    unfold SimpleStore.read StorageClient.read
    rw [hplace]
    rfl
  | some place => rw [read_of_locate hplace, read_of_locate hplace, h place hplace]

theorem write_succeeded {r : WriteResult β} (h : (s.write codec cwd st p v r).2 = true) :
    r = .ok := by
  cases r with
  | ok => rfl
  | failed => cases h
  | torn data => cases h

section

variable (codec cwd s st p v)

/-- A write changes nothing, or the content of its place if that can be written. -/
theorem content_write (r : WriteResult β) :
    (s.write codec cwd st p v r).1.content = st.content ∨
      ∃ place b, s.c.locate cwd (s.dataDir ++ p) = some place ∧ Accepts st place ∧
        (s.write codec cwd st p v r).1.content = Function.update st.content place (some b) := by
  have hspec : ∀ b, (s.c.write cwd st (s.dataDir ++ p) b).1.content = st.content ∨
      ∃ place b', s.c.locate cwd (s.dataDir ++ p) = some place ∧ Accepts st place ∧
        (s.c.write cwd st (s.dataDir ++ p) b).1.content =
          Function.update st.content place (some b') := by
    intro b
    rcases write_spec cwd s.c st (s.dataDir ++ p) b with
      ⟨place, hplace, haccepts, -, hcontent⟩ | ⟨-, -, hcontent⟩
    · exact .inr ⟨place, b, hplace, haccepts, hcontent⟩
    · exact .inl hcontent
  cases r with
  | failed => exact .inl rfl
  | ok => exact hspec (codec.encode v)
  | torn data => exact hspec data

end

/-- What can be read after a deletion could be read before. -/
theorem read_of_read_delete {r : CallResult} {data w : α}
    (h : s.read codec cwd (s.delete cwd st p r).1 q data = some w) :
    s.read codec cwd st q data = some w := by
  obtain ⟨place, b, hplace, hb, hdecode⟩ := read_eq_some h
  rw [read_of_locate hplace, content_of_content_tryDelete hb]
  exact hdecode

theorem Placed.storeLaws (h : Placed codec cwd s st p q) : StoreLaws codec cwd s st p q v where
  read_write r hok := by
    obtain rfl := write_succeeded hok
    rcases write_spec cwd s.c st (s.dataDir ++ p) (codec.encode v) with
      ⟨place, hplace, -, -, hcontent⟩ | ⟨-, hfalse, -⟩
    · rw [read_of_locate hplace]
      change ((s.c.write cwd st (s.dataDir ++ p) (codec.encode v)).1.content place).bind _ = _
      rw [hcontent, Function.update_self, Option.bind_some, codec.decode_encode]
    · change (s.c.write cwd st (s.dataDir ++ p) (codec.encode v)).2 = true at hok
      rw [hfalse] at hok
      cases hok
  read_delete r data hok := by
    obtain ⟨rfl, -⟩ := tryDelete_succeeded hok
    by_contra hne
    obtain ⟨w, hafter⟩ := Option.ne_none_iff_exists'.mp hne
    have hown := h.own ⟨data, w, read_of_read_delete hafter⟩
    obtain ⟨place, b, hplace, hb, -⟩ := read_eq_some hafter
    have hgone : (s.delete cwd st p .ok).1.content place = none :=
      content_delete_self (hown.trans hplace)
    rw [hgone] at hb
    cases hb
  write_frame hne r data := by
    apply read_congr
    intro place hplace
    rcases content_write codec cwd s st p v r with
      hcontent | ⟨place', b, hplace', haccepts, hcontent⟩
    · rw [hcontent]
    · rw [hcontent, Function.update_of_ne]
      rintro rfl
      exact h.apart hne place hplace' haccepts hplace
  delete_frame hne r data := by
    by_cases hholds : s.Holds codec cwd st q
    · apply read_congr
      intro place hplace
      apply content_tryDelete_of_ne
      intro hplace'
      exact h.other hne hholds (hplace'.trans hplace.symm)
    · -- nothing is stored under the key, and a deletion does not change that
      have hnone : ∀ w, s.read codec cwd st q data ≠ some w := fun w hw => hholds ⟨data, w, hw⟩
      rw [Option.eq_none_iff_forall_ne_some.mpr hnone]
      exact Option.eq_none_iff_forall_ne_some.mpr fun w hw => hnone w (read_of_read_delete hw)
  delete_ok := by
    rintro ⟨data, w, hw⟩
    obtain ⟨place, b, hplace, hb, -⟩ := read_eq_some hw
    exact delete_succeeds ((h.own ⟨data, w, hw⟩).trans hplace) hb

/-- If a record can be deleted, then at the place where it is. -/
theorem StoreLaws.own (h : StoreLaws codec cwd s st p q v) (hholds : s.Holds codec cwd st p) :
    s.c.locate cwd p = s.c.locate cwd (s.dataDir ++ p) := by
  have hok := h.delete_ok hholds
  obtain ⟨data, w, hw⟩ := hholds
  obtain ⟨place, b, hplace, hb, hdecode⟩ := read_eq_some hw
  have hgone := h.read_delete .ok data hok
  by_contra hne
  have hkept : (s.delete cwd st p .ok).1.content place = st.content place :=
    content_delete_of_ne fun heq => hne (heq.trans hplace.symm)
  rw [read_of_locate hplace, hkept, hb] at hgone
  exact absurd (hdecode.symm.trans hgone) (by simp)

theorem StoreLaws.other (h : StoreLaws codec cwd s st p q v) (hne : q ≠ p)
    (hholds : s.Holds codec cwd st q) :
    s.c.locate cwd p ≠ s.c.locate cwd (s.dataDir ++ q) := by
  intro heq
  obtain ⟨data, w, hw⟩ := hholds
  obtain ⟨place, b, hplace, hb, -⟩ := read_eq_some hw
  have hframe := h.delete_frame hne .ok data
  have hgone : (s.delete cwd st p .ok).1.content place = none :=
    content_delete_self (heq.trans hplace)
  rw [hw, read_of_locate hplace, hgone] at hframe
  cases hframe

theorem StoreLaws.apart (h : StoreLaws codec cwd s st p q v) (hne : q ≠ p) {place : Place}
    (hplace : s.c.locate cwd (s.dataDir ++ p) = some place) (haccepts : Accepts st place) :
    s.c.locate cwd (s.dataDir ++ q) ≠ some place := by
  intro hq
  have hafter : ∀ b, (s.c.write cwd st (s.dataDir ++ p) b).1.content place = some b := by
    intro b
    rcases write_spec cwd s.c st (s.dataDir ++ p) b with
      ⟨place', hplace', -, -, hcontent⟩ | ⟨hrefused, -, -⟩
    · obtain rfl := Option.some.inj (hplace.symm.trans hplace')
      rw [hcontent, Function.update_self]
    · exact absurd haccepts (hrefused place hplace)
  -- the other key takes the written value, but it is lost too if the write breaks off
  have hwritten := h.write_frame hne .ok codec.zero
  have htorn := h.write_frame hne (.torn codec.eof) codec.zero
  rw [read_of_locate hq] at hwritten htorn
  change ((s.c.write cwd st (s.dataDir ++ p) (codec.encode v)).1.content place).bind _ = _
    at hwritten
  change ((s.c.write cwd st (s.dataDir ++ p) codec.eof).1.content place).bind _ = _ at htorn
  rw [hafter, Option.bind_some, codec.decode_encode] at hwritten
  rw [hafter, Option.bind_some, codec.decode_eof] at htorn
  exact absurd (hwritten.trans htorn.symm) (by simp)

end Laws

section Counterexample

/-- The fields that are zero are left out of an encoded record, and stay as they are in the value
that it is decoded over. -/
def overlay (data e : LogHashEntry) : LogHashEntry where
  crc32cHash := if e.crc32cHash = "" then data.crc32cHash else e.crc32cHash
  replicaPath := if e.replicaPath = "" then data.replicaPath else e.replicaPath
  modTime := if e.modTime = 0 then data.modTime else e.modTime

/-- The codec of hash records. -/
def gobHash : Codec LogHashEntry (Option LogHashEntry) where
  encode := some
  decode data b := b.map (overlay data)
  zero := ⟨"", "", 0⟩
  eof := none
  decode_encode v := by
    obtain ⟨crc32cHash, replicaPath, modTime⟩ := v
    by_cases h₁ : crc32cHash = "" <;> by_cases h₂ : replicaPath = "" <;>
      by_cases h₃ : modTime = 0 <;> simp [overlay, h₁, h₂, h₃]
  decode_eof _ := rfl

def someRecord : LogHashEntry := ⟨"KZF/Mg==", "gs://bk/mydb/archivelog/2021_09_12/1_1.arc", 5⟩

def archivedLog : String := "/u03/app/archivelog/2021_09_12/1_1.arc"

/-- A store in a directory, with a record under the path of a log. -/
def hashFiles : Storage (Option LogHashEntry) :=
  ((newSimpleStore "/tmp/hash").write gobHash [] ⟨∅, ∅⟩ archivedLog someRecord .ok).1

/-- The same in a bucket. -/
def hashObjects : Storage (Option LogHashEntry) :=
  ((newSimpleStore "gs://bk/hash").write gobHash [] ⟨∅, ∅⟩ archivedLog someRecord .ok).1

end Counterexample

end ElCarro.PitrStore
