import ElCarro.Pitr.Log

/-! # Cloud storage of the PITR agent

Replicas, hash records and the catalog are objects of one storage service. A call
may fail without effect, or take effect and still report an error to the caller.
-/

namespace ElCarro.Pitr

def gsPrefix : String := "gs://"

/-- `splitURI`: the bucket and the name of an object. -/
def splitURI (url : String) : Except String (String × String) :=
  if gsPrefix.toList <+: url.toList then
    let u := url.toList.drop gsPrefix.toList.length
    let bucket := u.takeWhile (· ≠ '/')
    match u.dropWhile (· ≠ '/') with
    | _ :: name =>
      if 2 ≤ (bucket.map Char.utf8Size).sum then .ok (String.ofList bucket, String.ofList name)
      else .error ("URL \"" ++ url ++ "\" does not specify a bucket and a name")
    | [] => .error ("URL \"" ++ url ++ "\" does not specify a bucket and a name")
  else .error ("URL \"" ++ url ++ "\" is missing the \"" ++ gsPrefix ++ "\" prefix")

/-- Content of an object: a copied log, or one of the two kinds of encoded records. -/
inductive Object where
  | log (crc32c : String)
  | hash (entry : LogHashEntry)
  | catalog (metadata : LogMetadata)
  deriving DecidableEq

abbrev Objects := Finmap fun _ : String × String => Object

/-- What becomes of a storage call. -/
inductive CallResult where
  | ok
  | failed
  /-- The call took effect, but the caller sees an error. -/
  | lost
  deriving DecidableEq

namespace CallResult

def Effective (r : CallResult) : Prop := r ≠ .failed

instance (r : CallResult) : Decidable r.Effective := inferInstanceAs (Decidable (_ ≠ _))

end CallResult

namespace Objects

/-- The object under a URL. -/
def at? (objects : Objects) (url : String) : Option Object :=
  match splitURI url with
  | .ok key => objects.lookup key
  | .error _ => none

def Exists (objects : Objects) (url : String) : Prop := (objects.at? url).isSome

instance (objects : Objects) (url : String) : Decidable (objects.Exists url) :=
  inferInstanceAs (Decidable (_ = _))

/-- Write an object; the flag tells whether the caller sees success. -/
def write (objects : Objects) (url : String) (object : Object) (r : CallResult) :
    Objects × Bool :=
  match splitURI url with
  | .error _ => (objects, false)
  | .ok key => (if r.Effective then objects.insert key object else objects, r = .ok)

/-- Delete an object, where a missing one is no error. -/
def delete (objects : Objects) (url : String) (r : CallResult) : Objects × Bool :=
  match splitURI url with
  | .error _ => (objects, false)
  | .ok key => (if r.Effective then objects.erase key else objects, r = .ok)

end Objects

/-- A `SimpleStore` keeps its records under a directory. -/
structure SimpleStore where
  dataDir : String

namespace SimpleStore

variable (store : SimpleStore) (objects : Objects) (path : String)

def readHash : Option LogHashEntry :=
  match objects.at? (store.dataDir ++ path) with
  | some (.hash entry) => some entry
  | _ => none

def readCatalog : Option LogMetadata :=
  match objects.at? (store.dataDir ++ path) with
  | some (.catalog metadata) => some metadata
  | _ => none

def write (object : Object) (r : CallResult) : Objects × Bool :=
  objects.write (store.dataDir ++ path) object r

/-- Unlike the other operations this one takes the path as it is, without the directory. -/
def delete (_store : SimpleStore) (objects : Objects) (path : String) (r : CallResult) :
    Objects × Bool :=
  objects.delete path r

end SimpleStore

section

variable {objects : Objects} {url url' : String} {object : Object} {r : CallResult}

theorem exists_write_of_exists (h : objects.Exists url) :
    (objects.write url' object r).1.Exists url := by
  unfold Objects.write
  split
  · exact h
  · next key hkey =>
    dsimp only
    split
    · unfold Objects.Exists Objects.at? at h ⊢
      split at h
      · next key' hkey' =>
        by_cases hk : key' = key
        · subst hk
          rw [Finmap.lookup_insert]
          rfl
        · rwa [Finmap.lookup_insert_of_ne _ hk]
      · cases h
    · exact h

/-- A write changes no object but the one it names. -/
theorem at?_write {o : Object} (h : (objects.write url' object r).1.at? url = some o) :
    o = object ∨ objects.at? url = some o := by
  unfold Objects.write at h
  split at h
  · exact .inr h
  · next key hkey =>
    dsimp only at h
    split at h
    · unfold Objects.at? at h ⊢
      split at h
      · next key' hkey' =>
        by_cases hk : key' = key
        · subst hk
          rw [Finmap.lookup_insert] at h
          exact .inl (Option.some.inj h).symm
        · rw [Finmap.lookup_insert_of_ne _ hk] at h
          exact .inr h
      · cases h
    · exact .inr h

theorem delete_of_not_effective (h : ¬ r.Effective) : (objects.delete url r).1 = objects := by
  unfold Objects.delete
  split
  · rfl
  · simp [h]

theorem not_exists_delete (h : r.Effective) : ¬ (objects.delete url r).1.Exists url := by
  cases hkey : splitURI url with
  | error => simp [Objects.Exists, Objects.at?, hkey]
  | ok key => simp [Objects.delete, Objects.Exists, Objects.at?, hkey, h]

theorem readHash_eq_some {store : SimpleStore} {path : String} {entry : LogHashEntry}
    (h : store.readHash objects path = some entry) :
    objects.at? (store.dataDir ++ path) = some (.hash entry) := by
  unfold SimpleStore.readHash at h
  split at h
  · next heq =>
    rw [heq, ← Option.some.inj h]
  · cases h

theorem readCatalog_eq_some {store : SimpleStore} {path : String} {metadata : LogMetadata}
    (h : store.readCatalog objects path = some metadata) :
    objects.at? (store.dataDir ++ path) = some (.catalog metadata) := by
  unfold SimpleStore.readCatalog at h
  split at h
  · next heq =>
    rw [heq, ← Option.some.inj h]
  · cases h

end

end ElCarro.Pitr
