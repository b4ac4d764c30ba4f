import ElCarro.Lib.SlashPath

/-! # Paths in cloud storage

A path names a bucket and the object names below it. The daemon takes paths apart in two
ways: as text, by `SplitURI`, and as URLs, where `url.Parse` decodes the path and `String`
encodes it again. Go strings are byte sequences, and so are the names here.
-/

namespace ElCarro.Gcs

open SlashPath

abbrev Bytes := List UInt8

instance : Alphabet UInt8 := ⟨47, 46, by decide⟩

/-- The bytes of a text in ASCII. -/
def ascii (s : String) : Bytes := s.toList.map fun c => c.toNat.toUInt8

def gsPrefix : Bytes := ascii "gs://"

/-- `SplitURI`: the bucket and the name of an object. -/
def splitURI (url : Bytes) : Except String (Bytes × Bytes) :=
  if gsPrefix <+: url then
    let u := url.drop gsPrefix.length
    let bucket := u.takeWhile (· ≠ 47)
    match u.dropWhile (· ≠ 47) with
    | _ :: name =>
      if 2 ≤ bucket.length then .ok (bucket, name)
      else .error "URL does not specify a bucket and a name"
    | [] => .error "URL does not specify a bucket and a name"
  else .error "URL is missing the \"gs://\" prefix"

section Escape

def isAlnum (b : UInt8) : Bool :=
  (97 ≤ b ∧ b ≤ 122) ∨ (65 ≤ b ∧ b ≤ 90) ∨ (48 ≤ b ∧ b ≤ 57)

/-- The bytes that `escape` leaves alone in a path. -/
def pathSafe (b : UInt8) : Bool := isAlnum b || b ∈ ascii "-_.~$&+,/:;=@"

/-- The bytes that `escape` leaves alone in a fragment. -/
def fragmentSafe (b : UInt8) : Bool := pathSafe b || b ∈ ascii "?!()*"

def upperhex (n : UInt8) : UInt8 := if n < 10 then 48 + n else 55 + n

def unhex (c : UInt8) : Option UInt8 :=
  if 48 ≤ c ∧ c ≤ 57 then some (c - 48)
  else if 97 ≤ c ∧ c ≤ 102 then some (c - 87)
  else if 65 ≤ c ∧ c ≤ 70 then some (c - 55)
  else none

def escapeByte (safe : UInt8 → Bool) (b : UInt8) : Bytes :=
  if safe b then [b] else [37, upperhex (b / 16), upperhex (b % 16)]

def escape (safe : UInt8 → Bool) (s : Bytes) : Bytes := s.flatMap (escapeByte safe)

/-- `unescape`, which accepts a percent sign only before two hexadecimal digits. -/
def unescape : Bytes → Option Bytes
  | [] => some []
  | 37 :: a :: b :: rest => do
    let high ← unhex a
    let low ← unhex b
    let decoded ← unescape rest
    some ((16 * high + low) :: decoded)
  | c :: rest => if c = 37 then none else (unescape rest).map (c :: ·)

/-- `validEncoded`. -/
def validEncoded (safe : UInt8 → Bool) (s : Bytes) : Bool :=
  s.all fun b => safe b || b ∈ ascii "!$&'()*+,;=:@[]%"

end Escape

/-- A path `gs://bucket/name`, with a bucket as the rules for bucket names allow it. -/
structure GcsPath where
  bucket : Bytes
  name : Bytes
  bucket_length : 3 ≤ bucket.length
  bucket_bytes : ∀ b ∈ bucket, isAlnum b ∨ b ∈ ascii "-_."
  deriving DecidableEq

/-- The path as the requests carry it. -/
def GcsPath.url (p : GcsPath) : Bytes := gsPrefix ++ p.bucket ++ 47 :: p.name

section Url

/-- What `url.Parse` finds behind the host. -/
structure Url where
  path : Bytes
  rawPath : Bytes
  forceQuery : Bool
  rawQuery : Bytes
  fragment : Bytes
  rawFragment : Bytes
  deriving DecidableEq

/-- A text up to the first occurrence of a byte, and what follows it. -/
def cut (c : UInt8) (s : Bytes) : Bytes × Bytes := (s.takeWhile (· ≠ c), (s.dropWhile (· ≠ c)).drop 1)

/-- The encoded form is kept as a hint when it is not the one that `escape` makes. -/
def hint (safe : UInt8 → Bool) (decoded raw : Bytes) : Bytes :=
  if escape safe decoded = raw then [] else raw

/-- `url.Parse` of a path; scheme and host of it need no decoding. -/
def parseUrl (p : GcsPath) : Except String Url :=
  let (u, frag) := cut 35 (47 :: p.name)
  if u.any fun b => b < 32 ∨ b = 127 then .error "net/url: invalid control character in URL"
  else
    let force := u.getLast? = some 63 ∧ u.count 63 = 1
    let (rest, query) := if force then (u.dropLast, []) else cut 63 u
    match unescape rest, unescape frag with
    | some path, some fragment =>
      .ok ⟨path, hint pathSafe path rest, force, query, fragment, hint fragmentSafe fragment frag⟩
    | _, _ => .error "invalid URL escape"

/-- `EscapedPath` and `EscapedFragment`: the hint is used while it fits. -/
def escaped (safe : UInt8 → Bool) (decoded raw : Bytes) : Bytes :=
  if raw ≠ [] ∧ validEncoded safe raw ∧ unescape raw = some decoded then raw
  else escape safe decoded

/-- `String` of a URL in the bucket, whose path starts with a slash. -/
def Url.text (u : Url) (bucket : Bytes) : Bytes :=
  gsPrefix ++ bucket ++ escaped pathSafe u.path u.rawPath ++
    (if u.forceQuery ∨ u.rawQuery ≠ [] then 63 :: u.rawQuery else []) ++
    (if u.fragment ≠ [] then 35 :: escaped fragmentSafe u.fragment u.rawFragment else [])

/-- The URL that `uploadDirectoryContentsToGCS` uploads a file to. -/
def gcsTarget (p : GcsPath) (relPath : Bytes) : Except String Bytes := do
  let u ← parseUrl p
  .ok ({ u with path := join u.path relPath }.text p.bucket)

end Url

theorem bkt_length : 3 ≤ (ascii "bkt").length := by decide

theorem bkt_bytes : ∀ b ∈ ascii "bkt", isAlnum b ∨ b ∈ ascii "-_." := by decide +kernel

example : (do
    let t ← gcsTarget ⟨ascii "bkt", ascii "dir/b1", bkt_length, bkt_bytes⟩ (ascii "id/a b.bkp")
    splitURI t) = .ok (ascii "bkt", ascii "dir/b1/id/a%20b.bkp") := by decide +kernel

end ElCarro.Gcs
