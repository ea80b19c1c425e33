import RangeReader.Value.Written

/-!
# The identity of an object

An object is addressed by its bucket, its name and, where a particular
version is meant, its generation. Bucket and name are never empty. The
generation is kept as the caller wrote it: it becomes an integer only where
a request is described.

The short form of an identity is its `gs://` URL. The URL splits at the first
slash after the scheme, so it stands for one bucket and name only as long as
a bucket has no slash, which nothing here demands.
-/

namespace RangeReader

/-- Why a bucket and a name, or a URL, are no identity. -/
inductive ObjectIdFault where
  /-- The bucket is empty. -/
  | emptyBucket
  /-- The name is empty. -/
  | emptyName
  /-- The URL has another scheme. -/
  | wrongScheme (url : String)
  deriving DecidableEq, Repr

/-- The scheme of the URL of an object. -/
def gsScheme : String := "gs://"

/-- The message of a fault. -/
def ObjectIdFault.message : ObjectIdFault → String
  | .emptyBucket => "Bucket name must not be empty"
  | .emptyName => "Object name must not be empty"
  | .wrongScheme url => "Expected a '" ++ gsScheme ++ "' URL, got: '" ++ url ++ "'"

/-- **The identity of an object.** -/
structure ObjectId where
  /-- The bucket that holds the object. -/
  bucket : String
  /-- The name of the object in its bucket. -/
  name : String
  /-- The generation meant; null for the live version. -/
  generation : Value
  bucket_ne : bucket ≠ ""
  name_ne : name ≠ ""

namespace ObjectId

/-- The identity of a bucket, a name and a generation. -/
def make (bucket name : String) (generation : Value) : Except ObjectIdFault ObjectId :=
  if hb : bucket = "" then .error .emptyBucket
  else if hn : name = "" then .error .emptyName
  else .ok ⟨bucket, name, generation, hb, hn⟩

/-- The URL of an object, which leaves its generation out. -/
def gsUrl (o : ObjectId) : String := gsScheme ++ o.bucket ++ "/" ++ o.name

/-- A text split at its first slash, which is dropped; the second part is
empty where there is none. -/
def splitSlash (cs : List Char) : List Char × List Char :=
  (cs.takeWhile (· ≠ '/'), (cs.dropWhile (· ≠ '/')).drop 1)

/-- **The identity that a URL stands for.** -/
def ofGsUrl (url : String) (generation : Value) : Except ObjectIdFault ObjectId :=
  if gsScheme.toList.isPrefixOf url.toList then
    let (bucket, name) := splitSlash (url.toList.drop gsScheme.length)
    make (String.ofList bucket) (String.ofList name) generation
  else .error (.wrongScheme url)

/-- **An identity as text**: its URL, with the generation after a hash sign
where there is one. -/
def text (o : ObjectId) : String :=
  if o.generation.isNull then o.gsUrl else o.gsUrl ++ "#" ++ o.generation.plain

/-- Whether two identities are equal. -/
def same (a b : ObjectId) : Bool :=
  a.bucket == b.bucket && a.name == b.name && a.generation.same b.generation

end ObjectId

end RangeReader
