import Mathlib.Data.List.TakeWhile
import RangeReader.Proofs.Echo
import RangeReader.Proofs.ObjectUrl

/-!
# The short URL of an object

The short URL of an object keeps its bucket and its name as they are, with a
slash between them. A reader splits at the first slash, so what it finds has a
bucket without one, and its short URL is the one that was read: nothing of a URL
is lost, and no URL stands for two objects.

The other way round there is a condition. An object is read back from its URL
exactly if its bucket has no slash. Nothing demands that of a bucket, and one
that has a slash shares its URL with another object, or its URL is refused; what
the URL is read as follows from where the first slash of the bucket is
(`ofGsUrl_of_slash`). A name may have slashes anywhere.
-/

namespace RangeReader

namespace ObjectId

/-! ## The first slash -/

/-- **The parts of a text that is split.** The first one has no slash, and where
there is a second one they are all of the text but the slash between them. -/
theorem splitSlash_parts (cs : List Char) :
    '/' ∉ (splitSlash cs).1
      ∧ ((splitSlash cs).2 ≠ [] → cs = (splitSlash cs).1 ++ '/' :: (splitSlash cs).2) := by
  unfold splitSlash
  refine ⟨fun hmem => ?_, fun hne => ?_⟩
  · have hkept := List.mem_takeWhile_imp hmem
    simp at hkept
  · cases hrest : cs.dropWhile (· ≠ '/') with
    | nil =>
      rw [hrest] at hne
      exact absurd rfl hne
    | cons c rest =>
      have hslash : c = '/' := by
        have hhead := List.head?_dropWhile_not (· ≠ '/') cs
        rw [hrest] at hhead
        simpa using hhead
      show cs = cs.takeWhile (· ≠ '/') ++ '/' :: rest
      rw [hslash] at hrest
      rw [← hrest, List.takeWhile_append_dropWhile]

/-- What follows the scheme decides what a URL is read as. -/
theorem ofGsUrl_append (path : String) (generation : Value) :
    ofGsUrl (gsScheme ++ path) generation
      = make (String.ofList (splitSlash path.toList).1) (String.ofList (splitSlash path.toList).2)
        generation := by
  have hscheme : gsScheme.toList.isPrefixOf (gsScheme ++ path).toList = true := by
    rw [String.toList_append, List.isPrefixOf_iff_prefix]
    exact List.prefix_append _ _
  have hpath : (gsScheme ++ path).toList.drop gsScheme.length = path.toList := by
    rw [String.toList_append, ← String.length_toList, List.drop_left]
  unfold ofGsUrl
  rw [if_pos hscheme, hpath]

/-- **A path that is split in front of its second part** is read as the two. -/
theorem ofGsUrl_split {bucket : String} (h : '/' ∉ bucket.toList) (name : String)
    (generation : Value) :
    ofGsUrl (gsScheme ++ (bucket ++ "/" ++ name)) generation = make bucket name generation := by
  have hchars : (bucket ++ "/" ++ name).toList = bucket.toList ++ '/' :: name.toList := by
    rw [String.toList_append, String.toList_append, List.append_assoc]
    rfl
  rw [ofGsUrl_append, hchars, splitSlash_append h, String.ofList_toList, String.ofList_toList]

/-- The URL of an object has its path behind the scheme. -/
theorem gsUrl_eq (o : ObjectId) : o.gsUrl = gsScheme ++ (o.bucket ++ "/" ++ o.name) := by
  unfold gsUrl
  rw [String.append_assoc, String.append_assoc, String.append_assoc]

/-! ## Reading a URL back -/

/-- **The URL of an object whose bucket has no slash** is read as that bucket and
that name. -/
theorem ofGsUrl_gsUrl {o : ObjectId} (h : '/' ∉ o.bucket.toList) (generation : Value) :
    ofGsUrl o.gsUrl generation = make o.bucket o.name generation := by
  rw [gsUrl_eq, ofGsUrl_split h]

/-- **A slash in a bucket ends the bucket** that is read. -/
theorem ofGsUrl_of_slash {o : ObjectId} {first rest : String}
    (h : o.bucket = first ++ "/" ++ rest) (hfirst : '/' ∉ first.toList) (generation : Value) :
    ofGsUrl o.gsUrl generation = make first (rest ++ "/" ++ o.name) generation := by
  rw [← ofGsUrl_split hfirst, gsUrl_eq, h]
  simp only [String.append_assoc]

/-- **What is read from a URL has that URL**, and no slash in its bucket. -/
theorem ofGsUrl_eq_ok {url : String} {generation : Value} {o : ObjectId}
    (h : ofGsUrl url generation = .ok o) :
    o.gsUrl = url ∧ o.generation = generation ∧ '/' ∉ o.bucket.toList := by
  obtain ⟨path, rfl⟩ : ∃ path, url = gsScheme ++ path := by
    unfold ofGsUrl at h
    split at h
    · rename_i hscheme
      obtain ⟨cs, hcs⟩ := List.isPrefixOf_iff_prefix.mp hscheme
      exact ⟨String.ofList cs, String.toList_injective (by
        rw [String.toList_append, String.toList_ofList, hcs])⟩
    · cases h
  rw [ofGsUrl_append] at h
  obtain ⟨hbucket, hname, hgeneration⟩ := Checkpoint.make_eq_ok h
  obtain ⟨hslash, hparts⟩ := splitSlash_parts path.toList
  -- a name is not empty, so there was a slash
  have hsecond : (splitSlash path.toList).2 ≠ [] := by
    intro hnil
    rw [hnil] at hname
    exact o.name_ne hname
  refine ⟨?_, hgeneration, ?_⟩
  · rw [gsUrl_eq]
    refine congrArg (gsScheme ++ ·) (String.toList_injective ?_)
    refine Eq.trans ?_ (hparts hsecond).symm
    rw [String.toList_append, String.toList_append, List.append_assoc, hbucket, hname]
    simp only [String.toList_ofList]
    rfl
  · rw [hbucket, String.toList_ofList]
    exact hslash

end ObjectId

/-! ## The theorem -/

/-- **What the short URL of an object is read as.**

* It is read as the object itself if and only if the bucket of the object has no
  slash.
* Where it has one, the bucket that is read ends there and the rest belongs to the
  name; the URL is refused if nothing comes before the slash.
* Objects whose buckets have no slash have the same URL only if they have the same
  bucket and the same name.
* Any URL that is read, with any generation, is the URL of what is found. -/
theorem short_urls_read_back (o : ObjectId) :
    (ObjectId.ofGsUrl o.gsUrl o.generation = .ok o ↔ '/' ∉ o.bucket.toList)
      ∧ (∀ first rest : String, o.bucket = first ++ "/" ++ rest → '/' ∉ first.toList →
        ObjectId.ofGsUrl o.gsUrl o.generation
            = ObjectId.make first (rest ++ "/" ++ o.name) o.generation
          ∧ ((∃ found, ObjectId.ofGsUrl o.gsUrl o.generation = .ok found) ↔ first ≠ ""))
      ∧ (∀ other : ObjectId, '/' ∉ o.bucket.toList → '/' ∉ other.bucket.toList →
        (o.gsUrl = other.gsUrl ↔ o.bucket = other.bucket ∧ o.name = other.name))
      ∧ ∀ url generation found, ObjectId.ofGsUrl url generation = .ok found →
        found.gsUrl = url ∧ found.generation = generation := by
  have hself {object : ObjectId} (h : '/' ∉ object.bucket.toList) :
      ObjectId.ofGsUrl object.gsUrl object.generation = .ok object := by
    rw [ObjectId.ofGsUrl_gsUrl h, Checkpoint.make_self]
  refine ⟨⟨fun h => (ObjectId.ofGsUrl_eq_ok h).2.2, hself⟩, ?_, ?_, ?_⟩
  · intro first rest hbucket hfirst
    have hread := ObjectId.ofGsUrl_of_slash hbucket hfirst o.generation
    refine ⟨hread, ?_, fun hne => ?_⟩
    · rintro ⟨found, hfound⟩
      rw [hread] at hfound
      rw [← (Checkpoint.make_eq_ok hfound).1]
      exact found.bucket_ne
    · have hname : rest ++ "/" ++ o.name ≠ "" := by
        intro h
        have hlength := congrArg String.length h
        simp at hlength
      rw [hread]
      unfold ObjectId.make
      rw [dif_neg hne, dif_neg hname]
      exact ⟨_, rfl⟩
  · intro other hslash hslash'
    refine ⟨fun hsame => ?_, ?_⟩
    · -- one URL is read as one bucket and one name
      have hread := hself hslash
      rw [hsame, ObjectId.ofGsUrl_gsUrl hslash'] at hread
      obtain ⟨hbucket, hname, -⟩ := Checkpoint.make_eq_ok hread
      exact ⟨hbucket, hname⟩
    · rintro ⟨hbucket, hname⟩
      rw [ObjectId.gsUrl_eq, ObjectId.gsUrl_eq, hbucket, hname]
  · intro url generation found h
    obtain ⟨hurl, hgeneration, -⟩ := ObjectId.ofGsUrl_eq_ok h
    exact ⟨hurl, hgeneration⟩

/-- An object whose bucket has a slash. -/
def sampleSlashed : ObjectId := ⟨"a/b", "c", .null, by decide, by decide⟩

/-- An object whose name has a slash. -/
def sampleFolded : ObjectId := ⟨"a", "b/c", .null, by decide, by decide⟩

/-- **Not every object is read back from its short URL.** Two objects have one URL
if the slash of one is in its bucket, where the other has it in its name. -/
theorem short_url_shared :
    sampleSlashed.bucket ≠ sampleFolded.bucket ∧ sampleSlashed.gsUrl = sampleFolded.gsUrl
      ∧ ObjectId.ofGsUrl sampleSlashed.gsUrl sampleSlashed.generation = .ok sampleFolded
      ∧ ObjectId.ofGsUrl sampleSlashed.gsUrl sampleSlashed.generation ≠ .ok sampleSlashed := by
  have hread : ObjectId.ofGsUrl sampleSlashed.gsUrl sampleSlashed.generation = .ok sampleFolded :=
    rfl
  refine ⟨by decide, by decide, hread, fun h => ?_⟩
  rw [hread] at h
  have hbucket : sampleFolded.bucket = sampleSlashed.bucket :=
    congrArg ObjectId.bucket (Except.ok.inj h)
  exact absurd hbucket (by decide)

end RangeReader
