import Psiphon.Lib.Cut
import Mathlib.Data.List.DropRight

/-!
# The names of objects in S3

`psi_ops_s3.py` and `aws_helpers.py` make the key of an object from the id of a bucket and the name
of a file. The writers leave out the slash of an empty prefix and the readers do not.
-/

namespace Psiphon.Ops.S3

open List
open Cut (cut cut_append cut_eq_none_iff)

abbrev Text := List Char

/-- `bucket_id.strip('/')` -/
def stripSlashes (text : Text) : Text := (text.dropWhile (· = '/')).rdropWhile (· = '/')

def splitBucketId (bucketId : Text) : Text × Text :=
  let pieces := (stripSlashes bucketId).splitOn '/'
  (pieces.headD [], ['/'].intercalate pieces.tail)

def makeFullKeyName (keyPrefix keyName : Text) : Text :=
  if keyPrefix = [] then keyName else keyPrefix ++ '/' :: keyName

/-- The bucket and the key that are written. -/
def putStringToKeyInBucket (bucketId keyName : Text) : Text × Text :=
  let (bucketName, keyPrefix) := splitBucketId bucketId
  (bucketName, makeFullKeyName keyPrefix keyName)

/-- The target files of the builds, and the lists of servers that are given. -/
def downloadNames (builds : List Text) (remoteServerList remoteServerListCompressed : Bool) :
    List Text :=
  builds ++ (if remoteServerList then ["server_list".toList] else []) ++
    if remoteServerListCompressed then ["server_list_compressed".toList] else []

/-- The buckets and keys that are written for the names in turn. -/
def updateS3Download (builds : List Text) (remoteServerList remoteServerListCompressed : Bool)
    (bucketId : Text) : List (Text × Text) :=
  let (bucketName, keyPrefix) := splitBucketId bucketId
  (downloadNames builds remoteServerList remoteServerListCompressed).map fun name =>
    (bucketName, makeFullKeyName keyPrefix name)

/-- The bucket and the key that `get_s3_cached_file` and `get_s3_string` read. -/
def objectRead (bucketname bucketFilename : Text) : Text × Text :=
  let (bucketname, keyPrefix) := splitBucketId bucketname
  (bucketname, keyPrefix ++ '/' :: bucketFilename)

structure SplitResult where
  scheme : Text
  netloc : Text
  path : Text
  query : Text
  fragment : Text
  deriving DecidableEq

/-- `urlparse.urlsplit` of a URL with a scheme and a network location -/
def urlsplit (url : Text) : SplitResult :=
  let (scheme, rest) := (cut ':' url).getD ([], url)
  let rest := rest.drop 2
  let netloc := rest.takeWhile fun c => !(['/', '?', '#'].contains c)
  let (rest, fragment) := (cut '#' (rest.drop netloc.length)).getD (rest.drop netloc.length, [])
  let (path, query) := (cut '?' rest).getD (rest, [])
  ⟨scheme, netloc, path, query, fragment⟩

/-- The slashes around the id are not stripped: `strip` returns another string. -/
def getS3BucketSiteRoot (bucketId : Text) : Text := "https://s3.amazonaws.com/".toList ++ bucketId

def getS3BucketResourceUrlSplit (bucketId resourceName : Text) : SplitResult :=
  urlsplit (getS3BucketSiteRoot bucketId ++ '/' :: resourceName.dropWhile (· = '/'))

variable {bucketId name : Text}

theorem stripSlashes_eq (bucketId : Text) : stripSlashes bucketId =
    if (splitBucketId bucketId).2 = [] then (splitBucketId bucketId).1
    else (splitBucketId bucketId).1 ++ '/' :: (splitBucketId bucketId).2 := by
  have hj : ['/'].intercalate ((stripSlashes bucketId).splitOn '/') = stripSlashes bucketId :=
    intercalate_splitOn '/'
  have hl (b : Text) : stripSlashes bucketId ≠ b ++ ['/'] := by
    intro h
    have hne : stripSlashes bucketId ≠ [] := by simp [h]
    have hl : (stripSlashes bucketId).getLast hne = '/' := by simp [h]
    exact rdropWhile_last_not (· = '/') (bucketId.dropWhile (· = '/')) hne (decide_eq_true hl)
  rw [splitBucketId]
  cases hp : (stripSlashes bucketId).splitOn '/' with
  | nil => exact absurd hp (splitOn_ne_nil _ _)
  | cons first rest =>
    rw [hp] at hj
    cases rest with
    | nil => simpa [eq_comm] using hj
    | cons second rest =>
      have hne : ['/'].intercalate (second :: rest) ≠ [] := by
        intro hnil
        exact hl first (by simpa [hnil] using hj.symm)
      simpa [hne,eq_comm] using hj

theorem bucket_slash_key (bucketId name : Text) :
    (putStringToKeyInBucket bucketId name).1 ++ '/' :: (putStringToKeyInBucket bucketId name).2 =
      stripSlashes bucketId ++ '/' :: name := by
  rw [stripSlashes_eq]
  simp only [putStringToKeyInBucket,makeFullKeyName]
  split_ifs <;> simp

theorem path_getS3BucketResourceUrlSplit (hid : '?' ∉ bucketId ∧ '#' ∉ bucketId)
    (hn : '?' ∉ name ∧ '#' ∉ name) (hsl : name.head? ≠ some '/') :
    (getS3BucketResourceUrlSplit bucketId name).path = '/' :: bucketId ++ '/' :: name := by
  have hd : name.dropWhile (· = '/') = name := by
    cases name with
    | nil => rfl
    | cons c name => simpa using hsl
  have hs : cut ':' (getS3BucketSiteRoot bucketId ++ '/' :: name) =
      some ("https".toList,"//s3.amazonaws.com".toList ++ '/' :: bucketId ++ '/' :: name) :=
    cut_append (a := "https".toList) (by decide) _
  have hne : (("//s3.amazonaws.com".toList ++ '/' :: bucketId ++ '/' :: name).drop 2).takeWhile
      (fun c => !(['/','?','#'].contains c)) = "s3.amazonaws.com".toList := rfl
  have hp : (("//s3.amazonaws.com".toList ++ '/' :: bucketId ++ '/' :: name).drop 2).drop
      "s3.amazonaws.com".toList.length = '/' :: bucketId ++ '/' :: name := rfl
  have hf : cut '#' ('/' :: bucketId ++ '/' :: name) = none :=
    cut_eq_none_iff.mpr (by simp [hid.2,hn.2])
  have hq : cut '?' ('/' :: bucketId ++ '/' :: name) = none :=
    cut_eq_none_iff.mpr (by simp [hid.1,hn.1])
  simp only [getS3BucketResourceUrlSplit,hd,urlsplit,hs,Option.getD_some,hne,hp,
    hf,hq,Option.getD_none]

/-- For the file, the object is written by one of the two functions. -/
def Writes (bucketId name : Text) (object : Text × Text) : Prop :=
  object = putStringToKeyInBucket bucketId name ∨
    ∃ builds list compressed, ∃ i : ℕ, (downloadNames builds list compressed)[i]? = some name ∧
      (updateS3Download builds list compressed bucketId)[i]? = some object

theorem Writes.eq {o : Text × Text} (h : Writes bucketId name o) :
    o = putStringToKeyInBucket bucketId name := by
  rcases h with h | ⟨builds,list,compressed,i,hn,ho⟩
  · exact h
  · rw [updateS3Download,List.getElem?_map,hn,Option.map_some] at ho
    exact (Option.some.inj ho).symm

/-- The readers read what the writers write exactly when the id has a prefix, and the URL names it
exactly when the id has no slashes around it. -/
theorem same_object_iff (bucketId name : Text) (object : Text × Text)
    (hid : '?' ∉ bucketId ∧ '#' ∉ bucketId) (hname : '?' ∉ name ∧ '#' ∉ name)
    (hslash : name.head? ≠ some '/') (hwrites : Writes bucketId name object) :
    (objectRead bucketId name = object ↔ (splitBucketId bucketId).2 ≠ []) ∧
    ((getS3BucketResourceUrlSplit bucketId name).path = '/' :: object.1 ++ '/' :: object.2 ↔
      stripSlashes bucketId = bucketId) := by
  rw [hwrites.eq]
  constructor
  · simp only [objectRead,putStringToKeyInBucket,makeFullKeyName,Prod.mk.injEq,true_and]
    split_ifs with hn
    · simp [hn]
    · simpa using hn
  · rw [path_getS3BucketResourceUrlSplit hid hname hslash,cons_append,cons_append,
      List.cons.injEq,bucket_slash_key,append_cancel_right_eq]
    exact (and_iff_right rfl).trans eq_comm

theorem same_object_prefixed : objectRead "psiphon/web".toList "server_list".toList =
    putStringToKeyInBucket "psiphon/web".toList "server_list".toList :=
  (same_object_iff "psiphon/web".toList "server_list".toList _ (by decide) (by decide) (by decide)
    (.inl rfl)).1.mpr (by decide)

/-- In a bucket without a prefix the readers look for a key with a slash before the name, and a
slash after the id is doubled in the URL. -/
theorem other_object_read :
    putStringToKeyInBucket "bucket".toList "file".toList = ("bucket".toList, "file".toList) ∧
      objectRead "bucket".toList "file".toList = ("bucket".toList, "/file".toList) ∧
      (getS3BucketResourceUrlSplit "bucket/web/".toList "file".toList).path =
        "/bucket/web//file".toList := by
  decide

end Psiphon.Ops.S3
