import VoxForge.Core.Text
import VoxForge.Core.Uuid
import VoxForge.Foundation.Bytes
import VoxForge.Foundation.Dict
import VoxForge.Foundation.Paths

/-! The keys under which uploads are stored, and the files they denote. -/
namespace VoxForge.Knowledge
open Foundation VoxForge.Core

/-- `os.path.basename`: what follows the last slash. -/
def basename (path : List Char) : List Char := path.rtakeWhile (· ≠ '/')

def safeUploadFilename (filename : String) : String :=
  let name := strip (String.ofList (basename (filename.toList.map fun c => if c = '\\' then '/' else c)))
  if name = "" ∨ name ∈ [".",".."] then "document.txt"
  else String.ofList (name.toList.take 255)

/-- The key that `upload_document` builds. -/
def blobKey (orgId documentId versionNumber : Nat) (filename : String) : String :=
  uuidText orgId ++ "/" ++ uuidText documentId ++ "/v" ++ toString versionNumber ++ "/" ++ filename

/-- Files by their paths. -/
abbrev FileSystem := Dict Path Bytes

/-- A blob store with its root directory. -/
structure FilesystemBlobStore where
  root : Path
  files : FileSystem

inductive BlobError where
  | fileNotFound
  deriving DecidableEq, Repr

namespace FilesystemBlobStore

def path (store : FilesystemBlobStore) (key : String) : Path := store.root.join key.toList

def put (store : FilesystemBlobStore) (key : String) (data : Bytes) : FilesystemBlobStore :=
  { store with files := store.files.set (store.path key) data }

def get (store : FilesystemBlobStore) (key : String) : Except BlobError Bytes :=
  match store.files.get? (store.path key) with
  | some data => .ok data
  | none => .error .fileNotFound

def exists? (store : FilesystemBlobStore) (key : String) : Bool := (store.files.get? (store.path key)).isSome

def delete (store : FilesystemBlobStore) (key : String) : FilesystemBlobStore :=
  if store.exists? key then { store with files := store.files.pop (store.path key) } else store

end FilesystemBlobStore

/-- A call that changes the store. -/
inductive BlobCall where
  | put (key : String) (data : Bytes)
  | delete (key : String)
  deriving DecidableEq, Repr

def BlobCall.key : BlobCall → String
  | .put key _ | .delete key => key

def FilesystemBlobStore.perform (store : FilesystemBlobStore) : BlobCall → FilesystemBlobStore
  | .put key data => store.put key data
  | .delete key => store.delete key

/-- What was put last under a key and not deleted since. -/
def lastPut (before : Option Bytes) (calls : List BlobCall) (key : String) : Option Bytes :=
  calls.foldl (fun last call => match call with
    | .put k data => if k = key then some data else last
    | .delete k => if k = key then none else last) before

/-! One file name -/

theorem mem_of_mem_strip {s : String} {c : Char} (h : c ∈ (strip s).toList) : c ∈ s.toList := by
  rw [strip,String.toList_ofList] at h
  exact List.dropWhile_subset _ ((List.rdropWhile_prefix isSpace _).subset h)

/-- A safe file name is one component that stands for itself. -/
theorem ordinary_safeUploadFilename (filename : String) : Path.Ordinary (safeUploadFilename filename).toList := by
  unfold safeUploadFilename
  dsimp only
  generalize hname : strip (String.ofList (basename (filename.toList.map fun c => if c = '\\' then '/' else c))) = name
  have hslash : '/' ∉ name.toList := by
    intro h
    rw [← hname] at h
    have hbase := mem_of_mem_strip h
    rw [String.toList_ofList] at hbase
    simpa using List.mem_rtakeWhile_imp hbase
  split
  · exact ⟨by decide,by decide,by decide,by decide⟩
  · next h =>
    obtain ⟨hne,hdots⟩ := not_or.mp h
    rw [String.toList_ofList]
    have hchars : ∀ text : String, name ≠ text → name.toList ≠ text.toList := fun text hdiff heq =>
      hdiff (String.toList_inj.mp heq)
    -- cutting leaves a short name alone, and no long one is cut to dots
    have hcut : ∀ text : List Char, text.length ≤ 2 → name.toList ≠ text → name.toList.take 255 ≠ text := by
      rintro text hlen hdiff rfl
      rw [List.length_take] at hlen
      exact hdiff (List.take_of_length_le (by omega)).symm
    refine ⟨hcut [] (by decide) (hchars "" hne),hcut ['.'] (by decide) (hchars "." ?_),
      hcut ['.','.'] (by decide) (hchars ".." ?_),fun hmem => hslash (List.mem_of_mem_take hmem)⟩
    · rintro rfl
      exact hdots (List.mem_cons_self ..)
    · rintro rfl
      exact hdots (List.mem_cons_of_mem _ (List.mem_cons_self ..))

/-! Keys -/

def keyParts (orgId documentId versionNumber : Nat) (filename : String) : List (List Char) :=
  [(uuidText orgId).toList,(uuidText documentId).toList,'v' :: (toString versionNumber).toList,filename.toList]

theorem toList_blobKey (orgId documentId versionNumber : Nat) (filename : String) :
    (blobKey orgId documentId versionNumber filename).toList =
      ['/'].intercalate (keyParts orgId documentId versionNumber filename) := by
  simp [blobKey,keyParts,List.intercalate,List.intersperse]

theorem ordinary_of_chars {part : List Char} (hne : part ≠ []) (hdot : '.' ∉ part) (hslash : '/' ∉ part) :
    Path.Ordinary part where
  ne_nil := hne
  ne_dot := by rintro rfl; exact hdot (List.mem_cons_self ..)
  ne_dots := by rintro rfl; exact hdot (List.mem_cons_self ..)
  noSlash := hslash

theorem ordinary_uuidText (id : Nat) : Path.Ordinary (uuidText id).toList := by
  have hdash : '-' ∈ (uuidText id).toList := by simp [uuidText]
  refine ordinary_of_chars (List.ne_nil_of_mem hdash) (fun h => ?_) fun h => ?_
  · have hout : ¬ ('.' = '-' ∨ '.' ∈ hexAlphabet) := by decide
    exact hout (mem_uuidText h)
  · have hout : ¬ ('/' = '-' ∨ '/' ∈ hexAlphabet) := by decide
    exact hout (mem_uuidText h)

theorem ordinary_version (n : Nat) : Path.Ordinary ('v' :: (toString n).toList) := by
  refine ordinary_of_chars (by simp) (fun h => ?_) fun h => ?_
  · exact notMem_toString (by decide) n ((List.mem_cons.mp h).resolve_left (by decide))
  · exact notMem_toString (by decide) n ((List.mem_cons.mp h).resolve_left (by decide))

section keys
variable {orgId documentId versionNumber orgId' documentId' versionNumber' : Nat} {filename filename' : String}

theorem keyParts_ordinary : ∀ part ∈ keyParts orgId documentId versionNumber (safeUploadFilename filename),
    Path.Ordinary part := by
  intro part hpart
  rcases List.mem_cons.mp hpart with rfl | hpart
  · exact ordinary_uuidText orgId
  rcases List.mem_cons.mp hpart with rfl | hpart
  · exact ordinary_uuidText documentId
  rcases List.mem_cons.mp hpart with rfl | hpart
  · exact ordinary_version versionNumber
  · rw [List.mem_singleton.mp hpart]
    exact ordinary_safeUploadFilename filename

/-- The path of an upload is its own directories, and its file in them. -/
theorem join_blobKey (root : Path) :
    root.join (blobKey orgId documentId versionNumber (safeUploadFilename filename)).toList =
      root ++ keyParts orgId documentId versionNumber (safeUploadFilename filename) := by
  rw [toList_blobKey]
  exact Path.join_intercalate (by simp [keyParts]) keyParts_ordinary

theorem keyParts_injective
    (h : keyParts orgId documentId versionNumber filename = keyParts orgId' documentId' versionNumber' filename') :
    orgId = orgId' ∧ documentId = documentId' ∧ versionNumber = versionNumber' ∧ filename = filename' := by
  simp only [keyParts,List.cons.injEq,and_true,true_and] at h
  obtain ⟨horg,hdoc,hversion,hname⟩ := h
  exact ⟨uuidText_injective (String.toList_inj.mp horg),uuidText_injective (String.toList_inj.mp hdoc),
    toString_injective hversion,String.toList_inj.mp hname⟩

end keys

/-! Stores -/

def IsUploadKey (key : String) : Prop :=
  ∃ orgId documentId versionNumber filename,
    key = blobKey orgId documentId versionNumber (safeUploadFilename filename)

/-- Different keys are different files. -/
theorem path_injective {root : Path} {key key' : String} (h : IsUploadKey key) (h' : IsUploadKey key')
    (heq : root.join key.toList = root.join key'.toList) : key = key' := by
  obtain ⟨org,doc,version,filename,rfl⟩ := h
  obtain ⟨org',doc',version',filename',rfl⟩ := h'
  rw [join_blobKey,join_blobKey] at heq
  obtain ⟨rfl,rfl,rfl,hname⟩ := keyParts_injective (List.append_cancel_left heq)
  rw [hname]

section store
variable {store : FilesystemBlobStore} {call : BlobCall} {key : String}

@[simp] theorem perform_root (store : FilesystemBlobStore) (call : BlobCall) : (store.perform call).root = store.root := by
  cases call with
  | put => rfl
  | delete k =>
    unfold FilesystemBlobStore.perform FilesystemBlobStore.delete
    dsimp only
    split <;> rfl

/-- A deleted key has no file, whether there was one or not. -/
theorem get?_delete (k : String) (p : Path) :
    (store.delete k).files.get? p = if p = store.path k then none else store.files.get? p := by
  unfold FilesystemBlobStore.delete
  split
  · exact Dict.get?_pop ..
  · next h =>
    split
    · next hp =>
      rw [hp]
      simpa [FilesystemBlobStore.exists?] using h
    · rfl

/-- One call changes the file of its own key only. -/
theorem get?_perform (hcall : IsUploadKey call.key) (hkey : IsUploadKey key) :
    (store.perform call).files.get? ((store.perform call).path key) =
      lastPut (store.files.get? (store.path key)) [call] key := by
  have hpath : (store.perform call).path key = store.path key := by
    rw [FilesystemBlobStore.path,perform_root]
    rfl
  have hsame (k : String) (hk : IsUploadKey k) : store.path key = store.path k ↔ k = key := by
    constructor
    · exact fun heq => (path_injective hkey hk heq).symm
    · exact fun heq => by rw [heq]
  rw [hpath]
  cases call with
  | put k data =>
    simp only [FilesystemBlobStore.perform,FilesystemBlobStore.put,Dict.get?_set,hsame k hcall,lastPut,
      List.foldl_cons,List.foldl_nil]
  | delete k =>
    simp only [FilesystemBlobStore.perform,get?_delete,hsame k hcall,lastPut,List.foldl_cons,List.foldl_nil]

/-- After any calls a key has what was put last under it and not deleted since. -/
theorem get?_performs {calls : List BlobCall} (hcalls : ∀ call ∈ calls, IsUploadKey call.key)
    (hkey : IsUploadKey key) :
    (calls.foldl .perform store).files.get? ((calls.foldl .perform store).path key) =
      lastPut (store.files.get? (store.path key)) calls key := by
  induction calls generalizing store with
  | nil => rfl
  | cons call calls ih =>
    rw [List.foldl_cons,ih fun c hc => hcalls c (List.mem_cons_of_mem _ hc),
      get?_perform (hcalls call (List.mem_cons_self ..)) hkey]
    rfl

end store

/-- Uploads stay inside their documents: every key leads to its own directories under the root and to
one file in them, keys of different documents never meet, and a store gives back what was put last. -/
theorem uploads_contained (root : Path) :
    (∀ orgId documentId versionNumber filename, ∃ name, Path.Ordinary name ∧
      root.join (blobKey orgId documentId versionNumber (safeUploadFilename filename)).toList =
        root ++ [(uuidText orgId).toList,(uuidText documentId).toList,'v' :: (toString versionNumber).toList,name]) ∧
    (∀ orgId documentId versionNumber filename orgId' documentId' versionNumber' filename',
      (orgId,documentId,versionNumber) ≠ (orgId',documentId',versionNumber') →
        root.join (blobKey orgId documentId versionNumber (safeUploadFilename filename)).toList ≠
          root.join (blobKey orgId' documentId' versionNumber' (safeUploadFilename filename')).toList) ∧
    ∀ files calls, (∀ call ∈ calls, IsUploadKey call.key) → ∀ key, IsUploadKey key →
      (calls.foldl .perform (⟨root,files⟩ : FilesystemBlobStore)).get key =
        match lastPut (files.get? (root.join key.toList)) calls key with
        | some data => .ok data
        | none => .error .fileNotFound := by
  refine ⟨fun orgId documentId versionNumber filename => ?_,?_,?_⟩
  · exact ⟨_,ordinary_safeUploadFilename filename,join_blobKey root⟩
  · intro orgId documentId versionNumber filename orgId' documentId' versionNumber' filename' hne heq
    rw [join_blobKey,join_blobKey] at heq
    obtain ⟨rfl,rfl,rfl,-⟩ := keyParts_injective (List.append_cancel_left heq)
    exact hne rfl
  · intro files calls hcalls key hkey
    unfold FilesystemBlobStore.get
    rw [get?_performs hcalls hkey]
    rfl

/-- A key with a name that climbs, and two uploads under it. -/
def climbingKey : String := blobKey 1 2 1 (safeUploadFilename "..\\..\\notes.txt")

theorem uploads_contained_twice :
    ([.put climbingKey [1],.put climbingKey [2]].foldl .perform
      (⟨[['b']],.empty⟩ : FilesystemBlobStore)).get climbingKey = .ok [2] := by
  have hkey : IsUploadKey climbingKey := ⟨1,2,1,_,rfl⟩
  have hget := (uploads_contained [['b']]).2.2 .empty [.put climbingKey [1],.put climbingKey [2]]
    (by intro call hcall; rcases List.mem_pair.mp hcall with rfl | rfl <;> exact hkey) climbingKey hkey
  rw [hget]
  simp [lastPut]

end VoxForge.Knowledge
