import Syntra.Lib.Run
import Syntra.Platform

/-!
# The dictionary store

Dictionaries are trained per class from samples, written to one file each and
found again by an id built from the class and the hash of the bytes.  The maps
of the store are functions, the directory is the list of its files.
-/

set_option autoImplicit false

namespace Syntra

open Fallible Text

def minSamples : Nat := 12
def minSampleBytes : Nat := 48 * 1024
def dictMaxSize : Nat := 112 * 1024
def dictMinSize : Nat := 4 * 1024
def sampleToDictRatio : Nat := 8
def sampleMax : Nat := 64 * 1024
def dictSampleBudget : Nat := 8 * 1024 * 1024

structure Dictionary where
  id : String
  digest : Digest
  bytes : Bytes
  deriving Repr, DecidableEq

def Dictionary.size (dict : Dictionary) : Nat := dict.bytes.length % 2 ^ 32

def sanitizeChar (c : Char) : Char :=
  if 'a' ≤ c ∧ c ≤ 'z' ∨ '0' ≤ c ∧ c ≤ '9' ∨ c = '-' then c
  else if 'A' ≤ c ∧ c ≤ 'Z' then Char.ofNat (c.toNat + 32)
  else '_'

def sanitize (contentClass : String) : String :=
  String.ofList (contentClass.toList.map sanitizeChar)

structure SampleBuf where
  items : List Bytes
  bytes : Nat
  deriving Repr, DecidableEq

def SampleBuf.empty : SampleBuf := { items := [], bytes := 0 }

/-- A sample is kept while the budget of its class lasts. -/
def SampleBuf.push (buf : SampleBuf) (sample : Bytes) : SampleBuf :=
  if buf.bytes + sample.length ≤ dictSampleBudget then
    { items := buf.items ++ [sample], bytes := buf.bytes + sample.length }
  else buf

structure DictFile where
  id : String
  bytes : Bytes
  mtime : Nat
  deriving Repr, DecidableEq

structure DictStore where
  enabled : Bool
  active : String → Option Dictionary
  byId : String → Option Dictionary
  samples : String → Option SampleBuf
  disk : List DictFile
  /-- What the store has published, when a Redis client is configured. -/
  redis : Option (String → Option Bytes)

variable (P : Platform)

/-- The digits that end an id: the first eight bytes of the hash. -/
def digestSuffix (digest : Digest) : String := hexEncode (digest.val.take 8)

def Dictionary.new (contentClass : String) (bytes : Bytes) : Dictionary :=
  let digest := P.blake3 bytes
  { id := sanitize contentClass ++ String.singleton '.' ++ digestSuffix digest, digest, bytes }

namespace DictStore

/-! ## Opening -/

/-- `id` and `bytes` as a dictionary, when the hash of the bytes ends the id. -/
def checkedDictionary (id : String) (bytes : Bytes) : Option Dictionary :=
  let digest := P.blake3 bytes
  if endsWith id (digestSuffix digest) then some { id, digest, bytes } else none

def classOfId (id : String) : String := ((rsplitOnce '.' id).map (·.1)).getD id

/-- One entry of the directory; `newest` holds the time and id chosen so far for
each class. -/
def loadEntry (found : (String → Option Dictionary) × (String → Option (Nat × String)))
    (file : DictFile) : (String → Option Dictionary) × (String → Option (Nat × String)) :=
  match checkedDictionary P file.id file.bytes with
  | none => found
  | some dict =>
    let contentClass := classOfId file.id
    let replace := (found.2 contentClass).all (fun chosen => decide (chosen.1 < file.mtime))
    (Function.update found.1 dict.id (some dict),
      if replace then Function.update found.2 contentClass (some (file.mtime, dict.id))
      else found.2)

def load (enabled : Bool) (redis : Option (String → Option Bytes)) (entries : List DictFile) :
    DictStore :=
  let (byId, newest) := entries.foldl (loadEntry P) (fun _ => none, fun _ => none)
  { enabled
    active := fun contentClass => (newest contentClass).bind fun chosen => byId chosen.2
    byId
    samples := fun _ => none
    disk := entries
    redis }

/-! ## Looking up -/

def activeFor (store : DictStore) (contentClass : String) : Option Dictionary :=
  if !store.enabled || contentClass = "" then none else store.active (sanitize contentClass)

def isAsciiAlphanumeric (c : Char) : Bool :=
  ('a' ≤ c && c ≤ 'z') || ('A' ≤ c && c ≤ 'Z') || ('0' ≤ c && c ≤ '9')

def isValidId (id : String) : Bool :=
  id ≠ "" && id.utf8ByteSize ≤ 128 &&
    id.toList.all fun c => isAsciiAlphanumeric c || c = '.' || c = '_' || c = '-'

def readFile (disk : List DictFile) (id : String) : Option Bytes :=
  (disk.find? (fun file => file.id = id)).map (·.bytes)

/-- `write_file`; a write that fails leaves the directory as it is. -/
def writeFile (disk : List DictFile) (id : String) (bytes : Bytes) (mtime : Nat)
    (written : Bool) : List DictFile × Bool :=
  if (readFile disk id).isSome then (disk, true)
  else if written then (disk ++ [⟨id, bytes, mtime⟩], true)
  else (disk, false)

def accept (store : DictStore) (id : String) (bytes : Bytes) : Option (Dictionary × DictStore) :=
  (checkedDictionary P id bytes).map fun dict =>
    (dict, { store with byId := Function.update store.byId id (some dict) })

/-- Memory, then the directory, then what Redis answers. -/
def resolve (store : DictStore) (id : String) (mtime : Nat) (online written : Bool) :
    Option Dictionary × DictStore :=
  if !isValidId id then (none, store)
  else
    match store.byId id with
    | some dict => (some dict, store)
    | none =>
      match (readFile store.disk id).bind (accept P store id) with
      | some (dict, store) => (some dict, store)
      | none =>
        let answer := if online then store.redis.bind (· id) else none
        match answer.bind fun bytes => (accept P store id bytes).map (·, bytes) with
        | some ((dict, store), bytes) =>
          (some dict, { store with disk := (writeFile store.disk id bytes mtime written).1 })
        | none => (none, store)

/-! ## Training -/

def publish (store : DictStore) (dict : Dictionary) (online : Bool) : DictStore :=
  if online then
    { store with
      redis := store.redis.map fun content => Function.update content dict.id (some dict.bytes) }
  else store

def train (store : DictStore) (key : String) (mtime : Nat) (online written : Bool) : DictStore :=
  match store.samples key with
  | none => store
  | some buf =>
    if buf.items.length < minSamples then store
    else
      let store := { store with
        samples := Function.update store.samples key (some SampleBuf.empty) }
      let target := max dictMinSize (min dictMaxSize (buf.bytes / sampleToDictRatio))
      match P.zstdTrain buf.items target with
      | none => store
      | some bytes =>
        if bytes.isEmpty then store
        else
          let dict := Dictionary.new P key bytes
          match writeFile store.disk dict.id dict.bytes mtime written with
          | (_, false) => store
          | (disk, true) =>
            publish { store with
              disk
              byId := Function.update store.byId dict.id (some dict)
              active := Function.update store.active key (some dict) } dict online

def observe (store : DictStore) (contentClass : String) (data : Bytes) (mtime : Nat)
    (online written : Bool) : DictStore :=
  if !store.enabled || contentClass = "" || data.isEmpty then store
  else
    let key := sanitize contentClass
    if (store.active key).isSome then store
    else
      let buf := ((store.samples key).getD SampleBuf.empty).push (data.take sampleMax)
      let store := { store with samples := Function.update store.samples key (some buf) }
      if minSamples ≤ buf.items.length ∧ minSampleBytes ≤ buf.bytes then
        train P store key mtime online written
      else store

end DictStore

end Syntra
