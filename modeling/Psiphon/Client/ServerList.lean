import Psiphon.Client.ServerEntry

/-!
# The list of servers in the registry

`ServerList` of `serverlist.cpp`. A call keeps what it wrote when it throws.
-/

namespace Psiphon.Client

open Json (Bytes Value ascii)

structure Registry where
  named : Option Bytes
  /-- The value of older versions, without the name of the list. -/
  unnamed : Option Bytes
  deriving DecidableEq, Repr

structure ListConfig where
  platform : Platform
  /-- A longer value cannot be written. -/
  capacity : ℕ
  embeddedServerList : Bytes
  ignoreSystemServerList : Bool

structure EntryShuffle where
  run : List ServerEntry → List ServerEntry
  perm : ∀ l, (run l).Perm l

def EntryShuffle.id : EntryShuffle := ⟨fun l => l, fun _ => .rfl⟩

abbrev RegistryM := EStateM String Registry

section Operations

variable (config : ListConfig)

def getListFromSystem (registry : Registry) : Cpp (List ServerEntry) :=
  match registry.named <|> registry.unnamed with
  | none => return []
  | some value => parseServerEntries config.platform value

/-- `WriteListToSystem`: half of a list that is too long is tried, down to two entries. -/
def writeListToSystem (serverEntryList : List ServerEntry) (registry : Registry) : Registry :=
  let encoded := encodeServerEntries config.platform serverEntryList
  if encoded.length ≤ config.capacity then { registry with named := some encoded }
  else if serverEntryList.length / 2 > 1 then
    writeListToSystem (serverEntryList.take (serverEntryList.length / 2)) registry
  else registry
termination_by serverEntryList.length
decreasing_by rw [List.length_take]; omega

def insertSecond (entry : ServerEntry) : List ServerEntry → List ServerEntry
  | [] => [entry]
  | first :: rest => first :: entry :: rest

def replaceFirst (address : Bytes) (f : ServerEntry → ServerEntry) :
    List ServerEntry → Option (List ServerEntry)
  | [] => none
  | entry :: rest =>
    if address = entry.serverAddress then some (f entry :: rest)
    else (replaceFirst address f rest).map (entry :: ·)

/-- The embedded entry is newer if it has a key that the stored one lacks. -/
def mergeEmbedded (list : List ServerEntry) (embedded : ServerEntry) : List ServerEntry :=
  (replaceFirst embedded.serverAddress (fun entry =>
    if embedded.sshObfuscatedKey.length > 0 && entry.sshObfuscatedKey.length = 0 then embedded
    else entry) list).getD (insertSecond embedded list)

def getList (shuffle : EntryShuffle) : RegistryM (List ServerEntry) := do
  let stored ← get
  let system :=
    if config.ignoreSystemServerList then []
    else match getListFromSystem config stored with
      | .ok list => list
      | .error _ => []
  let embedded := match parseServerEntries config.platform config.embeddedServerList with
    | .ok list => shuffle.run list
    | .error _ => []
  let list := embedded.foldl mergeEmbedded system
  modify (writeListToSystem config list)
  match getListFromSystem config (← get) with
  | .ok stored => return stored
  | .error _ => return list

/-- A known entry is updated, a new one is inserted; the number counts the new ones. -/
def addDecoded (state : List ServerEntry × ℕ) (decoded : ServerEntry) : List ServerEntry × ℕ :=
  match replaceFirst decoded.serverAddress (fun _ => decoded) state.1 with
  | some list => (list, state.2)
  | none => (insertSecond decoded state.1, state.2 + 1)

def addEntriesToList (newServerEntryList : List Bytes) (serverEntry : Option ServerEntry)
    (shuffle embeddedShuffle : EntryShuffle) : RegistryM ℕ := do
  if newServerEntryList = [] ∧ serverEntry = none then return 0
  else
    match newServerEntryList.mapM (parseServerEntry config.platform) with
    | .error e => throw e
    | .ok decoded =>
      let decoded := shuffle.run (decoded ++ serverEntry.toList)
      let old ← getList config embeddedShuffle
      let (list, entriesAdded) := decoded.foldl addDecoded (old, 0)
      modify (writeListToSystem config list)
      return entriesAdded

/-- The first entry with the address, its position, and the list without it. -/
def takeOut (address : Bytes) : List ServerEntry → Option (ServerEntry × ℕ × List ServerEntry)
  | [] => none
  | entry :: rest =>
    if address = entry.serverAddress then some (entry, 0, rest)
    else (takeOut address rest).map fun (found, i, others) => (found, i + 1, entry :: others)

/-- One entry is moved. An entry that is stored with other values stays where it is. -/
def moveEntry (platform : Platform) (veryFront : Bool) (list : List ServerEntry)
    (entry : ServerEntry) : List ServerEntry :=
  match takeOut entry.serverAddress list with
  | none => if veryFront then entry :: list else insertSecond entry list
  | some (found, i, others) =>
    if entry.toText platform ≠ found.toText platform then list
    -- an entry that replaces the head becomes the head
    else if veryFront || i = 0 then entry :: others
    else insertSecond entry others

def moveEntriesToFront (entries : List ServerEntry) (veryFront : Bool) (shuffle : EntryShuffle) :
    RegistryM Unit := do
  let list ← getList config shuffle
  modify (writeListToSystem config
    (entries.reverse.foldl (moveEntry config.platform veryFront) list))

/-- A failed server is moved to the end of the list. -/
def markFailed (state : List ServerEntry × Bool) (failed : ServerEntry) :
    List ServerEntry × Bool :=
  match takeOut failed.serverAddress state.1 with
  | none => state
  | some (found, _, others) => (others ++ [found], true)

def markServersFailed (failedServerEntries : List ServerEntry) (shuffle : EntryShuffle) :
    RegistryM Unit := do
  let list ← getList config shuffle
  if list = [] ∨ failedServerEntries = [] then return ()
  else
    let (list, changeMade) := failedServerEntries.foldl markFailed (list, false)
    if changeMade then modify (writeListToSystem config list)

end Operations

/-! ### Sequences of calls -/

inductive ListCall where
  | getList (shuffle : EntryShuffle)
  | addEntriesToList (newServerEntryList : List Bytes) (serverEntry : Option ServerEntry)
      (shuffle embeddedShuffle : EntryShuffle)
  | moveEntriesToFront (entries : List ServerEntry) (veryFront : Bool) (shuffle : EntryShuffle)
  | markServersFailed (failedServerEntries : List ServerEntry) (shuffle : EntryShuffle)

def runListCall (config : ListConfig) : ListCall → RegistryM (Option (List ServerEntry))
  | .getList shuffle => some <$> getList config shuffle
  | .addEntriesToList new serverEntry shuffle embeddedShuffle => do
    let _ ← addEntriesToList config new serverEntry shuffle embeddedShuffle
    return none
  | .moveEntriesToFront entries veryFront shuffle => do
    moveEntriesToFront config entries veryFront shuffle
    return none
  | .markServersFailed failed shuffle => do
    markServersFailed config failed shuffle
    return none

/-- The registry after a call, whether it returns or throws. -/
def listStep (config : ListConfig) (registry : Registry) (call : ListCall) : Option Registry :=
  match runListCall config call registry with
  | .ok _ registry => some registry
  | .error _ registry => some registry

end Psiphon.Client
