import CatalogSentinel.Search.Presence

/-!
The deep scan of a saved search. It reads the record once, asks the resolver for the
verdicts of one store after the other, chunk by chunk, and stores what it learns by
updates of the record. The awaits are the operations of a program; an update carries
the mutation that the store applies to whatever record it then holds.
-/

namespace CatalogSentinel.Search.DeepScan

open Concurrent

/-! ### Mutations -/

/-- What an update of the scan writes; the fields are the locals that its closure reads. -/
inductive Mutation
  | nothingToScan (priorDone : List String) (tracksScanned : ℕ)
  | overCapacity (platformNames priorDone : List String) (message : String)
  | running (platformNames priorDone : List String) (tracksScanned : ℕ)
  | chunk (name : String) (perTrack : PerTrack) (warnings : List String) (verifiedThrough : ℕ)
  | platform (name : String) (platformNames done : List String) (tracksScanned released : ℕ)
  | platformFailures (done : List String) (failed : List (String × String)) (tracksScanned : ℕ)
  | complete (done : List String) (tracksScanned : ℕ)

def withPlatformWarnings (existing : List String) (platform : String) (warnings : List String) :
    List String :=
  let pre := "DSP " ++ platform ++ ": "
  existing.filter (fun warning => !warning.startsWith pre) ++ warnings.map (pre ++ ·)

/-- The mark of a warning about the capacity. -/
def capacityMark : String := "Deep-scan capacity:"

def verified (deepScan : Option DeepScanState) : List (String × ℕ) :=
  (deepScan.bind DeepScanState.platformTracksVerified).getD []

def setVerified (counters : List (String × ℕ)) (name : String) (count : ℕ) : List (String × ℕ) :=
  Data.put Prod.fst (name, count) counters

def failedMessage (count : ℕ) : String :=
  s!"{count} platform verification(s) failed and will be retried"

def Mutation.apply (r : Scan) : Mutation → Scan
  | .nothingToScan priorDone tracksScanned =>
    { r with
      deepScan := some
        { status := .done
          platformsPending := []
          platformsDone := priorDone
          tracksScanned := some tracksScanned
          platformTracksVerified := r.deepScan.bind DeepScanState.platformTracksVerified
          error := r.deepScan.bind DeepScanState.error } }
  | .overCapacity platformNames priorDone message =>
    { r with
      result :=
        { r.result with
          warnings := r.result.warnings.filter (fun warning => !warning.startsWith capacityMark) ++
            [capacityMark ++ " " ++ message] }
      deepScan := some
        { status := .error
          platformsPending := platformNames
          platformsDone := priorDone
          tracksScanned := some 0
          platformTracksVerified := r.deepScan.bind DeepScanState.platformTracksVerified
          error := some message } }
  | .running platformNames priorDone tracksScanned =>
    { r with
      deepScan := some
        { status := .running
          platformsPending := platformNames
          platformsDone := priorDone
          tracksScanned := some tracksScanned
          platformTracksVerified := r.deepScan.bind DeepScanState.platformTracksVerified
          error := none } }
  | .chunk name perTrack warnings verifiedThrough =>
    let merged := mergePlatform r.result name perTrack
    { r with
      result := { merged with warnings := withPlatformWarnings merged.warnings name warnings }
      deepScan := r.deepScan.map fun state =>
        { state with
          platformTracksVerified := some (setVerified (verified r.deepScan) name verifiedThrough) } }
  | .platform name platformNames done tracksScanned released =>
    { r with
      deepScan := some
        { status := .running
          platformsPending := platformNames.filter (· ∉ done)
          platformsDone := done
          tracksScanned := some tracksScanned
          platformTracksVerified := some (if name ∈ done then
            setVerified (verified r.deepScan) name released else verified r.deepScan)
          error := r.deepScan.bind DeepScanState.error } }
  | .platformFailures done failed tracksScanned =>
    { r with
      deepScan := some
        { status := .error
          platformsPending := failed.map Prod.fst
          platformsDone := done
          tracksScanned := some tracksScanned
          platformTracksVerified := r.deepScan.bind DeepScanState.platformTracksVerified
          error := some (failedMessage failed.length) } }
  | .complete done tracksScanned =>
    { r with
      deepScan := some
        { status := .done
          platformsPending := []
          platformsDone := done
          tracksScanned := some tracksScanned
          platformTracksVerified := r.deepScan.bind DeepScanState.platformTracksVerified
          error := none } }

/-- The mutator that the store is given. -/
def Mutation.mutate (m : Mutation) (r : SearchRecord Scan) : SearchRecord Scan :=
  { r with body := m.apply r.body }

/-! ### Awaits -/

structure StorePresence where
  store : String
  verdict : PerTrackVerdict

/-- The resolver's answer for a list of tracks: the verdicts on each of them. -/
structure Report where
  results : List (List StorePresence)
  warnings : List String

inductive Op
  | get
  | prepareStorePresence (artist : String) (released : List ReleasedTrack) (store : String)
  | scanStorePresence (artist : String) (tracks : List ReleasedTrack) (store : String)
  | update (m : Mutation)

def signature : Signature where
  Op := Op
  Ans
    | .get => Option (SearchRecord Scan)
    | .prepareStorePresence _ _ _ => Unit
    | .scanStorePresence _ _ _ => Report
    | .update _ => Unit

abbrev Run (α : Type) := Prog signature String α

def get : Run (Option (SearchRecord Scan)) := Prog.call (S := signature) Op.get

def prepareStorePresence (artist : String) (released : List ReleasedTrack) (store : String) :
    Run Unit :=
  Prog.call (S := signature) (Op.prepareStorePresence artist released store)

def scanStorePresence (artist : String) (tracks : List ReleasedTrack) (store : String) :
    Run Report :=
  Prog.call (S := signature) (Op.scanStorePresence artist tracks store)

def update (m : Mutation) : Run Unit := Prog.call (S := signature) (Op.update m)

/-! ### The scan -/

/-- The stores to scan and the limits, as the environment has them. -/
structure Config where
  targets : List String
  maxTracks : ℕ
  chunkSize : ℕ

/-- `slice` by `slice` of the track indices. -/
def planChunks (count chunkSize : ℕ) : List (List ℕ) :=
  let size := max 1 chunkSize
  (List.range ((count + size - 1) / size)).map fun k =>
    ((List.range count).drop (k * size)).take size

def releasedOf (r : Scan) : List ReleasedTrack :=
  match r.released with
  | some (t :: ts) => t :: ts
  | _ => r.result.tracks.map fun t => ⟨t.title, r.artist, t.isrc⟩

def resumable (deepScan : Option DeepScanState) : Bool :=
  match deepScan with
  | some state => state.status ∈ [.queued, .running, .error] ∧ state.platformsPending ≠ []
  | none => false

def priorDone (deepScan : Option DeepScanState) : List String :=
  (deepScan.map DeepScanState.platformsDone).getD []

def platformNames (targets : List String) (deepScan : Option DeepScanState) : List String :=
  let resumePending :=
    if resumable deepScan then (deepScan.map DeepScanState.platformsPending).getD [] else []
  targets.filter fun store =>
    if resumePending ≠ [] then store ∈ resumePending else store ∉ priorDone deepScan

def verifiedPrefix (deepScan : Option DeepScanState) (name : String) : ℕ :=
  if resumable deepScan then ((Data.get? Prod.fst name (verified deepScan)).map Prod.snd).getD 0
  else 0

/-- The cells that a prior attempt has persisted. -/
def persisted (r : Scan) (name : String) : PerTrack := fun i =>
  if i < verifiedPrefix r.deepScan name then
    r.result.tracks[i]?.bind fun track =>
      (track.perStore.find? (·.store = name)).map PerTrackVerdict.ofCell
  else none

def pick (name : String) (perStore : List StorePresence) : Option PerTrackVerdict :=
  ((perStore.find? (·.store = name)).or perStore.head?).map StorePresence.verdict

/-- The answers of a report, under the indices of the tracks that were asked for. -/
def assign (name : String) (chunk : List ℕ) (report : Report) (perTrack : PerTrack) : PerTrack :=
  (chunk.zip report.results).foldl (fun perTrack answer =>
    Function.update perTrack answer.1 (pick name answer.2)) perTrack

def scanChunks (rec : Scan) (name : String) : List (List ℕ) → PerTrack → Run PerTrack
  | [], perTrack => return perTrack
  | chunk :: chunks, perTrack => do
    if chunk.all fun i => (perTrack i).isSome then
      scanChunks rec name chunks perTrack
    else
      let chunkTracks := chunk.filterMap fun i => (releasedOf rec)[i]?
      let report ← scanStorePresence rec.artist chunkTracks name
      if report.results.length ≠ chunk.length then
        throw "platform resolver returned a misaligned track set"
      else
        let perTrack := assign name chunk report perTrack
        update (.chunk name perTrack report.warnings (chunk.foldr max 0 + 1))
        scanChunks rec name chunks perTrack

def scanPlatform (rec : Scan) (chunks : List (List ℕ)) (name : String) : Run Unit := do
  prepareStorePresence rec.artist (releasedOf rec) name
  let perTrack ← scanChunks rec name chunks (persisted rec name)
  if chunks.flatten.any fun i => (perTrack i).isNone then
    throw "platform resolver returned an incomplete track set"

/-- The stores that are done and those that failed, after one more outcome. -/
def settlePlatform (name : String) (done : List String) (failed : List (String × String)) :
    Except String Unit → List String × List (String × String)
  | .ok _ => (if name ∈ done then done else done ++ [name], failed)
  | .error e => (done, failed ++ [(name, e)])

def scanPlatforms (rec : Scan) (chunks : List (List ℕ)) (names : List String)
    (tracksScanned : ℕ) : List String → List String → List (String × String) →
    Run (List String × List (String × String))
  | [], done, failed => return (done, failed)
  | name :: rest, done, failed => do
    let outcome ← (scanPlatform rec chunks name).attempt
    let settled := settlePlatform name done failed outcome
    update (.platform name names settled.1 tracksScanned (releasedOf rec).length)
    scanPlatforms rec chunks names tracksScanned rest settled.1 settled.2

def capacityMessage (released maxTracks : ℕ) : String :=
  s!"Deep scan requires {released} tracks but DEEP_SCAN_MAX_TRACKS_PER_SCAN is {maxTracks}; no track was silently truncated."

def scanRecord (cfg : Config) (rec : Scan) : Run Unit := do
  let released := (releasedOf rec).length
  let done := priorDone rec.deepScan
  let names := platformNames cfg.targets rec.deepScan
  let tracksScanned := min released cfg.maxTracks
  let chunks := planChunks tracksScanned cfg.chunkSize
  if names = [] ∨ tracksScanned = 0 then
    update (.nothingToScan done tracksScanned)
  else if released - tracksScanned > 0 then
    let message := capacityMessage released cfg.maxTracks
    update (.overCapacity names done message)
    throw message
  else
    update (.running names done tracksScanned)
    let settled ← scanPlatforms rec chunks names tracksScanned names done []
    if settled.2 ≠ [] then
      update (.platformFailures settled.1 settled.2 tracksScanned)
      throw ("deep-scan platform failures: " ++ ", ".intercalate (settled.2.map Prod.fst))
    else
      update (.complete settled.1 tracksScanned)

def runStorePresenceDeepScan (cfg : Config) (expectedTenantId : Option String) : Run Unit := do
  match ← get with
  | none => return
  | some rec =>
    if expectedTenantId.any fun tenant => tenant ≠ "" ∧ rec.userId ≠ tenant then
      throw "presence job tenant does not own the target search record"
    else
      scanRecord cfg rec.body

end CatalogSentinel.Search.DeepScan
