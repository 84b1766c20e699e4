import ZimaControl.Backup.Calls

/-!
# Retention

`pruneApplicationBackups` of `retention-service.ts`. A pass takes the verified and retained
artifacts of an application, newest first, keeps the first `max 1 retentionVersions` and deletes the
files of the others, artifact by artifact, unless something speaks against it. An artifact is marked
as pruned when its three files are gone.
-/

namespace ZimaControl

/-- `RetentionPruneResult`. -/
structure RetentionPruneResult where
  applicationId : JsString
  retainedVersionsLimit : ℤ
  totalVerifiedCount : ℤ
  retainedCount : ℤ
  prunedCount : ℤ
  prunedArtifactIds : List JsString
  protectedArtifactIds : List JsString
  errors : List (JsString × JsString)

/-- The time by which artifacts are ordered. -/
def BackupArtifact.time (artifact : BackupArtifact) : ℤ := artifact.verifiedAt.getD artifact.createdAt

/-- Only verified and retained artifacts count. -/
def BackupArtifact.counts (artifact : BackupArtifact) : Bool :=
  artifact.verificationStatus = .verified && artifact.isRetained

/-- `verifiedArtifacts`, newest first. -/
def verifiedArtifacts (allArtifacts : List BackupArtifact) : List BackupArtifact :=
  (allArtifacts.filter (·.counts)).mergeSort fun a b => b.time ≤ a.time

/-- The destination of an artifact. -/
def artifactDestination (configured : BackupDestination) (destinations : List BackupDestination)
    (destinationId : JsString) : Option BackupDestination :=
  if destinationId = configured.id then some configured
  else match destinations.reverse.find? (·.id = destinationId) with
    | some destination => some destination
    | none => if destinationId = [] then some configured else none

/-- The counters of the loop over the candidates. -/
structure PruneState where
  currentRemainingVerified : ℤ
  prunedArtifactIds : List JsString
  protectedArtifactIds : List JsString
  errors : List (JsString × JsString)

/-- An artifact that is left alone. -/
def PruneState.protect (state : PruneState) (candidate : BackupArtifact) : PruneState :=
  { state with protectedArtifactIds := state.protectedArtifactIds ++ [candidate.id] }

/-- An artifact that could not be pruned. -/
def PruneState.report (state : PruneState) (candidate : BackupArtifact) (error : JsString) :
    PruneState :=
  { state with errors := state.errors ++ [(candidate.id, error)] }

/-- An artifact that was pruned. -/
def PruneState.prune (state : PruneState) (candidate : BackupArtifact) : PruneState :=
  { state with
    currentRemainingVerified := state.currentRemainingVerified - 1
    prunedArtifactIds := state.prunedArtifactIds ++ [candidate.id] }

/-- The removal of a file that may be gone already. -/
def unlinkIfPresent (path : JsString) : Backup Unit :=
  tryCatch (call (.unlink path)) fun e =>
    if e.code ≠ some (js "ENOENT") then throw e else pure ()

/-- The removal of the files of an artifact. -/
def deleteFiles : List JsString → Backup Unit
  | [] => pure ()
  | path :: rest => do
    unlinkIfPresent path
    deleteFiles rest

/-- The paths of the files of a bundle in a directory. -/
def artifactPaths (storageDirectory bundle : JsString) : List JsString :=
  [Posix.join [storageDirectory, bundle], Posix.join [storageDirectory, manifestFileName bundle],
    Posix.join [storageDirectory, sha256FileName bundle]]

/-- One candidate, behind the preflight check of its destination. -/
def pruneFiles (host : BackupHost) (storageDirectory : JsString) (state : PruneState)
    (candidate : BackupArtifact) : Backup PruneState :=
  if Posix.basename candidate.bundleFileName ≠ candidate.bundleFileName ∨
      (js ".tar.zst").isSuffixOf candidate.bundleFileName = false then
    return state.report candidate (js "Malformed bundleFileName: '" ++ candidate.bundleFileName ++
      js "'")
  else
    let paths := artifactPaths storageDirectory candidate.bundleFileName
    if paths.all (host.isPathContained · storageDirectory) = false then
      return state.report candidate (js "Path traversal detected for artifact files in '" ++
        storageDirectory ++ js "'")
    else do
      match ← (deleteFiles paths).attempt with
      | .error fsErr =>
        return state.report candidate (js "Filesystem deletion failed: " ++ fsErr.message)
      | .ok _ =>
        let prunedAt : ℤ ← call .now
        let _ : Unit ← call (.pruneArtifact candidate.id prunedAt)
        return state.prune candidate

/-- One candidate. -/
def pruneCandidate (host : BackupHost) (config : BackupConfig) (configured : BackupDestination)
    (destinations : List BackupDestination) (activeJobIds : List JsString) (state : PruneState)
    (candidate : BackupArtifact) : Backup PruneState :=
  if candidate.jobId ∈ activeJobIds then return state.protect candidate
  else if state.currentRemainingVerified ≤ 1 then return state.protect candidate
  else
    match artifactDestination configured destinations candidate.destinationId with
    | some destination =>
      match host.resolveProvider destination with
      | .error err => return state.report candidate (js "Failed to resolve provider for destination '"
          ++ destination.id ++ js "': " ++ err.message)
      | .ok _ => do
        let health : DestinationHealth ← call (.preflight destination)
        if health.isAvailable = false then
          return state.report candidate (js "Destination '" ++ destination.id ++
            js "' unavailable for pruning: " ++
            health.reasonCode.getD (js "DESTINATION_UNAVAILABLE") ++ detailText health.detail)
        else
          let storageDirectory ←
            .ret (host.resolveStorageDirectory destination config.application.name)
          pruneFiles host storageDirectory state candidate
    | none => return state.report candidate (js "Destination '" ++ candidate.destinationId ++
        js "' not found for artifact '" ++ candidate.id ++ js "'")

/-- The loop over the candidates. -/
def pruneCandidates (host : BackupHost) (config : BackupConfig) (configured : BackupDestination)
    (destinations : List BackupDestination) (activeJobIds : List JsString) :
    List BackupArtifact → PruneState → Backup PruneState
  | [], state => pure state
  | candidate :: rest, state => do
    let state' ←
      pruneCandidate host config configured destinations activeJobIds state candidate
    pruneCandidates host config configured destinations activeJobIds rest state'

/-- The result of a pass that prunes nothing. -/
def nothingPruned (applicationId : JsString) (limit total : ℤ) : RetentionPruneResult where
  applicationId := applicationId
  retainedVersionsLimit := limit
  totalVerifiedCount := total
  retainedCount := total
  prunedCount := 0
  prunedArtifactIds := []
  protectedArtifactIds := []
  errors := []

/-- `executePruneInternal`. -/
def executePruneInternal (host : BackupHost) (applicationId : JsString) :
    Backup RetentionPruneResult := do
  let found : Option (BackupConfig × Option BackupDestination) ← call (.findConfig applicationId)
  match found with
  | some (config, some configured) =>
    let retainedVersionsLimit := max 1 config.retentionVersions
    let allArtifacts : List BackupArtifact ← call (.findArtifacts applicationId)
    let verified := verifiedArtifacts allArtifacts
    let activeJobs : List BackupJob ← call (.findActiveJobs applicationId)
    let totalVerifiedCount : ℤ := verified.length
    if totalVerifiedCount ≤ retainedVersionsLimit then
      return nothingPruned applicationId retainedVersionsLimit totalVerifiedCount
    else
      let candidates := verified.drop retainedVersionsLimit.toNat
      let destIds := ((candidates.map (·.destinationId)).filter (· ≠ [])).eraseDups
      let destinations : List BackupDestination ← call (.findDestinations destIds)
      let state ← pruneCandidates host config configured destinations (activeJobs.map (·.id))
        candidates ⟨totalVerifiedCount, [], [], []⟩
      return { applicationId, retainedVersionsLimit, totalVerifiedCount
               retainedCount := state.currentRemainingVerified
               prunedCount := state.prunedArtifactIds.length
               prunedArtifactIds := state.prunedArtifactIds
               protectedArtifactIds := state.protectedArtifactIds
               errors := state.errors }
  | _ => return nothingPruned applicationId 3 0

/-- `pruneApplicationBackups`. -/
def pruneApplicationBackups (host : BackupHost) (applicationId : JsString) :
    Backup RetentionPruneResult := do
  let locked : Bool ← call (.lockRetention applicationId)
  if locked = false then
    return { nothingPruned applicationId 0 0 with
      errors := [([], js "Retention pass already in progress for this application")] }
  else
    let result ← (executePruneInternal host applicationId).attempt
    let _ : Unit ← call (.unlockRetention applicationId)
    .ret result

end ZimaControl
