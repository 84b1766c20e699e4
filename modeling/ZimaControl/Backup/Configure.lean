import ZimaControl.Backup.Calls
import ZimaControl.Backup.SourcePath
import ZimaControl.Cron.Parser

/-!
# Configurations that are accepted

`updateBackupConfig` of `orchestrator.ts`, over the tables of the world. The checks are made in the
order of the source: the number of versions, the schedule, the destination, then the sources one by
one. A default destination is created before the sources are looked at, and stays if one is refused.
The name of a source has to be new in lower case; nothing is said about two sources that use the
same database, or whose names become the same in file names.
-/

namespace ZimaControl

/-- `fileExclusions` of an input: an array, or a text. -/
inductive ExclusionsInput
  | list (patterns : List JsString)
  | text (raw : JsString)

/-- Whether there is something to store; an empty text counts as none. -/
def ExclusionsInput.isGiven : ExclusionsInput → Bool
  | text [] => false
  | _ => true

/-- `BackupSourceInput`. -/
structure BackupSourceInput where
  name : Option JsString
  sourceType : JsString
  dbEngine : Option JsString
  dbTarget : Option JsString
  dbHost : Option JsString
  dbPort : Option JsNumber
  dbUser : Option JsString
  dbSecretRef : Option JsString
  fileHostPath : Option JsString
  fileExclusions : Option ExclusionsInput
  fileFollowSymlinks : Bool

/-- `BackupConfigInput`. -/
structure BackupConfigInput where
  disabled : Bool
  retentionVersions : Option JsNumber
  scheduleCron : Option JsString
  destinationId : Option JsString
  sources : List BackupSourceInput

/-- What the checks take from the runtime: case mappings, `String(number)`, and the JSON text of an
exclusion list. -/
structure TextHost where
  toLowerCase : JsString → JsString
  toUpperCase : JsString → JsString
  numberText : JsNumber → JsString
  exclusionsJson : ExclusionsInput → JsString

/-- A runtime that maps the case of ASCII letters only. -/
def TextHost.ascii : TextHost where
  toLowerCase := fun text => text.map asciiLower
  toUpperCase := fun text => text.map fun u => if unit 'a' ≤ u && u ≤ unit 'z' then u - 32 else u
  numberText := fun number => decimal number.toNat
  exclusionsJson := fun _ => js "[]"

/-- `new BackupSourceInvalidError(message)`. -/
def backupSourceInvalidError (message : JsString) : BackupFailure :=
  domainError message "BACKUP_SOURCE_INVALID"

/-- `new BackupConfigInvalidError(message)`. -/
def backupConfigInvalidError (message : JsString) : BackupFailure :=
  domainError message "BACKUP_CONFIG_INVALID"

/-- `text?.trim() || null`. -/
def trimmed (text : Option JsString) : Option JsString := (text.map trim).filter (· ≠ [])

/-- A text that is trimmed and must not be empty. -/
def requireText (text : Option JsString) (message : JsString) : Except BackupFailure JsString :=
  match trimmed text with
  | some value => .ok value
  | none => .error (backupSourceInvalidError message)

/-- The engine of a database source. -/
def requireEngine (host : TextHost) (dbEngine : Option JsString) :
    Except BackupFailure DatabaseEngineType :=
  let engine := dbEngine.map fun text => host.toUpperCase (trim text)
  if engine = some (js "MARIADB") then .ok .mariadb
  else if engine = some (js "MYSQL") then .ok .mysql
  else .error (backupSourceInvalidError (js "Database engine '" ++ dbEngine.getD (js "undefined") ++
    js "' is not supported. Supported: MARIADB, MYSQL"))

/-- An integer in a range. -/
def isIntegerBetween (low high : ℤ) (value : JsNumber) : Bool :=
  value.isInteger && !value.ltInt low && value.ltInt (high + 1)

/-- The port of a database source. -/
def requirePort (host : TextHost) (name : JsString) (dbPort : Option JsNumber) :
    Except BackupFailure ℕ :=
  let port := dbPort.getD (.ofNat 3306)
  if isIntegerBetween 1 65535 port then .ok port.toNat
  else .error (backupSourceInvalidError (js "Database source '" ++ name ++
    js "' has invalid port: " ++ (dbPort.map host.numberText).getD (js "undefined")))

/-- A database source. -/
def validateDatabaseSource (host : TextHost) (name : JsString) (source : BackupSourceInput) :
    Except BackupFailure BackupSourceConfig := do
  let engine ← requireEngine host source.dbEngine
  let target ← requireText source.dbTarget
    (js "Database source '" ++ name ++ js "' requires dbTarget")
  let dbHost ← requireText source.dbHost (js "Database source '" ++ name ++ js "' requires dbHost")
  let port ← requirePort host name source.dbPort
  let user ← requireText source.dbUser (js "Database source '" ++ name ++ js "' requires dbUser")
  return { name, sourceType := .database, dbEngine := some engine, dbTarget := some target
           dbHost := some dbHost, dbPort := some port, dbUser := some user
           dbSecretRef := trimmed source.dbSecretRef, fileHostPath := none
           fileExclusions := none, fileFollowSymlinks := false }

/-- A source of files. -/
def validateFilesSource (host : TextHost) (name : JsString) (source : BackupSourceInput) :
    Except BackupFailure BackupSourceConfig := do
  let rawPath ← requireText source.fileHostPath
    (js "Persistent files source '" ++ name ++ js "' requires fileHostPath")
  match validatePersistentFilesHostPath rawPath with
  | .error e => throw (backupSourceInvalidError (js "Persistent files source '" ++ name ++
      js "' invalid path: " ++ e.message))
  | .ok _ =>
    return { name, sourceType := .persistentFiles, dbEngine := none, dbTarget := none
             dbHost := none, dbPort := none, dbUser := none, dbSecretRef := none
             fileHostPath := some rawPath
             fileExclusions :=
               (source.fileExclusions.filter ExclusionsInput.isGiven).map host.exclusionsJson
             fileFollowSymlinks := source.fileFollowSymlinks }

/-- A source with its name. -/
def validateSource (host : TextHost) (name : JsString) (source : BackupSourceInput) :
    Except BackupFailure BackupSourceConfig :=
  if source.sourceType = js "DATABASE" then validateDatabaseSource host name source
  else if source.sourceType = js "PERSISTENT_FILES" then validateFilesSource host name source
  else .error (backupSourceInvalidError (js "Invalid sourceType: " ++ source.sourceType))

/-- The loop over the sources, with the names that were seen. -/
def validateSources (host : TextHost) :
    List JsString → List BackupSourceInput → Except BackupFailure (List BackupSourceConfig)
  | _, [] => .ok []
  | seenNames, source :: rest => do
    let name ← requireText source.name (js "Source name must be a non-empty string")
    if host.toLowerCase name ∈ seenNames then
      throw (backupSourceInvalidError (js "Duplicate source name '" ++ name ++
        js "' in configuration"))
    else
      let validated ← validateSource host name source
      let others ← validateSources host (host.toLowerCase name :: seenNames) rest
      return validated :: others

/-! ## The destination -/

/-- The identifiers and the time of rows that are created. -/
structure NewRows where
  destinationId : JsString
  configId : JsString
  createdAt : ℤ

/-- The default destination. -/
def defaultDestination (id : JsString) : BackupDestination where
  id := id
  name := js "default-local-storage"
  type := .localFilesystem
  basePath := js "/DATA/AppData/zima-control-center/backups"
  isActive := true

/-- A destination that is named in the input. -/
def checkDestination (backup : BackupHost) (w : BackupWorld) (destinationId : JsString) :
    Except BackupFailure JsString :=
  match w.destination destinationId with
  | none => .error (backupDestinationInvalidError
      (js "Backup destination '" ++ destinationId ++ js "' does not exist"))
  | some dest =>
    if dest.isActive = false then
      .error (backupDestinationInvalidError
        (js "Backup destination '" ++ destinationId ++ js "' is disabled or inactive"))
    else if dest.type ∉ backup.providers then
      .error (backupDestinationInvalidError
        (js "Unsupported backup destination type: '" ++ js dest.type.text ++ js "'"))
    else .ok destinationId

/-- The configuration of an application. -/
def BackupWorld.configOf (w : BackupWorld) (app : Application) : Option BackupConfig :=
  w.configs.find? (·.application.id = app.id)

/-- The destination: the one in the input, the one before, the first local one, or a new one. -/
def chooseDestination (backup : BackupHost) (new : NewRows) (w : BackupWorld) (app : Application)
    (input : Option JsString) : Except BackupFailure JsString × BackupWorld :=
  match trimmed input with
  | some destinationId => (checkDestination backup w destinationId, w)
  | none =>
    match ((w.configOf app).map (·.destinationId)).filter (· ≠ []) with
    | some destinationId =>
      if (w.destination destinationId).any (·.isActive) then (.ok destinationId, w)
      else (.error (backupDestinationInvalidError (js "Previously configured destination '" ++
        destinationId ++ js "' is inactive or no longer exists")), w)
    | none =>
      match w.destinations.find? fun dest => dest.isActive && dest.type = .localFilesystem with
      | some dest => (.ok dest.id, w)
      | none => (.ok new.destinationId,
          { w with destinations := w.destinations ++ [defaultDestination new.destinationId] })

/-! ## The configuration -/

/-- The transaction: the row is updated or created, and its sources are replaced. -/
def persistConfig (new : NewRows) (w : BackupWorld) (app : Application) (enabled : Bool)
    (retentionVersions : ℤ) (scheduleCron : Option JsString) (destinationId : JsString)
    (sources : List BackupSourceConfig) : BackupConfig × BackupWorld :=
  match w.configOf app with
  | some config =>
    let updated := { config with enabled, retentionVersions, scheduleCron, destinationId, sources }
    (updated, { w with configs := w.configs.map fun row =>
      if row.id = config.id then updated else row })
  | none =>
    let created := { id := new.configId, application := app, enabled, retentionVersions
                     scheduleCron, destinationId, sources, createdAt := new.createdAt }
    (created, { w with configs := w.configs ++ [created] })

/-- `updateBackupConfig`. -/
def updateBackupConfig (host : TextHost) (backup : BackupHost) (new : NewRows) (w : BackupWorld)
    (applicationId : JsString) (input : BackupConfigInput) :
    Except BackupFailure BackupConfig × BackupWorld :=
  match w.applications.find? fun app => app.id = applicationId || app.name = applicationId with
  | none => (.error (domainError (js "Application '" ++ applicationId ++ js "' not found")
      "APPLICATION_NOT_FOUND"), w)
  | some app =>
    let retentionVersions := input.retentionVersions.getD (.ofNat 3)
    let scheduleCron := trimmed input.scheduleCron
    if isIntegerBetween 1 100 retentionVersions = false then
      (.error (backupConfigInvalidError
        (js "Retention versions must be an integer between 1 and 100")), w)
    else if (scheduleCron.all validateCronExpression) = false then
      (.error (backupConfigInvalidError (js "Invalid scheduleCron syntax")), w)
    else
      match chooseDestination backup new w app input.destinationId with
      | (.error e, w) => (.error e, w)
      | (.ok destinationId, w) =>
        if input.sources = [] then
          (.error (backupSourceInvalidError (js "At least one backup source must be configured")), w)
        else
          match validateSources host [] input.sources with
          | .error e => (.error e, w)
          | .ok sources =>
            let (config, w) := persistConfig new w app (!input.disabled) retentionVersions.toNat
              scheduleCron destinationId sources
            (.ok config, w)

end ZimaControl
