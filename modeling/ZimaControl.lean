import ZimaControl.Mutation.AtMostOnce
import ZimaControl.Mutation.EffectHonesty
import ZimaControl.Api.HonestOutcome
import ZimaControl.Cron.SearchExact
import ZimaControl.Runtime.SendOnce
import ZimaControl.Runtime.Frames
import ZimaControl.Daemon.Gate
import ZimaControl.Backup.ScheduledOnce
import ZimaControl.Backup.Workers
import ZimaControl.Backup.Metadata
import ZimaControl.Backup.SourceDigest
import ZimaControl.Backup.Exclusions
import ZimaControl.Backup.Promotion
import ZimaControl.Backup.ScanComplete
import ZimaControl.Backup.Archive
import ZimaControl.Backup.ArchivePaths
import ZimaControl.Backup.RetentionSafety
import ZimaControl.Daemon.Mutex
import ZimaControl.Trust.Deadlines
import ZimaControl.Trust.Mounts
import ZimaControl.Mutation.Fencing
import ZimaControl.Mutation.ParentAgreement
import ZimaControl.Mutation.PerformSettles
import ZimaControl.Mutation.RecoverySettles
import ZimaControl.Mutation.Rollback
