import ElCarro.Lib.Runs
import ElCarro.Lib.SharedEnv
import ElCarro.Lib.Optimistic
import ElCarro.Lib.Rfc3339
import ElCarro.Lib.GoTime
import ElCarro.K8s.Api
import ElCarro.K8s.Condition
import ElCarro.Api.Types
import ElCarro.Lro.Job
import ElCarro.Lro.Server
import ElCarro.Lro.JobMap
import ElCarro.Cron.Types
import ElCarro.Cron.Reconcile
import ElCarro.Cron.Isolation
import ElCarro.Backup.Location
import ElCarro.Backup.Staging
import ElCarro.BackupSchedule.Reconcile
import ElCarro.BackupSchedule.Ownership
import ElCarro.Instance.Disks
import ElCarro.Instance.FindBackup
import ElCarro.Instance.SnapshotRestore
import ElCarro.Pitr.Log
import ElCarro.Pitr.Storage
import ElCarro.Pitr.Agent
import ElCarro.Pitr.Replicas
import ElCarro.Pitr.Update
import ElCarro.Pitr.Recovery
import ElCarro.Pitr.Retention
import ElCarro.Instance.Datapatch
import ElCarro.Instance.DatapatchAttempts
import ElCarro.Instance.World
import ElCarro.Instance.Lifecycle
import ElCarro.Instance.Patching
import ElCarro.Instance.Restore
import ElCarro.Instance.Creation
import ElCarro.Instance.Reconcile
import ElCarro.Instance.MaintenanceLock
import ElCarro.Instance.Quiet
import ElCarro.Instance.Preamble
import ElCarro.Instance.Building
import ElCarro.Instance.Attempts
import ElCarro.Instance.BackupGate
import ElCarro.Instance.RecoveryGate
import ElCarro.Instance.RebuildGate
import ElCarro.Cron.Schedule
import ElCarro.Lib.DelayQueue
import ElCarro.Cron.Wakeup
import ElCarro.Cron.History
import ElCarro.Instance.RestoreView
import ElCarro.Instance.RestoreLaunch
import ElCarro.Instance.RestoreLock
import ElCarro.Instance.RestoreOnce
import ElCarro.Database.Reconcile
import ElCarro.Database.Deletion
import ElCarro.Lib.Checksum
import ElCarro.Pitr.Sync
import ElCarro.Instance.Pause
import ElCarro.Instance.ParameterMachine
import ElCarro.Instance.ParameterRollback
import ElCarro.Database.UserRepository
import ElCarro.Instance.ParameterCheck
import ElCarro.Database.Privileges
import ElCarro.Database.Passwords
import ElCarro.Instance.Midway
import ElCarro.Backup.Completion
import ElCarro.Instance.BackupID
import ElCarro.Instance.PatchedImages
import ElCarro.Database.Statements
import ElCarro.Database.Suppression
import ElCarro.Database.CreateDatabase
import ElCarro.Database.PasswordLog
import ElCarro.Database.Execution
import ElCarro.Database.Detail
import ElCarro.Database.Completeness
import ElCarro.Database.UserReady
import ElCarro.Backup.Removal
import ElCarro.Backup.Operation
import ElCarro.Daemon.Environment
import ElCarro.Standby.Verify
import ElCarro.Standby.Machine
import ElCarro.Standby.Moves
import ElCarro.Standby.History
import ElCarro.Instance.FailedImages
import ElCarro.Instance.RestoreDeletion
import ElCarro.Instance.RestoreBackup
import ElCarro.Instance.Incarnations
import ElCarro.Lro.Publication
import ElCarro.Lro.Report
import ElCarro.DataPump.Reconcile
import ElCarro.Lro.Retention
import ElCarro.DataPump.System
import ElCarro.DataPump.Executions
import ElCarro.Gcs.Path
import ElCarro.Gcs.Transfer
import ElCarro.Gcs.Naming
import ElCarro.Lib.FileTree
import ElCarro.Gcs.Bucket
import ElCarro.Gcs.RoundTrip
import ElCarro.Gcs.Deletion
import ElCarro.Backup.RestorePieces
import ElCarro.Backup.Provenance
import ElCarro.Cron.Unmet
import ElCarro.Cron.Admission
import ElCarro.Cron.Cleanup
import ElCarro.Lib.WorkerPool
import ElCarro.Pitr.Staging
import ElCarro.Pitr.Controller
import ElCarro.Instance.Bystanders
import ElCarro.Instance.Provision
import ElCarro.Instance.Readiness
import ElCarro.Backup.WriteAhead
import ElCarro.Instance.RecordedParameters
import ElCarro.Daemon.CreateCDB
import ElCarro.Instance.ProtectedParameters
import ElCarro.BackupSchedule.Convergence
import ElCarro.BackupSchedule.Retention
import ElCarro.Cron.Deadline
import ElCarro.Instance.RestoreRequest
import ElCarro.Pitr.InitialBackup
import ElCarro.Instance.LatestBackup
import ElCarro.Lib.FileMap
import ElCarro.Pitr.SimpleStore
import ElCarro.Pitr.LogDirectory
import ElCarro.Pitr.Merge
import ElCarro.Pitr.CleanUp
import ElCarro.Instance.MaintenanceWindow
import ElCarro.Lib.Paging
import ElCarro.Lro.Listing
import ElCarro.Instance.DiskNames
import ElCarro.Backup.BackupIDs
import ElCarro.Backup.SnapshotStatus
import ElCarro.Lib.Scanner
import ElCarro.Backup.BackupScn
import ElCarro.DataPump.ExitStatus
import ElCarro.Backup.SectionSize
import ElCarro.Database.RepeatedReconciles
import ElCarro.Instance.DiskResize
import ElCarro.Database.Queries
import ElCarro.Database.Unquoted
import ElCarro.DataPump.Tablespaces
import ElCarro.Lib.Float64
import ElCarro.Lib.LastWrites
import ElCarro.Lib.RowBuffer
import ElCarro.Monitoring.Metrics
import ElCarro.Monitoring.Provenance
import ElCarro.Ns.Mapper
import ElCarro.Standby.Metadata
import ElCarro.Lib.Dialogue
import ElCarro.Lib.Regexp
import ElCarro.Standby.Broker
import ElCarro.Standby.DataGuard
import ElCarro.Standby.Promotion
import ElCarro.Standby.SetUp
import ElCarro.Lib.LinkedFiles
import ElCarro.Provision.ConfigFiles
import ElCarro.Provision.MemInfo
import ElCarro.Provision.Moves
import ElCarro.Provision.Relocation
