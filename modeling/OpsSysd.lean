import OpsSysd.Fru.Integrity
import OpsSysd.Fru.Encoding
import OpsSysd.Manifest.Discrepancy
import OpsSysd.Daemon.PackageTable
import OpsSysd.Daemon.HardwareDone
import OpsSysd.Daemon.TransactionDiscipline
import OpsSysd.Daemon.CommitOutcome
import OpsSysd.Daemon.PackageOutcome
import OpsSysd.Daemon.PackageSafety
import OpsSysd.Daemon.Indexes
import OpsSysd.Daemon.QueueProfile
import OpsSysd.Daemon.ScheduleProfile
import OpsSysd.Timezone.Agreement
import OpsSysd.Fru.Sources
import OpsSysd.Daemon.PartialConfiguration
import OpsSysd.Daemon.ReleaseVersion
import OpsSysd.Fru.Frame
import OpsSysd.Daemon.MacPublication
import OpsSysd.Manifest.Safety
import OpsSysd.Manifest.ManagementInterface
import OpsSysd.Daemon.MissingDescriptions
import OpsSysd.Daemon.PublishedLists
import OpsSysd.Daemon.SpeedsString
import OpsSysd.Timezone.Commands
import OpsSysd.Cluster.SystemRow
import OpsSysd.Fru.Conversions
import OpsSysd.Timezone.BasePath
import OpsSysd.Timezone.Installation
import OpsSysd.Platform.Identification
import OpsSysd.Daemon.Dump
import OpsSysd.Cli.ShowSystem
import OpsSysd.Daemon.WatchedColumns
import OpsSysd.Daemon.TimezoneLink
import OpsSysd.Platform.HardwareLink
import OpsSysd.Daemon.FaultCauses
import OpsSysd.Daemon.ImagePublication
import OpsSysd.Daemon.PackageRuns
import OpsSysd.Daemon.Resting
