import ChangesCI.Models
import ChangesCI.Jobs.SyncJob
import ChangesCI.Jobs.SyncJobSteps
import ChangesCI.Jobs.SyncJobBuild
import ChangesCI.Jobs.SyncJobQueue
import ChangesCI.Jobs.SyncJobRows
import ChangesCI.Jobs.SyncJobReliable
import ChangesCI.Api.CommandDetails
import ChangesCI.Api.CommandReports
import ChangesCI.Api.CommandExpansion
import ChangesCI.Api.CommandDates
import ChangesCI.Listeners.GreenBuild
import ChangesCI.Listeners.GreenBuildRuns
import ChangesCI.Listeners.GreenBuildHandler
import ChangesCI.Listeners.GreenBuildSerial
