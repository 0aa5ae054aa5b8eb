import TateyamaBootstrap.ConnectionSlots
import TateyamaBootstrap.ConnectionAdmission
import TateyamaBootstrap.ConnectionOutcome
import TateyamaBootstrap.ProcMutex
import TateyamaBootstrap.ProcMutexProbes
import TateyamaBootstrap.ProcMutexContents
import TateyamaBootstrap.WireFifo
import TateyamaBootstrap.WirePayload
import TateyamaBootstrap.WireWritable
import TateyamaBootstrap.SessionWire
import TateyamaBootstrap.SessionSection
import TateyamaBootstrap.SessionWakeups
import TateyamaBootstrap.SessionCore
import TateyamaBootstrap.SessionShutdown
import TateyamaBootstrap.SessionDemux
import TateyamaBootstrap.ResultSetCell
import TateyamaBootstrap.ResultSetDelivery
import TateyamaBootstrap.ResultSetReuse
import TateyamaBootstrap.ResultSetClose
import TateyamaBootstrap.WireFlags
import TateyamaBootstrap.WireWaits
import TateyamaBootstrap.ResultSetWaits
import TateyamaBootstrap.DelimitedFraming
import TateyamaBootstrap.TransportSend
import TateyamaBootstrap.ServerCalls
import TateyamaBootstrap.ProcessReports
import TateyamaBootstrap.ProcessKills
import TateyamaBootstrap.StartPolling
import TateyamaBootstrap.BackupReports
import TateyamaBootstrap.BackupBracket
import TateyamaBootstrap.BackupExit
import TateyamaBootstrap.MaintenanceServer
import TateyamaBootstrap.MonitorLines
import TateyamaBootstrap.ServiceReports
import TateyamaBootstrap.InstanceId
import TateyamaBootstrap.Prompt
import TateyamaBootstrap.Base64
import TateyamaBootstrap.ResultSetChunk
import TateyamaBootstrap.ResultSetAcquire
import TateyamaBootstrap.PidLookup
import TateyamaBootstrap.ExpirationDates
import TateyamaBootstrap.MetricsJson
import TateyamaBootstrap.SessionReferences
import TateyamaBootstrap.Credentials
import TateyamaBootstrap.WaitTimeouts
import TateyamaBootstrap.WireProgress
import TateyamaBootstrap.SessionSend
import TateyamaBootstrap.SessionNames
import TateyamaBootstrap.TransportLifetime
import TateyamaBootstrap.AuthenticationUrl
import TateyamaBootstrap.Authenticate
import TateyamaBootstrap.ConfigCommand
import TateyamaBootstrap.ConnectionWakeups
import TateyamaBootstrap.BackendServers
import TateyamaBootstrap.StartInTime
import TateyamaBootstrap.SessionExchange
import TateyamaBootstrap.RemoteCall
