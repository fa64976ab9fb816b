import MeerklyHeadless.TransitionRuns
import MeerklyHeadless.JsonSchema
import MeerklyHeadless.JsonText
import MeerklyHeadless.JsonRoundTrip
import MeerklyHeadless.TextFiles
import MeerklyHeadless.PythonText
import MeerklyHeadless.ListCut
import MeerklyHeadless.UrlSplit
import MeerklyHeadless.PrivateAddress
import MeerklyHeadless.ProxyOptions
import MeerklyHeadless.ProxyUserinfo
import MeerklyHeadless.ProxySecrecy
import MeerklyHeadless.PercentEncoding
import MeerklyHeadless.ProxyRoundTrip
import MeerklyHeadless.Ipv4Standard
import MeerklyHeadless.AddressRanges
import MeerklyHeadless.UrlCheck
import MeerklyHeadless.BrowserAuthority
import MeerklyHeadless.HostSpelling
import MeerklyHeadless.HostMapping
import MeerklyHeadless.ExceptionState
import MeerklyHeadless.FetchSpec
import MeerklyHeadless.FetchContract
import MeerklyHeadless.GatewayDispatch
import MeerklyHeadless.GatewayFrames
import MeerklyHeadless.GatewayClient
import MeerklyHeadless.GatewayHandlerMoves
import MeerklyHeadless.GatewaySteps
import MeerklyHeadless.GatewayHandlers
import MeerklyHeadless.GatewayBackoff
import MeerklyHeadless.GatewayConnections
import MeerklyHeadless.GatewayReadiness
import MeerklyHeadless.GatewayReconnects
import MeerklyHeadless.CrawlText
import MeerklyHeadless.CrawlEngine
import MeerklyHeadless.CrawlFetch
import MeerklyHeadless.CrawlMoves
import MeerklyHeadless.CrawlBudget
import MeerklyHeadless.CrawlResults
import MeerklyHeadless.CrawlStatus
import MeerklyHeadless.CrawlStages
import MeerklyHeadless.PollingLoop
import MeerklyHeadless.RuleProbes
import MeerklyHeadless.QuietWindow
import MeerklyHeadless.DocumentPolls
import MeerklyHeadless.Overruns
import MeerklyHeadless.RuleNumbers
import MeerklyHeadless.CrawlDocuments
import MeerklyHeadless.JsonRecovery
import MeerklyHeadless.EngineProjection
import MeerklyHeadless.CrawlErrors
import MeerklyHeadless.JobIsolation
import MeerklyHeadless.CrawlDeadline
import MeerklyHeadless.SettleSnippet
import MeerklyHeadless.GatewayResults
import MeerklyHeadless.GatewayFinalUrl
import MeerklyHeadless.BrowserLifecycle
import MeerklyHeadless.BrowserSteps
import MeerklyHeadless.BrowserOwnership
import MeerklyHeadless.BrowserPages
import MeerklyHeadless.BrowserEvents
import MeerklyHeadless.BrowserClose
import MeerklyHeadless.BrowserReset
import MeerklyHeadless.BrowserGenerations
import MeerklyHeadless.MachineIdentity
import MeerklyHeadless.BoundedRetry
import MeerklyHeadless.DeviceToken
import MeerklyHeadless.TokenHistory
import MeerklyHeadless.Enrollment
import MeerklyHeadless.WorkerStartup
import MeerklyHeadless.FifoLock
import MeerklyHeadless.WorkerRuns
import MeerklyHeadless.WorkerTurns
import MeerklyHeadless.JsonCompact
import MeerklyHeadless.WireFrames
import MeerklyHeadless.LineFormat
import MeerklyHeadless.LogLines
import MeerklyHeadless.HttpText
import MeerklyHeadless.HealthProbe
import MeerklyHeadless.StartHistory
import MeerklyHeadless.ProxiedLaunches
import MeerklyHeadless.ProxyLog
import MeerklyHeadless.ProfileFiles
import MeerklyHeadless.Configuration
