import JobMon.Config.Restart
import JobMon.Cache.Complete
import JobMon.Store.LostStop
import JobMon.Router.Lifetime
import JobMon.Router.Transparent
import JobMon.Router.InLife
import JobMon.Router.Operable
import JobMon.Frontend.NodeRange
import JobMon.Frontend.JobFilter
import JobMon.Frontend.JobView
import JobMon.Influx.MeanMax
import JobMon.Influx.Series
import JobMon.Influx.LiveSeries
import JobMon.Influx.TaskList
import JobMon.Store.Filter
import JobMon.Store.Search
import JobMon.Router.FilterParams
import JobMon.Router.Partitions
import JobMon.Router.Injection
import JobMon.Scripts.Reported
import JobMon.Auth.Roles
import JobMon.Auth.Revocation
import JobMon.Frontend.TagPanel
import JobMon.Frontend.TagLink
import JobMon.Frontend.JobPages
import JobMon.Router.IntervalSelector
import JobMon.Router.PartitionChoice
import JobMon.Router.MetricDeletion
import JobMon.Router.ConfigAnswers
import JobMon.Store.TagTables
import JobMon.Router.TagSearch
import JobMon.Store.Sweep
import JobMon.Influx.ChangePoints
import JobMon.Router.QueryInterval
import JobMon.Router.NodeSelection
import JobMon.Utils.WebLogger
import JobMon.Router.OneWriter
import JobMon.Frontend.ThreadPairs
import JobMon.Frontend.DragRange
import JobMon.Frontend.Tooltip
import JobMon.Frontend.LineChart
import JobMon.Frontend.LiveWindow
import JobMon.Frontend.Pagination
import JobMon.Frontend.JobOrder
import JobMon.Frontend.Statistics
import JobMon.Frontend.Units
import JobMon.Frontend.PartitionSettings
import JobMon.Frontend.MetricSettings
import JobMon.Frontend.NodeText
