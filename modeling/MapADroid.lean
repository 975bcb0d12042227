import MapADroid.Lib.Run
import MapADroid.Lib.Dict
import MapADroid.Lib.Workers
import MapADroid.Lib.Trace
import MapADroid.Updater.Job
import MapADroid.Updater.Queue
import MapADroid.Updater.Invariant
import MapADroid.Updater.Reservation
import MapADroid.Updater.Requeue
import MapADroid.Updater.Places
import MapADroid.Updater.Chain
import MapADroid.Updater.Order
import MapADroid.Lib.Peeling
import MapADroid.Location
import MapADroid.Clustering.Helper
import MapADroid.Clustering.Relations
import MapADroid.Clustering.Circle
import MapADroid.Clustering.Partition
import MapADroid.Clustering.Coverage
import MapADroid.Lib.Heapq
import MapADroid.PrioQueue.Spawns
import MapADroid.PrioQueue.Queue
import MapADroid.PrioQueue.Retention
import MapADroid.Route.Pool
import MapADroid.Route.Manager
import MapADroid.Route.Invariant
import MapADroid.Route.PrioEvents
import MapADroid.Route.PassedOn
import MapADroid.Route.Recalculation
import MapADroid.Route.Rounds
import MapADroid.Route.Service
import MapADroid.Lib.Batches
import MapADroid.Stats.SeenTypes
import MapADroid.Mitm.Entry
import MapADroid.Mitm.RedisMitmMapper
import MapADroid.Mitm.MitmDataHandler
import MapADroid.Mitm.Equivalence
import MapADroid.Mitm.Races
import MapADroid.Mitm.ReceiveProtos
import MapADroid.Mitm.DataQueue
import MapADroid.Websocket.ClientEntry
import MapADroid.Websocket.Connections
import MapADroid.Websocket.Moves
import MapADroid.Websocket.Correlation
import MapADroid.Websocket.Registered
import MapADroid.Websocket.Setups
import MapADroid.Websocket.Stopping
import MapADroid.Login.RateLimit
import MapADroid.Madmin.Resources
import MapADroid.Madmin.ResourceEndpoint
import MapADroid.Madmin.Rejected
import MapADroid.Mons.Learning
import MapADroid.Mons.Precedence
import MapADroid.Mons.Spawnpoints
import MapADroid.Accounts.AccountHandler
import MapADroid.Accounts.Exclusive
import MapADroid.Worker.Registration
import MapADroid.RouteCalc.UnionFind
import MapADroid.Lib.Multigraph
import MapADroid.RouteCalc.Quick
import MapADroid.RouteCalc.SpanningTree
import MapADroid.RouteCalc.Kruskal
import MapADroid.RouteCalc.Matching
import MapADroid.RouteCalc.Tour
import MapADroid.RouteCalc.Tsp
import MapADroid.Lib.Walks
import MapADroid.RouteCalc.Circuit
import MapADroid.RouteCalc.Shortcut
import MapADroid.Lib.Totals
import MapADroid.Stats.PlayerStats
import MapADroid.Stats.StatsHandler
import MapADroid.Lib.Windows
import MapADroid.PrioQueue.Schedule
import MapADroid.Worker.Admission
import MapADroid.MappingManager.Readers
import MapADroid.MappingManager.Update
import MapADroid.Lib.Chunks
import MapADroid.Webhook.Watermark
import MapADroid.Webhook.Receivers
import MapADroid.Worker.Injection
import MapADroid.Apk.Filename
import MapADroid.Apk.Filesystem
import MapADroid.Apk.Database
import MapADroid.Apk.Serving
import MapADroid.Autoconfig.OriginGenerator
import MapADroid.Lib.Cycles
import MapADroid.Geofence.Polygon
import MapADroid.Geofence.FenceData
import MapADroid.Lib.Sql
import MapADroid.Geofence.Helper
import MapADroid.Pokestops.PokestopHelper
import MapADroid.Pokestops.Quests
import MapADroid.Pokestops.Nearby
import MapADroid.Lib.Rates
import MapADroid.Accounts.Cooldown
import MapADroid.PrioQueue.NextSpawns
import MapADroid.Mons.Despawn
import MapADroid.Stats.WildMons
import MapADroid.Route.Subroutes
import MapADroid.RouteCalc.RoutecalcUtil
import MapADroid.Lib.Methods
import MapADroid.Route.Start
import MapADroid.Updater.RedoOnError
import MapADroid.Route.Undivided
import MapADroid.Route.Progress
import MapADroid.Route.RouteStatus
import MapADroid.Route.LevelStops
import MapADroid.Worker.WalkerAreas
import MapADroid.Worker.Resumption
import MapADroid.Websocket.OnMessage
import MapADroid.Mons.Encounters
import MapADroid.MappingManager.Areamons
import MapADroid.RouteCalc.PersistedRoute
import MapADroid.Lib.HeapOrder
import MapADroid.PrioQueue.Priority
import MapADroid.Updater.Deletion
import MapADroid.Updater.Entries
import MapADroid.Lib.Retries
import MapADroid.Updater.Retries
import MapADroid.Updater.Clock
import MapADroid.Updater.Waittime
import MapADroid.Updater.Daily
import MapADroid.Apk.Upload
import MapADroid.MappingManager.Devices
import MapADroid.Apk.Wizard
import MapADroid.Accounts.GoogleLogin
import MapADroid.Mitm.Weather
import MapADroid.Worker.Softban
import MapADroid.Worker.StopProcessing
import MapADroid.Worker.Escalation
import MapADroid.Worker.Tasks
import MapADroid.Clustering.Termination
import MapADroid.Pokestops.Quests
import MapADroid.Pokestops.Nearby
import MapADroid.Lib.Cached
import MapADroid.Mitm.Threads
import MapADroid.Mitm.Grpc
import MapADroid.Mitm.Calls
import MapADroid.Mitm.Submitted
import MapADroid.Mitm.Answers
import MapADroid.Mitm.Relayed
import MapADroid.Mitm.Newest
