import DistroSync.Attribution
import DistroSync.Balance
import DistroSync.BoundedDelivery
import DistroSync.Cluster
import DistroSync.ConnectionStream
import DistroSync.Connections
import DistroSync.Drain
import DistroSync.DlqBalance
import DistroSync.DlqInspection
import DistroSync.Eviction
import DistroSync.EvictionPass
import DistroSync.FirstDelivery
import DistroSync.HttpApi
import DistroSync.HttpBytes
import DistroSync.Interleaving
import DistroSync.Isolation
import DistroSync.Leases
import DistroSync.MetricsHistory
import DistroSync.Overtaking
import DistroSync.ProducerClient
import DistroSync.Reset
import DistroSync.Simulation
import DistroSync.Submission
import DistroSync.Timestamps
import DistroSync.WorkerPairing
