import CorelinkRunners.Ledger.Fence
import CorelinkRunners.Pg.Agreement
import CorelinkRunners.Pg.Repeats
import CorelinkRunners.Scheduler.RoundRobin
import CorelinkRunners.Scheduler.Turns
import CorelinkRunners.Billing.Push
import CorelinkRunners.Billing.Backlog
import CorelinkRunners.Envelope.Protocol
import CorelinkRunners.Server.Calendar
import CorelinkRunners.Server.Breaker
import CorelinkRunners.Server.Accounting
import CorelinkRunners.Server.Park
import CorelinkRunners.Server.Requeue
import CorelinkRunners.Containment.Redrive
import CorelinkRunners.Compute.LifeCycle
import CorelinkRunners.Credentials.Outbox
import CorelinkRunners.Monitor.WitnessHead
import CorelinkRunners.Intake.Exact
import CorelinkRunners.Monitor.Silence
import CorelinkRunners.Monitor.MemoryScan
import CorelinkRunners.DevEnv.Tombstones
import CorelinkRunners.Server.Shard
import CorelinkRunners.Credentials.Stash
import CorelinkRunners.Runner.Util
import CorelinkRunners.CloudEngine.Northflank
