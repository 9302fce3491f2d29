import EventBus.Delivery.Accounting
import EventBus.Delivery.SettlementBudget
import EventBus.Facade.WorkerPermits
import EventBus.Local.Consistent
import EventBus.Local.Drain
import EventBus.Local.Exhaustion
import EventBus.Local.PublishOrder
import EventBus.Local.QueueEntries
import EventBus.Local.RetryOrder
import EventBus.Local.RoundRobin
import EventBus.Local.Twins
import EventBus.Local.Wakeups
import EventBus.Notification.Conservation
import EventBus.Publish.Evidence
import EventBus.Publish.Prepare
import EventBus.Scheduler.Dispatch
import EventBus.Scheduler.Gauges
import EventBus.Scheduler.Leases
import EventBus.Session.Lease
import EventBus.Shutdown.Isolation
import EventBus.Shutdown.Tickets
