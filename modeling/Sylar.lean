import Sylar.Kernel.Epoll
import Sylar.Scheduler.Queue
import Sylar.Scheduler.Worker
import Sylar.Scheduler.Placement
import Sylar.Scheduler.Stop
import Sylar.IOManager.Context
import Sylar.IOManager.Ops
import Sylar.IOManager.Run
import Sylar.IOManager.Bookkeeping
import Sylar.IOManager.Table
import Sylar.IOManager.Interest
import Sylar.IOManager.Events
import Sylar.Timer.Manager
import Sylar.Hook.FdTable
import Sylar.Hook.Io
import Sylar.Hook.Reactor
import Sylar.Hook.Timeouts
import Sylar.Hook.Returns
import Sylar.Mutex.Semaphore
import Sylar.Http.ConnectionPool
import Sylar.Address.Prefix
import Sylar.Address.Text
import Sylar.Config.Names
import Sylar.Address.Sockaddr
import Sylar.Address.Lookup
import Sylar.Http.Recv
import Sylar.Config.ConfDir
import Sylar.Thread.Start
import Sylar.Http.Request
