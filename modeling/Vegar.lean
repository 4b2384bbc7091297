import Vegar.Lib.Machine
import Vegar.Lib.Roster
import Vegar.Lib.Circular
import Vegar.Lib.Usize
import Vegar.Lib.Memory
import Vegar.Lib.Source
import Vegar.Lib.Blocks
import Vegar.Outcome
import Vegar.Text
import Vegar.File.RingBuffer
import Vegar.File.Pipe
import Vegar.File.PipeStream
import Vegar.File.PipeEnds
import Vegar.File.PipeFits
import Vegar.File.PipeProgress
import Vegar.File.Stdin
import Vegar.Mm.AddrSpace
import Vegar.Mm.UserPtr
import Vegar.Mm.UserString
import Vegar.Mm.UserAccess
import Vegar.Mm.Loader
import Vegar.Lib.Chain
import Vegar.Mm.LoaderChain
import Vegar.Mm.ScriptLine
import Vegar.Mm.Mmap
import Vegar.Mm.Munmap
import Vegar.Mm.RangeCalls
import Vegar.Mm.ElfImage
import Vegar.Mm.FileMapping
import Vegar.Mm.MappingRuns
import Vegar.Mm.UserMemory
import Vegar.File.Vectored
import Vegar.File.VectoredFailure
import Vegar.Task.ExecProgram
import Vegar.Task.ExecImage
import Vegar.Task.ExecSpaces
import Vegar.Task.ExecFailure
import Vegar.Task.ExecArgument
import Vegar.Task.Execve
import Vegar.Task.ExecAddresses
import Vegar.File.FlattenObjects
import Vegar.File.FdTable
import Vegar.File.FdLedger
import Vegar.File.FdCalls
import Vegar.File.FdSurvival
import Vegar.Lib.Atomic
import Vegar.Lib.Blanks
import Vegar.File.FdSteps
import Vegar.File.FdUnfinished
import Vegar.File.FdAtomic
import Vegar.File.Dup
import Vegar.Task.Clone
import Vegar.Task.Descriptors
import Vegar.Task.PipeWorld
import Vegar.Task.PipePeers
import Vegar.Task.CloneSignal
import Vegar.Task.Brk
import Vegar.Task.SignalMask
import Vegar.Task.Sigsuspend
import Vegar.Task.Timeout
import Vegar.Task.SignalBuffers
import Vegar.Task.TimeStat
import Vegar.Task.IntervalTimer
import Vegar.Task.CpuTimes
import Vegar.Lib.Framed
import Vegar.Fs.Dirent
import Vegar.Fs.Getdents
import Vegar.Path.Hardlink
import Vegar.Path.RefCounts
import Vegar.Path.CreateLink
import Vegar.Lib.Redirect
import Vegar.Lib.Separated
import Vegar.Lib.Resolved
import Vegar.Path.FilePath
import Vegar.Path.Linkat
import Vegar.Path.Canonical
import Vegar.Fs.Mount
import Vegar.Fs.MountTree
import Vegar.Fs.Stat
import Vegar.Task.FutexTable
import Vegar.Task.Futex
import Vegar.Task.FutexGuards
import Vegar.Task.FutexCalls
import Vegar.Task.FutexSteps
import Vegar.Task.FutexRequeue
import Vegar.Task.FutexSharing
import Vegar.Task.FutexTokens
import Vegar.Task.Wait
import Vegar.Task.Reaping
import Vegar.Task.ChildExit
import Vegar.Task.GroupExit
import Vegar.Lib.Registry
import Vegar.Task.TaskTable
import Vegar.Task.Kill
import Vegar.Task.SignalSenders
import Vegar.Task.Nanosleep
import Vegar.File.Lseek
import Vegar.File.PipePoll
import Vegar.File.PipeWriteResult
import Vegar.Fs.DirBuffer
import Vegar.Fs.GetdentsFailure
import Vegar.Mm.NullTerminated
import Vegar.Net.ByteOrder
import Vegar.Net.SocketAddr
import Vegar.Net.SocketAccess
import Vegar.Lib.BoundedQueue
import Vegar.File.RingQueue
import Vegar.Path.Decomposition
