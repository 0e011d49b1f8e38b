import TetraOS.Library.ByteMemory
import TetraOS.Library.ByteLists
import TetraOS.Library.TableTree
import TetraOS.Library.Riscv
import TetraOS.Library.BumpBlocks
import TetraOS.Library.LinkedList
import TetraOS.Library.MemoryProgram
import TetraOS.Library.RegisterProgram
import TetraOS.Memory.Machine
import TetraOS.Memory.PhysicalAllocator
import TetraOS.Memory.FrameRuns
import TetraOS.Memory.Paging
import TetraOS.Memory.EntryEncoding
import TetraOS.Memory.PageTree
import TetraOS.Memory.PagingInit
import TetraOS.Memory.FlagSource
import TetraOS.Memory.Exhaustion
import TetraOS.Memory.MapRefinement
import TetraOS.Memory.AddressSpace
import TetraOS.Memory.DirectMap
import TetraOS.Memory.EntryStores
import TetraOS.Memory.LiveTables
import TetraOS.Memory.RecycledFrames
import TetraOS.Memory.VirtualAllocator
import TetraOS.Memory.KernelHeap
import TetraOS.Memory.Boot
import TetraOS.Memory.HeapRuns
import TetraOS.Memory.BootCode
import TetraOS.Memory.BootMapping
import TetraOS.Memory.BootEntry
import TetraOS.Memory.EarlyInit
import TetraOS.Memory.Aliasing
import TetraOS.Memory.Contiguity
import TetraOS.Memory.HeapGrowth
import TetraOS.Memory.Copying
import TetraOS.Drivers.BlockRead
import TetraOS.Drivers.Virtqueue
import TetraOS.Drivers.RequestRuns
import TetraOS.Drivers.RequestWidths
import TetraOS.Drivers.AtomicTransfers
import TetraOS.Drivers.DeviceSetup
import TetraOS.Drivers.Ext2
import TetraOS.Drivers.FileContent
import TetraOS.Drivers.Failures
import TetraOS.Drivers.InodeTable
import TetraOS.Drivers.Paths
import TetraOS.Drivers.Slashes
import TetraOS.Drivers.Directory
import TetraOS.Drivers.FileTree
import TetraOS.Drivers.Requests
import TetraOS.Drivers.BlockOffsets
import TetraOS.Processes.Segments
import TetraOS.Processes.Scheduler
import TetraOS.Processes.LowerHalf
import TetraOS.Processes.Loading
import TetraOS.Processes.ProcessImage
import TetraOS.Processes.Interference
import TetraOS.Processes.KernelHalf
import TetraOS.Processes.SharedPages
import TetraOS.Processes.Placement
import TetraOS.Processes.SystemCall
import TetraOS.Processes.BlockLayout
import TetraOS.Processes.HeapObjects
import TetraOS.Processes.WorkingDirectory
import TetraOS.Processes.ProcessList
import TetraOS.Processes.SchedulerRuns
import TetraOS.Processes.CurrentDirectory
import TetraOS.Processes.Dispatch
import TetraOS.Libc.Malloc
import TetraOS.Libc.Blocks
import TetraOS.Console.Printf
import TetraOS.Libc.PrintfBuffer
import TetraOS.Console.NegativeNumbers
import TetraOS.Console.Logging
import TetraOS.Console.AllocatorLog
import TetraOS.Console.Write
import TetraOS.Console.LongWrites
import TetraOS.Console.LineInput
import TetraOS.Console.Uart
import TetraOS.Console.UserPrintf
import TetraOS.Console.Traps
import TetraOS.Libc.StringOrder
import TetraOS.Libc.ProgramHeap
import TetraOS.Console.Shell
import TetraOS.Console.Getcwd
import TetraOS.Console.PrivilegeModes
