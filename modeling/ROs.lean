import ROs.Framebuffer.Buffer
import ROs.Framebuffer.Console
import ROs.Framebuffer.ConsoleGrid
import ROs.Framebuffer.ConsoleSheet
import ROs.Framebuffer.Draw
import ROs.Framebuffer.Format
import ROs.Framebuffer.Grid
import ROs.Framebuffer.Outline
import ROs.Framebuffer.Pixel
import ROs.Framebuffer.PixelLaws
import ROs.Framebuffer.Reading
import ROs.Framebuffer.Sheet
import ROs.Lib.Align
import ROs.Lib.Bits
import ROs.Lib.Brackets
import ROs.Lib.Cyclic
import ROs.Lib.Feed
import ROs.Lib.Fifo
import ROs.Lib.Layer
import ROs.Lib.Loop
import ROs.Lib.MachineInt
import ROs.Lib.Numeral
import ROs.Lib.Region
import ROs.Lib.Trace
import ROs.Memory.Enumeration
import ROs.Memory.Frames
import ROs.Memory.Paging
import ROs.Mouse.Packet
import ROs.Mouse.Stream
import ROs.Queue.Ring
import ROs.Shell.Decimal
import ROs.Shell.Echo
import ROs.Shell.Enter
import ROs.Shell.Keys
import ROs.Shell.Line
import ROs.Shell.Net
import ROs.System.Boot
import ROs.System.Counter
import ROs.System.Heap
import ROs.System.Input
import ROs.System.Invariant
import ROs.System.Next
import ROs.System.Progress
import ROs.System.Regions
import ROs.System.Responses
import ROs.System.Round
import ROs.System.Started
import ROs.System.Runs
import ROs.System.Tasks
import ROs.System.TextTask
import ROs.System.Turns
import ROs.Task.Interrupts
import ROs.Task.Kernel
import ROs.Task.Layout
import ROs.Task.Machine
import ROs.Task.Resume
import ROs.Task.RoundRobin
import ROs.Task.Scheduler
import ROs.Wm.Chrome
import ROs.Wm.Click
import ROs.Wm.Cursor
import ROs.Wm.Desktop
import ROs.Wm.Focus
import ROs.Wm.Hosts
import ROs.Wm.Manager
import ROs.Wm.Memmap
import ROs.Wm.Painter
import ROs.Wm.Running
import ROs.Wm.Session
import ROs.Wm.Shown
import ROs.Wm.Stale
import ROs.Wm.Statics
import ROs.Wm.Stride
import ROs.Wm.Text
import ROs.Wm.TextCursor
import ROs.Wm.Window
