import Kernelflut.Foundations.Runs
import Kernelflut.Foundations.Overwrites
import Kernelflut.Foundations.FifoDelivery
import Kernelflut.Foundations.CountedLoop
import Kernelflut.Foundations.CyclicTurns
import Kernelflut.Foundations.Handles
import Kernelflut.Foundations.Text
import Kernelflut.Foundations.Scanning
import Kernelflut.Foundations.Getopt
import Kernelflut.Foundations.Strtol
import Kernelflut.Pixelflut.Pixel
import Kernelflut.CommandLine
import Kernelflut.Foundations.MachineInt
import Kernelflut.Foundations.Merging
import Kernelflut.Pixelflut.Visits
import Kernelflut.Driver.DirtyRects
import Kernelflut.Evdi.Framebuffers
import Kernelflut.Foundations.LittleEndian
import Kernelflut.Foundations.ByteMemory
import Kernelflut.Driver.CopyPixels
import Kernelflut.Driver.Cursor
import Kernelflut.Driver.DrmEvents
import Kernelflut.Driver.Painter
import Kernelflut.Foundations.Mirroring
import Kernelflut.Driver.Damage
import Kernelflut.Pixelflut.Client
import Kernelflut.Pixelflut.SetBuf
import Kernelflut.Pixelflut.Contract
import Kernelflut.Loop.Iteration
import Kernelflut.Loop.OneRectangle
import Kernelflut.Loop.FailedGrabs
import Kernelflut.EndToEnd
import Kernelflut.Evdi.Lifecycle
import Kernelflut.Evdi.Wait
import Kernelflut.Foundations.LinkedLists
import Kernelflut.LibEvdi.Events
import Kernelflut.LibEvdi.FrameBuffers
import Kernelflut.LibEvdi.Requests
import Kernelflut.Loop.RectangleLists
import Kernelflut.Loop.Background
import Kernelflut.Loop.Convergence
import Kernelflut.Loop.PerformanceTest
import Kernelflut.Loop.PlainPath
import Kernelflut.Pixelflut.Balance
import Kernelflut.Pixelflut.IndexArithmetic
import Kernelflut.Pixelflut.LostWrites
import Kernelflut.Pixelflut.Pool
import Kernelflut.Pixelflut.Protocol
import Kernelflut.Pixelflut.Streams
import Kernelflut.Pixelflut.Padding
import Kernelflut.Pixelflut.Repaint
import Kernelflut.Pixelflut.Size
import Kernelflut.Pixelflut.Replies
import Kernelflut.Pixelflut.SendBuffers
import Kernelflut.Pixelflut.Sessions
import Kernelflut.Pixelflut.Sockets
import Kernelflut.Pixelflut.Staggering
