import MyDiffbot.Numeric.SquareWave
import MyDiffbot.Numeric.Approach
import MyDiffbot.Numeric.Braking
import MyDiffbot.Protocol.Reference
import MyDiffbot.Protocol.ErrorDetection
import MyDiffbot.Protocol.LedFlips
import MyDiffbot.Incremental.Scanner
import MyDiffbot.Transport.Serial
import MyDiffbot.Transport.Receive
import MyDiffbot.Transport.Batches
import MyDiffbot.Incremental.Machine
import MyDiffbot.Incremental.Trace
import MyDiffbot.Incremental.Streams
import MyDiffbot.Incremental.Tracker
import MyDiffbot.Incremental.Memory
import MyDiffbot.Incremental.Streak
import MyDiffbot.Incremental.Window
import MyDiffbot.Incremental.Arrival
import MyDiffbot.Incremental.Heading
import MyDiffbot.Incremental.Refresh
import MyDiffbot.Incremental.Conversation
import MyDiffbot.Incremental.Loop
import MyDiffbot.Incremental.Thinning
import MyDiffbot.Link.Net
import MyDiffbot.Link.Agreement
import MyDiffbot.Transport.Kestrel
import MyDiffbot.Transport.AckWait
import MyDiffbot.Transport.Reconnect
import MyDiffbot.Transport.Telemetry
import MyDiffbot.Transport.Direction
import MyDiffbot.Transport.Connection
import MyDiffbot.Transport.Decoding
import MyDiffbot.Transport.Outbound
import MyDiffbot.Transport.Stream
import MyDiffbot.System.Hardware
import MyDiffbot.System.Cycle
import MyDiffbot.System.Effects
import MyDiffbot.System.Lifecycle
import MyDiffbot.System.Diffbot
import MyDiffbot.System.Odometry
import MyDiffbot.System.Conservation
import MyDiffbot.System.WheelCommands
import MyDiffbot.System.Quiet
import MyDiffbot.System.StopGrace
import MyDiffbot.System.Tuning
import MyDiffbot.System.TuningPaths
import MyDiffbot.System.WheelSpeed
import MyDiffbot.System.MeasuredSpeed
import MyDiffbot.System.Diagnostics
import MyDiffbot.System.Staleness
import MyDiffbot.System.Orientation
import MyDiffbot.System.GpioConversions
import MyDiffbot.System.LedCache
import MyDiffbot.System.Wire
import MyDiffbot.System.Reception
import MyDiffbot.Benchmark.Pose
import MyDiffbot.Benchmark.Gate
import MyDiffbot.Planar.Motion
import MyDiffbot.Planar.Turn
import MyDiffbot.Benchmark.Motion
import MyDiffbot.Benchmark.Arena
import MyDiffbot.Benchmark.Primitives
import MyDiffbot.Benchmark.Turning
import MyDiffbot.Benchmark.Driving
import MyDiffbot.Benchmark.Stall
import MyDiffbot.Benchmark.Commands
import MyDiffbot.Benchmark.Obstacle
import MyDiffbot.Benchmark.Cloud
import MyDiffbot.Benchmark.Registration
import MyDiffbot.Benchmark.Locate
import MyDiffbot.Benchmark.Evaluation
import MyDiffbot.Benchmark.Square
