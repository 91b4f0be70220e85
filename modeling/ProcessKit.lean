import ProcessKit.Transition
import ProcessKit.Runtime.Hub
import ProcessKit.Runtime.Step
import ProcessKit.Runtime.Wakeup
import ProcessKit.Runtime.Bridge
import ProcessKit.Runtime.Delivery
import ProcessKit.Running.Handle
import ProcessKit.Running.Ownership
import ProcessKit.Running.Teardown
import ProcessKit.Running.Uncaptured
import ProcessKit.Running.Events
import ProcessKit.FairLock
import ProcessKit.Running.Iterators
import ProcessKit.Running.IteratorLaws
import ProcessKit.Running.JsonLines
import ProcessKit.Running.Stdin
import ProcessKit.Group
import ProcessKit.Locks
import ProcessKit.Running.SlotLock
import ProcessKit.Guards
import ProcessKit.Runtime.Blocking
import ProcessKit.Runtime.Fork
import ProcessKit.Runtime.Lazy
import ProcessKit.Runtime.AwaitLock
import ProcessKit.Runner.When
import ProcessKit.Runner.Scripted
import ProcessKit.Runner.Batch
import ProcessKit.Supervisor
import ProcessKit.Client
import ProcessKit.Tee.Text
import ProcessKit.Tee.Write
import ProcessKit.Tee.Sink
import ProcessKit.Aio.Retry
import ProcessKit.Aio.Reports
import ProcessKit.Aio.Http
import ProcessKit.Aio.Connection
import ProcessKit.Aio.Stream
import ProcessKit.Aio.StreamLaws
import ProcessKit.Aio.StreamConsumed
import ProcessKit.Aio.StreamOrder
import ProcessKit.Running.Tail
import ProcessKit.Python.Str
import ProcessKit.Python.Lines
import ProcessKit.Python.IpAddress
import ProcessKit.Aio.Request
import ProcessKit.Aio.Waiting
import ProcessKit.Aio.Quiesced
import ProcessKit.Aio.Polled
import ProcessKit.Cli.Environment
import ProcessKit.Cli.Exit
import ProcessKit.Effects
import ProcessKit.Cli.Wrapper
import ProcessKit.Cli.Configure
import ProcessKit.Cli.Run
import ProcessKit.Cli.RunLaws
import ProcessKit.Cli.RunContract
import ProcessKit.Cli.Supervise
import ProcessKit.Cli.SuperviseContract
import ProcessKit.Cli.Doctor
import ProcessKit.Cli.Entry
import ProcessKit.Release.Changelog
import ProcessKit.Release.Generated
import ProcessKit.Release.Normalised
import ProcessKit.Release.Notes
import ProcessKit.Release.Steps
import ProcessKit.Release.Compose
import ProcessKit.Python.Attributes
import ProcessKit.Errors
import ProcessKit.Pickle
import ProcessKit.PrefixCode
import ProcessKit.Values
import ProcessKit.Command
import ProcessKit.Shared
import ProcessKit.Runner.Reconfigure
