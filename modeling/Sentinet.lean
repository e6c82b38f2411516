import Sentinet.Messages.RoundTrip
import Sentinet.Messages.WideCopy
import Sentinet.Messages.TypedCodecs
import Sentinet.Messages.FieldLimit
import Sentinet.Messages.RmtCodec
import Sentinet.Control.PingExchange
import Sentinet.Control.PingServer
import Sentinet.Kernel.StateRequests
import Sentinet.Kernel.Velocity
import Sentinet.Kernel.MotorFeedback
import Sentinet.Filters.Localization
import Sentinet.Control.WorkerLifecycle
import Sentinet.Control.Subscriptions
import Sentinet.Network.DecoderBounds
import Sentinet.Network.PubSub
import Sentinet.Network.StaleRequests
import Sentinet.Messages.Header
import Sentinet.Messages.Acceptance
import Sentinet.Messages.Walk
import Sentinet.Messages.TeensyCodec
import Sentinet.Messages.PingCodec
import Sentinet.Network.OneShotPublisher
import Sentinet.Network.PipeInterface
import Sentinet.Network.WorkerLoops
import Sentinet.Network.ServerProxy
import Sentinet.Common.LogName
import Sentinet.Controllers.Wiimote
import Sentinet.Kernel.SerialRead
import Sentinet.Kernel.SerialUntil
import Sentinet.Kernel.DescriptorLife
import Sentinet.Network.ProxyLoops
import Sentinet.Network.SignalTable
import Sentinet.Messages.CompactInts
import Sentinet.Messages.Checksum
import Sentinet.Messages.Bitswap
import Sentinet.Messages.ReverseBytes
import Sentinet.Kernel.DriveLink
import Sentinet.Kernel.Telemetry
import Sentinet.Network.OperatorDrive
import Sentinet.Filters.LocalizerProxy
import Sentinet.Localizer.PosLocalizer
import Sentinet.Network.CallbackLock
import Sentinet.Messages.MixedFields
import Sentinet.Network.ProxyShutdown
import Sentinet.Controllers.ControlLoop
import Sentinet.Filters.SensorPath
import Sentinet.Network.AcknowledgedStop
import Sentinet.Network.ProxiedRequests
