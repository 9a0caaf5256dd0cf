import Sming.System.UartTransmit
import Sming.Services.SpiffsSming
import Sming.Data.CircularFifo
import Sming.Data.EndlessMemoryStream
import Sming.Data.QuotedPrintableOutputStream
import Sming.Data.TemplateProgress
import Sming.Data.StreamChain
import Sming.Network.TcpForcedClose
import Sming.Network.SslClient
import Sming.Network.UrlParts
import Sming.Network.Http.HttpUpgrade
import Sming.Network.Http.HttpRetransmission
import Sming.Network.Http.HttpPipelining
import Sming.Network.Http.HttpResponses
import Sming.Network.Http.HttpServerOutput
import Sming.Network.Http.WebsocketConnection
import Sming.Network.Http.WebsocketFrame
import Sming.Network.MqttOperations
import Sming.Network.RbootStreams
import Sming.Network.SmtpSegments
import Sming.Network.SmtpAuth
import Sming.HardwareSerial
import Sming.Network.Http.HttpConnectionBase
import Sming.Network.HttpServer
import Sming.Network.DnsAnswers
import Sming.Network.FtpAuthorization
import Sming.Network.FtpRetrieve
import Sming.Network.NtpClient
import Sming.DateTimeFields
import Sming.TimerCallbacks
import Sming.AtReplies
import Sming.Network.SmtpCapabilities
import Sming.Network.FtpPort
import Sming.Network.HttpClient
import Sming.Network.SslValidator
import Sming.SPI
import Sming.SPIClock
import Sming.Network.Http.HttpParams
import Sming.Services.WebHelpers.EscapeBuffers
import Sming.FileSystem
import Sming.HardwareTimer
import Sming.Platform.System
import Sming.Digital
import Sming.Wiring.WVector
import Sming.System.StringUtil
import Sming.Wiring.FlashString
import Sming.Wire
import Sming.Network.TcpServer
