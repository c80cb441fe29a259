import Rjr.Lib.OrderedHash
import Rjr.Lib.Heap
import Rjr.Lib.Machine
import Rjr.Lib.Traversal
import Rjr.Lib.Framing
import Rjr.Lib.JsonGrammar
import Rjr.Json
import Rjr.Ruby
import Rjr.CoreExt
import Rjr.Result
import Rjr.Util.Extract
import Rjr.Util.JsonParser
import Rjr.Util.JsonText
import Rjr.Util.ThreadPool
import Rjr.Messages
import Rjr.Messages.Compressed
import Rjr.Dispatcher
import Rjr.Correlation
import Rjr.Node
import Rjr.Nodes.Connection
import Rjr.Nodes.Local
import Rjr.Nodes.InitClient
import Rjr.Site.Value
import Rjr.Site.JRMessage
import Rjr.Site.WsNode
import Rjr.Verif.ScanGrammar
import Rjr.Verif.Framing
import Rjr.Verif.SafeParse
import Rjr.Verif.Headers
import Rjr.Verif.Answers
import Rjr.Verif.Codec
import Rjr.Verif.Invoke
import Rjr.Verif.Correlation
import Rjr.Verif.JobLifecycle
import Rjr.Verif.Monitoring
import Rjr.Verif.EchoedHeaders
import Rjr.Verif.Waits
import Rjr.Verif.WorkerCount
import Rjr.Verif.Registrations
import Rjr.Verif.Reuse
import Rjr.Verif.CompressedCodec
import Rjr.Verif.SiteCodec
import Rjr.Verif.SiteMessages
import Rjr.Verif.SiteSockets
import Rjr.Nodes.WS
import Rjr.Verif.Handshakes
import Rjr.Verif.Responses
import Rjr.StoredRequest
import Rjr.Verif.StoredRequests
import Rjr.Util.Inspect
import Rjr.Verif.Selection
import Rjr.Lib.Groups
import Rjr.Util.Args
import Rjr.Verif.Arguments
import Rjr.Util.HandlesMethods
import Rjr.Verif.Declarations
import Rjr.Verif.SiteTrees
import Rjr.Verif.SiteParams
import Rjr.Verif.SiteResults
import Rjr.Verif.SiteDecoders
import Rjr.Verif.Conservation
import Rjr.Lib.Pattern
import Rjr.Nodes.Easy
import Rjr.Verif.ClassLookup
import Rjr.Verif.Routing
import Rjr.Nodes.Web
import Rjr.Verif.HttpAnswers
import Rjr.Lib.Census
import Rjr.Verif.Observation
import Rjr.Lib.Simulation
import Rjr.Lib.Taking
import Rjr.Nodes.Exchange
import Rjr.Verif.Packets
import Rjr.Verif.Provenance
import Rjr.Verif.Agreement
import Rjr.Nodes.Sockets
import Rjr.Verif.SocketCalls
import Rjr.Verif.JsonBytes
import Rjr.Verif.Settling
import Rjr.Verif.SocketProgress
import Rjr.Nodes.AMQP
import Rjr.Verif.AmqpCalls
import Rjr.Verif.AmqpAnswers
import Rjr.Util.EMAdapter
import Rjr.Verif.Reactor
import Rjr.Nodes.WebSockets
import Rjr.Verif.Carriers
import Rjr.Verif.WebSocketCalls
import Rjr.Nodes.Http
import Rjr.Verif.WebSocketProgress
import Rjr.Verif.HttpPosts
import Rjr.Verif.HttpCalls
