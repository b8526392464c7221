import UpsServer.Framework.Machine
import UpsServer.Framework.PointerHeap
import UpsServer.Framework.LoopSearch
import UpsServer.Framework.Fallible
import UpsServer.Framework.ByteBuffer
import UpsServer.Framework.TwoEndWalk
import UpsServer.Framework.WalkCalls
import UpsServer.Framework.MatchedTracks
import UpsServer.Framework.PrefixCode
import UpsServer.Framework.Separated
import UpsServer.Framework.Decimal
import UpsServer.Framework.Utf8
import UpsServer.Framework.RunningSums
import UpsServer.Framework.Descent
import UpsServer.Framework.Lobby
import UpsServer.Game.Player
import UpsServer.Game.Game
import UpsServer.Game.LineControl
import UpsServer.Game.EdgeColours
import UpsServer.Game.ControlFunctions
import UpsServer.Game.ColourDuality
import UpsServer.Game.MissingReturns
import UpsServer.Game.BoardStrings
import UpsServer.Game.GameManager
import UpsServer.Datatypes.Message
import UpsServer.Datatypes.ConcurrentQueue
import UpsServer.Helpers.MainOptions
import UpsServer.Helpers.Serializer
import UpsServer.Helpers.ReadBounds
import UpsServer.Helpers.WireFormat
import UpsServer.Helpers.RoundTrip
import UpsServer.Helpers.PacketLayout
import UpsServer.Helpers.StreamDecoding
import UpsServer.Helpers.Exactness
import UpsServer.Network.State
import UpsServer.Network.Sender
import UpsServer.Network.Server
import UpsServer.Network.PacketManager
import UpsServer.Network.CommandManager
import UpsServer.Network.System
import UpsServer.Network.Effects
import UpsServer.Network.Steps
import UpsServer.Network.Framing
import UpsServer.Network.Threads
import UpsServer.Network.Registry
import UpsServer.Network.Deletions
import UpsServer.Network.Moves
import UpsServer.Network.Names
import UpsServer.Network.Connections
import UpsServer.Network.Losses
import UpsServer.Network.BoardSteps
import UpsServer.Network.Boards
import UpsServer.Network.FalseWins
import UpsServer.Network.MoveRules
import UpsServer.Network.BoardSnapshots
import UpsServer.Network.Attribution
import UpsServer.Network.Deliveries
import UpsServer.Network.PayloadKinds
import UpsServer.Network.PlayerList
import UpsServer.Network.Orderly
import UpsServer.Network.Tidy
import UpsServer.Network.OrderlyGames
import UpsServer.Network.NullSafety
import UpsServer.Network.Handover
import UpsServer.Network.Endings
import UpsServer.Network.Zombies
import UpsServer.Network.Departures
import UpsServer.Network.Disconnections
import UpsServer.Network.Requests
import UpsServer.Network.Availability
import UpsServer.Network.Dialogue
import UpsServer.Network.Outbox
import UpsServer.Network.References
import UpsServer.Network.Joinable
import UpsServer.Network.Streams
import UpsServer.Network.ClientViews
import UpsServer.Network.SeenBoards
import UpsServer.Network.Turns
import UpsServer.Network.Workload
import UpsServer.Network.Amplification
import UpsServer.Network.LobbyRefinement
import UpsServer.Network.Answers
import UpsServer.Network.SelectLoop
import UpsServer.Network.RoundDisconnections
import UpsServer.Network.Consent
import UpsServer.Network.Footprint
import UpsServer.Client.Message
import UpsServer.Client.DataSerializer
import UpsServer.Client.MessageSerializer
import UpsServer.Client.PayloadFields
import UpsServer.Client.Envelope
import UpsServer.Client.CanonicalFields
import UpsServer.Client.ServerPackets
import UpsServer.Client.RoundTrip
import UpsServer.Client.TCPClient
import UpsServer.Client.Connections
import UpsServer.Client.Checksums
import UpsServer.Client.ParserErrors
