import Libtrp.Lib.Linked
import Libtrp.Lib.Run
import Libtrp.Lib.Population
import Libtrp.Lib.Bits
import Libtrp.Lib.Bytes
import Libtrp.Lib.Keyed
import Libtrp.Core
import Libtrp.Util
import Libtrp.Sendq
import Libtrp.Sockmap
import Libtrp.Connmap
import Libtrp.Streammap
import Libtrp.Stream
import Libtrp.Pack
import Libtrp.RoundTrip
import Libtrp.Timerwheel
import Libtrp.Timeout
import Libtrp.Lib.Prog
import Libtrp.Resolveq
import Libtrp.Router
import Libtrp.Conn
import Libtrp.ConnError
import Libtrp.ConnInfo
import Libtrp.Segment
import Libtrp.Auth
import Libtrp.Ping
import Libtrp.Wire
import Libtrp.Handshake
import Libtrp.Trip
import Libtrp.TripFrame
import Libtrp.TripKeeps
import Libtrp.TripTurn
import Libtrp.TripState
import Libtrp.TripMoves
import Libtrp.TripAsk
import Libtrp.TripResolve
import Libtrp.TripOpen
import Libtrp.TripStop
import Libtrp.TripSend
import Libtrp.Schedule
import Libtrp.Unpack
import Libtrp.PackSize
import Libtrp.Sign
import Libtrp.ConnRead
import Libtrp.Reject
import Libtrp.OpenSeq
import Libtrp.TimerWalk
import Libtrp.TripIdle
import Libtrp.TripWatch
import Libtrp.TripPoll
import Libtrp.TripListen
import Libtrp.TripTies
import Libtrp.Backoff
import Libtrp.ConnPhase
import Libtrp.TripAside
import Libtrp.TripPhase
import Libtrp.TripPacket
import Libtrp.Lib.Network
import Libtrp.Network
import Libtrp.Directory
import Libtrp.Numbers
import Libtrp.TripStuck
import Libtrp.TripLife
