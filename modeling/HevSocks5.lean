import HevSocks5.RBTreeErase
import HevSocks5.AuthenticatorMap
import HevSocks5.UdpRoundTrip
import HevSocks5.UdpAccept
import HevSocks5.UdpIntact
import HevSocks5.UdpSource
import HevSocks5.UdpEncode
import HevSocks5.UdpCount
import HevSocks5.UdpHeader
import HevSocks5.UdpErrno
import HevSocks5.UdpControl
import HevSocks5.UdpWhole
import HevSocks5.AuthGate
import HevSocks5.ServerParse
import HevSocks5.ServerReply
import HevSocks5.Base.Threads
import HevSocks5.ServerReferences
import HevSocks5.Client
import HevSocks5.Files
import HevSocks5.ServerFiles
import HevSocks5.ClientFiles
import HevSocks5.Conversion
import HevSocks5.ClientNew
import HevSocks5.ClientEncode
import HevSocks5.ClientTarget
import HevSocks5.UdpBound
import HevSocks5.Base.Height
import HevSocks5.AuthenticatorBalance
import HevSocks5.UdpDatagram
import HevSocks5.ClientDialog
import HevSocks5.ClientBlock
import HevSocks5.MeetingServer
import HevSocks5.Agreement
import HevSocks5.Base.Neighbour
import HevSocks5.RBTreeWalk
import HevSocks5.AuthenticatorWalk
import HevSocks5.Base.Joint
import HevSocks5.ClientOrder
import HevSocks5.ServerOutput
import HevSocks5.Severed
import HevSocks5.UdpEnds
import HevSocks5.UdpNetwork
import HevSocks5.Session
import HevSocks5.UdpSocket
