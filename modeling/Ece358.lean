import Ece358.Stuck
import Ece358.TransferEnd
import Ece358.Connection
import Ece358.TwoWay
import Ece358.Storm
import Ece358.Reorder
import Ece358.Isolation
import Ece358.Descriptors
import Ece358.Sockets
import Ece358.ByteQueue
import Ece358.Waiting
import Ece358.Reports
import Ece358.Agreement
import Ece358.ByteCount
import Ece358.Bounds
import Ece358.Assertions
import Ece358.SendSize
import Ece358.GroupServer.ServerMain
import Ece358.GroupServer.EndOfStream
import Ece358.GroupServer.ClientTable
import Ece358.GroupServer.UdpServer
import Ece358.GroupServer.TcpClient
import Ece358.GroupServer.UdpNet
import Ece358.GroupServer.TcpNet
import Ece358.GroupServer.TcpProgress
import Ece358.GroupServer.Addresses
