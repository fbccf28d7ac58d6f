import Minnow.Basic
import Minnow.Library.CyclicBuffer
import Minnow.Library.Machine
import Minnow.Library.SlidingWindow
import Minnow.WrappingIntegers
import Minnow.ByteStream
import Minnow.Library.BoundedQueue
import Minnow.ByteStreamFifo
import Minnow.TCPMessage
import Minnow.TCPSender
import Minnow.SenderSteps
import Minnow.SenderRun
import Minnow.SenderTiling
import Minnow.SenderAck
import Minnow.AckProcessing
import Minnow.SenderWindow
import Minnow.SenderTimer
import Minnow.Library.IntervalMap
import Minnow.Reassembler
import Minnow.ReassemblerByteMap
import Minnow.ReassemblerClose
import Minnow.TCPPeer
import Minnow.PeerRun
import Minnow.PeerLifecycle
import Minnow.PeerRetries
import Minnow.EndToEnd
import Minnow.ReceiverWindow
import Minnow.Library.Triple
import Minnow.Parser
import Minnow.Serializer
import Minnow.IPv4
import Minnow.BufferSplit
import Minnow.LinkLayer
import Minnow.NetworkInterface
import Minnow.FrameDrop
import Minnow.Library.LastMax
import Minnow.Router
import Minnow.Library.OnesComplement
import Minnow.Checksum
import Minnow.WireFormat
import Minnow.TCPSegment
import Minnow.Address
import Minnow.TCPOverIP
import Minnow.InterfaceSpec
import Minnow.RouterRun
import Minnow.RouterChecksum
import Minnow.RouterThrows
import Minnow.Library.Ledger
import Minnow.ArpFifo
import Minnow.SenderFill
import Minnow.SenderReset
import Minnow.Acceptance
import Minnow.PeerReplies
import Minnow.ArpWire
import Minnow.ArpRun
import Minnow.ArpFresh
import Minnow.ArpQueues
import Minnow.ReassemblerMarker
import Minnow.ReceiverMarker
import Minnow.ChecksumChunks
import Minnow.MergeSubstrings
import Minnow.SenderInvariant
import Minnow.Library.Loop
import Minnow.ParserReads
import Minnow.AdapterBinding
import Minnow.Library.Effects
import Minnow.FileDescriptor
import Minnow.EventLoop
import Minnow.StreamCopy
import Minnow.StreamCopyWays
import Minnow.StreamCopyRun
import Minnow.DatagramAdapter
import Minnow.MinnowSocket
import Minnow.PeerStreams
import Minnow.SocketHistory
import Minnow.SocketRules
import Minnow.SocketRun
import Minnow.SocketEndToEnd
import Minnow.InternetRun
import Minnow.Liveness
