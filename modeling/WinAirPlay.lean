import WinAirPlay.Foundations.Transition
import WinAirPlay.Foundations.RoseTree
import WinAirPlay.Foundations.Unicode
import WinAirPlay.Foundations.FloatFormat
import WinAirPlay.Foundations.HashTable
import WinAirPlay.Foundations.Interning
import WinAirPlay.Crypto
import WinAirPlay.Foundations.SerialNumber
import WinAirPlay.RaopBuffer.Model
import WinAirPlay.RaopBuffer.Window
import WinAirPlay.Foundations.SlotTable
import WinAirPlay.RaopBuffer.Delivery
import WinAirPlay.RaopBuffer.Drain
import WinAirPlay.RaopBuffer.Reordering
import WinAirPlay.Rtp.Mailbox
import WinAirPlay.Rtp.Thread
import WinAirPlay.Rtp.Events
import WinAirPlay.Rtp.Agreement
import WinAirPlay.Foundations.CheckedMemory
import WinAirPlay.Mirror.Buffer
import WinAirPlay.ByteUtils
import WinAirPlay.Mirror.NalRewrite
import WinAirPlay.Mirror.Frame
import WinAirPlay.Mirror.FrameSafety
import WinAirPlay.Mirror.AnnexB
import WinAirPlay.Foundations.Framing
import WinAirPlay.Mirror.Thread
import WinAirPlay.Http.Request
import WinAirPlay.Http.Response
import WinAirPlay.Http.ResponseBuffer
import WinAirPlay.Http.Server
import WinAirPlay.Http.Bookkeeping
import WinAirPlay.Pairing.Session
import WinAirPlay.Pairing.Verify
import WinAirPlay.Foundations.FixedPoint
import WinAirPlay.Foundations.RingBuffer
import WinAirPlay.Ntp.Accuracy
import WinAirPlay.Ntp.Thread
import WinAirPlay.Ntp.Foreign
import WinAirPlay.Service.Stopping
import WinAirPlay.Connection.Sessions
import WinAirPlay.Connection.Clock
import WinAirPlay.Connection.Released
import WinAirPlay.Http.Parser
import WinAirPlay.Http.Receive
import WinAirPlay.Foundations.Scanf
import WinAirPlay.Utils.HwAddr
import WinAirPlay.Raop.Fairplay
import WinAirPlay.Raop.Plist
import WinAirPlay.Raop.Handlers
import WinAirPlay.Raop.History
import WinAirPlay.Raop.Setup
import WinAirPlay.Raop.Requests
import WinAirPlay.Raop.Pairing
import WinAirPlay.Ntp.Timestamps
import WinAirPlay.Ntp.Playout
import WinAirPlay.Mirror.ParameterSets
import WinAirPlay.Mirror.Session
import WinAirPlay.RaopBuffer.Calls
import WinAirPlay.RaopBuffer.Resends
import WinAirPlay.RaopBuffer.Flushing
import WinAirPlay.RaopBuffer.Ownership
import WinAirPlay.Rtp.Draining
import WinAirPlay.Rtp.SyncClock
import WinAirPlay.Rtp.Unwrapping
import WinAirPlay.Rtp.Datagrams
import WinAirPlay.Raop.Streams
import WinAirPlay.Raop.StreamSetup
import WinAirPlay.RaopBuffer.Counters
import WinAirPlay.Aes.Calls
import WinAirPlay.Foundations.BlockCipher
import WinAirPlay.Aes.Modes
import WinAirPlay.Aes.Position
import WinAirPlay.Aes.Resetting
import WinAirPlay.RaopBuffer.Decryption
import WinAirPlay.Http.Reassembly
import WinAirPlay.Raop.VolumeQuery
import WinAirPlay.Pairing.Authentication
import WinAirPlay.Raop.SetParameter
import WinAirPlay.Ntp.Statistics
import WinAirPlay.Plist.Unicode
import WinAirPlay.Plist.Node
import WinAirPlay.Plist.Parser
import WinAirPlay.Plist.Safety
import WinAirPlay.Plist.Writer
import WinAirPlay.Plist.Containers
import WinAirPlay.Plist.Encoding
import WinAirPlay.Plist.Decoding
import WinAirPlay.Plist.RoundTrip
import WinAirPlay.Plist.Libplist
import WinAirPlay.Raop.Bodies
import WinAirPlay.Foundations.RefCount
import WinAirPlay.Connection.Conversation
import WinAirPlay.Decoder.BufferPool
import WinAirPlay.Decoder.Decode
import WinAirPlay.Rtp.Session
