import LitexDtls.Library.Run
import LitexDtls.Library.Memory
import LitexDtls.Library.Mailbox
import LitexDtls.Library.SlotRing
import LitexDtls.Library.CText
import LitexDtls.Library.CString
import LitexDtls.Library.XorLinear
import LitexDtls.Library.Lifetime
import LitexDtls.Library.Spans
import LitexDtls.Library.WordBits
import LitexDtls.Library.ReplayWindow
import LitexDtls.Library.KeyUse
import LitexDtls.LiteEth.Frame
import LitexDtls.LiteEth.Driver
import LitexDtls.LiteEth.DriverFacts
import LitexDtls.LiteEth.Transmit
import LitexDtls.LiteEth.Checksum
import LitexDtls.LiteEth.Containment
import LitexDtls.Client.Mailbox
import LitexDtls.Client.Calls
import LitexDtls.Client.Receive
import LitexDtls.Client.FrameBytes
import LitexDtls.Client.NoLoss
import LitexDtls.Client.Send
import LitexDtls.Client.Started
import LitexDtls.Client.TxSlots
import LitexDtls.Client.Demo
import LitexDtls.Client.Measure
import LitexDtls.Client.Release
import LitexDtls.Client.Rng
import LitexDtls.Client.RngCycle
import LitexDtls.WolfSsl.Errors
import LitexDtls.WolfSsl.Dtls13
import LitexDtls.WolfSsl.Fragments
import LitexDtls.WolfSsl.Message
import LitexDtls.WolfSsl.Reassembly
import LitexDtls.WolfSsl.Handshake
import LitexDtls.WolfSsl.HandshakeOrder
import LitexDtls.WolfSsl.Window
import LitexDtls.WolfSsl.UnifiedHeader
import LitexDtls.WolfSsl.Epochs
import LitexDtls.WolfSsl.Records
import LitexDtls.WolfSsl.RecordRuns
import LitexDtls.WolfSsl.Acks
import LitexDtls.WolfSsl.Sending
import LitexDtls.WolfSsl.Numbers
import LitexDtls.WolfSsl.Bookkeeping
import LitexDtls.WolfSsl.Flights
import LitexDtls.WolfSsl.Delivery
import LitexDtls.WolfSsl.Fragmenting
import LitexDtls.WolfSsl.Conversation
import LitexDtls.Client.Connect
import LitexDtls.Host.Bio
import LitexDtls.Host.Server
import LitexDtls.Host.Accept
import LitexDtls.Host.Echo
import LitexDtls.Host.CertHeader
import LitexDtls.Host.Psk
import LitexDtls.LossRecovery
