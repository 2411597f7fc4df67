import TheKvm.Lib.Bank
import TheKvm.Lib.Bytes
import TheKvm.Lib.Carry
import TheKvm.Lib.Coalesce
import TheKvm.Lib.BTreeSet
import TheKvm.Lib.Expiring
import TheKvm.Lib.Framing
import TheKvm.Lib.Prefixed
import TheKvm.Lib.Proportion
import TheKvm.Lib.Gather
import TheKvm.Lib.Latch
import TheKvm.Lib.Lossy
import TheKvm.Lib.Json
import TheKvm.Lib.Held
import TheKvm.Lib.Hex
import TheKvm.Lib.Keyed
import TheKvm.Lib.ResetSet
import TheKvm.Lib.SearchPath
import TheKvm.Lib.Run
import TheKvm.Lib.SharedKey
import TheKvm.Lib.Text
import TheKvm.Lib.Throttle
import TheKvm.Lib.Totals
import TheKvm.Lib.Slice
import TheKvm.Lib.Slot
import TheKvm.Lib.Trace
import TheKvm.Lib.Truncated
import TheKvm.Lib.Window
import TheKvm.Core.Event
import TheKvm.Core.Layout
import TheKvm.Core.Mapping
import TheKvm.Core.Arrange
import TheKvm.Core.Grid
import TheKvm.Core.Shift
import TheKvm.Core.Router
import TheKvm.Core.Route
import TheKvm.Core.Machine
import TheKvm.Core.Desk
import TheKvm.Core.Refine
import TheKvm.Core.Hop
import TheKvm.Core.Return
import TheKvm.Core.Jitter
import TheKvm.Core.Phantom
import TheKvm.Core.Tuning
import TheKvm.Core.Style
import TheKvm.Core.Restore
import TheKvm.Core.Gate
import TheKvm.Protocol.Wire
import TheKvm.Protocol.Frame
import TheKvm.Protocol.ControlFrame
import TheKvm.Protocol.Reliable
import TheKvm.Protocol.Datagram
import TheKvm.Protocol.Delivery
import TheKvm.Protocol.Control
import TheKvm.Protocol.PeerBook
import TheKvm.Protocol.Config
import TheKvm.Protocol.ConfigFile
import TheKvm.Protocol.ControlMessages
import TheKvm.Protocol.PeerLookup
import TheKvm.Protocol.Udp
import TheKvm.Protocol.PointerCodec
import TheKvm.Protocol.IdentityHex
import TheKvm.Protocol.Invite
import TheKvm.Daemon.EndedLinks
import TheKvm.Daemon.Pinch
import TheKvm.Daemon.Approvals
import TheKvm.Daemon.Waiters
import TheKvm.Daemon.Freeze
import TheKvm.Daemon.LinkMemory
import TheKvm.Daemon.Admission
import TheKvm.Daemon.Barrier
import TheKvm.Daemon.BurstFold
import TheKvm.Daemon.Captured
import TheKvm.Daemon.Clipboard
import TheKvm.Daemon.HelperPipe
import TheKvm.Daemon.CaptureBridge
import TheKvm.Daemon.HelperReplies
import TheKvm.Daemon.InboundLinks
import TheKvm.Daemon.InboundSessions
import TheKvm.Daemon.UiPresence
import TheKvm.Daemon.ControlServer
import TheKvm.Daemon.Offer
import TheKvm.Daemon.OfferSession
import TheKvm.Daemon.Receive
import TheKvm.Daemon.CutStream
import TheKvm.Daemon.Relay
import TheKvm.Daemon.RemoteInput
import TheKvm.Daemon.Remap
import TheKvm.Daemon.HopParity
import TheKvm.Daemon.Episode
import TheKvm.Daemon.Permit
import TheKvm.Daemon.Scroll
import TheKvm.Daemon.WheelDowngrade
import TheKvm.Daemon.Leases
import TheKvm.Daemon.PageZoom
import TheKvm.Daemon.Park
import TheKvm.Daemon.Sender
import TheKvm.Daemon.Drive
import TheKvm.Daemon.DriveLoop
import TheKvm.Daemon.AbsoluteCursor
import TheKvm.Daemon.Rebuild
import TheKvm.Daemon.ConfigStore
import TheKvm.Daemon.UdpKeys
import TheKvm.Daemon.UdpLinks
import TheKvm.Daemon.UdpListener
import TheKvm.Daemon.Yield
import TheKvm.Snaptext.Ensure
import TheKvm.Snaptext.Models
import TheKvm.Snaptext.Resolve
import TheKvm.Ui.Arrangement
import TheKvm.Ui.ArrangeCheck
import TheKvm.Ui.Reciprocal
import TheKvm.Ui.Revocation
import TheKvm.Ui.PairingAttempt
import TheKvm.Daemon.CaptureThread
import TheKvm.Ui.Mirror
import TheKvm.Ui.PasteRelay
import TheKvm.Ui.Settings
import TheKvm.Ui.SessionSlot
import TheKvm.Ui.ProgressRelay
import TheKvm.Ui.FollowLink
import TheKvm.Ui.DoubleConnect
import TheKvm.Ui.LinkApproval
import TheKvm.Ui.Disconnect
import TheKvm.Ui.ClipboardOffers
import TheKvm.Platform.Keys
import TheKvm.Platform.Evdev
import TheKvm.Platform.EvdevHeld
import TheKvm.Platform.EvdevScroll
import TheKvm.Platform.Injector
import TheKvm.Platform.PinchAccount
import TheKvm.Platform.PinchTap
import TheKvm.Platform.SystemClipboard
import TheKvm.Platform.Touchpad
import TheKvm.Platform.TouchpadDrift
import TheKvm.Platform.Touchscreen
import TheKvm.Platform.WheelDedup
import TheKvm.Platform.RecenterCage
import TheKvm.Daemon.InputHelper
import TheKvm.Daemon.Dial
import TheKvm.Daemon.PeerFrames
import TheKvm.Protocol.IdentityStore
import TheKvm.Platform.EvdevGrab
import TheKvm.Platform.WinHooks
import TheKvm.Platform.X11
import TheKvm.Lib.Pin
import TheKvm.Lib.JsonPretty
import TheKvm.Platform.Absolute
import TheKvm.Platform.KeyTables
import TheKvm.Snaptext.Detect
import TheKvm.Snaptext.Recognize
