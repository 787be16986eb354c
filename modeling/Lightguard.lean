import Lightguard.Lib.Run
import Lightguard.Lib.Stream
import Lightguard.Lib.Hex
import Lightguard.Rotation.Agreement
import Lightguard.Sync.SameKey
import Lightguard.Auth.LastExport
import Lightguard.Link.Export
import Lightguard.Fleet.Reinstall
import Lightguard.Link.Delivered
import Lightguard.Rotation.Reject
import Lightguard.Rotation.Reassoc
import Lightguard.Lib.Argparse
import Lightguard.Forward.Sender
import Lightguard.Forward.Server
import Lightguard.Watchdog.Timed
import Lightguard.Link.Skip
import Lightguard.Auth.KeyState
import Lightguard.Fleet.Update
import Lightguard.Auth.Setptk
import Lightguard.Fleet.Refused
import Lightguard.Fleet.FastKeys
import Lightguard.Forward.RoundTrip
import Lightguard.Fleet.GroupAgreement
import Lightguard.Rotation.Pending
import Lightguard.Rotation.Cache
import Lightguard.Rotation.Line
import Lightguard.Wpa.Derive
import Lightguard.Watchdog.Alarm
import Lightguard.Rotation.Round
import Lightguard.Rotation.LifeCycle
import Lightguard.Sync.Disconnect
import Lightguard.Sync.Dedup
import Lightguard.Forward.Framing
import Lightguard.Forward.Bridge
import Lightguard.Eloop.Clock
import Lightguard.Eloop.Timeout
import Lightguard.Lib.Octets
import Lightguard.Lib.KeyWrap
import Lightguard.Lib.Tlv
import Lightguard.Wire.Kde
import Lightguard.Wire.Crypt
import Lightguard.Wire.Frame
import Lightguard.Wire.Send
import Lightguard.Wire.Messages
import Lightguard.Lib.Chains
import Lightguard.Pmksa.Auth
import Lightguard.Pmksa.Table
import Lightguard.Pmksa.Sta
import Lightguard.Pmksa.Use
import Lightguard.Lib.Watermark
import Lightguard.Supp.Replay
import Lightguard.Auth.Replay
import Lightguard.Link.Replay
import Lightguard.Rsn.Negotiate
