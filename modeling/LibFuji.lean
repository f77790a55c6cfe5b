import LibFuji.ByteCodec
import LibFuji.Assignments
import LibFuji.Profile
import LibFuji.D185
import LibFuji.D185Format
import LibFuji.D185Decode
import LibFuji.D185Encode
import LibFuji.D185RoundTrip
import LibFuji.D185Bounds
import LibFuji.Dump
import LibFuji.Xml
import LibFuji.XmlRules
import LibFuji.XmlProp
import LibFuji.XmlFile
import LibFuji.XmlParse
import LibFuji.XmlOrder
import LibFuji.Merge
import LibFuji.XmlAccept
import LibFuji.Ezxml
import LibFuji.EzxmlDecode
import LibFuji.EzxmlTurn
import LibFuji.EzxmlText
import LibFuji.EzxmlFile
import LibFuji.Interaction
import LibFuji.Exif
import LibFuji.ExifFile
import LibFuji.ExifJpeg
import LibFuji.ExifAgree
import LibFuji.Ptp
import LibFuji.Events
import LibFuji.EventTurns
import LibFuji.EventQueue
import LibFuji.EventBounds
import LibFuji.PropList
import LibFuji.PropCalls
import LibFuji.Thumb
import LibFuji.ExifThumb
import LibFuji.Liveview
import LibFuji.Module
import LibFuji.Setup
import LibFuji.LiveviewFrame
import LibFuji.Handshake
import LibFuji.Ledger
import LibFuji.Discovery
import LibFuji.DiscoverySockets
import LibFuji.DiscoveryReceive
import LibFuji.DiscoveryStrings
import LibFuji.DiscoveryMessages
import LibFuji.DiscoveryProtocol
import LibFuji.ConnectWifi
import LibFuji.Transport
import LibFuji.UsbSetup
import LibFuji.Download
import LibFuji.DownloadLoop
import LibFuji.DownloadMode
import LibFuji.FileContents
import LibFuji.ProcessRaf
import LibFuji.Progress
import LibFuji.Backup
import LibFuji.Custody
import LibFuji.Bluetooth
import LibFuji.BluetoothHandles
import LibFuji.BluetoothStrings
import LibFuji.Locks
import LibFuji.LockDepth
import LibFuji.Views
import LibFuji.RuntimeOps
import LibFuji.CameraStore
import LibFuji.Lifecycle
import LibFuji.LifeRuns
import LibFuji.Partner
import LibFuji.RawConversion
