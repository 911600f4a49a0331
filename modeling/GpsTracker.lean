import GpsTracker.Upload.Selector
import GpsTracker.Bluetooth.Answers
import GpsTracker.Bluetooth.Commands
import GpsTracker.Bluetooth.Fences
import GpsTracker.Library.Pieces
import GpsTracker.Tcp.Receivers
import GpsTracker.Tcp.Segmentation
import GpsTracker.Library.Runs
import GpsTracker.Tcp.SocketManager
import GpsTracker.Tcp.Connections
import GpsTracker.Tcp.Uploads
import GpsTracker.Bluetooth.Channel
import GpsTracker.Bluetooth.ChatService
import GpsTracker.Bluetooth.ServiceState
import GpsTracker.Bluetooth.Cancelled
import GpsTracker.Bluetooth.PhoneRequests
import GpsTracker.Library.Codec
import GpsTracker.Storage.ObjectStream
import GpsTracker.Storage.FenceFile
import GpsTracker.Library.Calls
import GpsTracker.Work.LocationUtil
import GpsTracker.Work.Messages
import GpsTracker.Work.Tracker
import GpsTracker.Work.Fallback
import GpsTracker.Work.Reports
import GpsTracker.Work.Payloads
import GpsTracker.Work.Modes
import GpsTracker.Work.Sessions
import GpsTracker.Work.Coexistence
import GpsTracker.Cipher.HexTexts
import GpsTracker.Upload.Checks
import GpsTracker.Tcp.WellFormed
import GpsTracker.Bluetooth.Deletions
import GpsTracker.Work.Configured
import GpsTracker.Ios.Client
import GpsTracker.Ios.Sends
import GpsTracker.Library.Json.Objects
import GpsTracker.Library.Json.Templates
import GpsTracker.Library.Utf8
import GpsTracker.Ios.CStrings
import GpsTracker.Ios.Messages
import GpsTracker.Library.Crc
import GpsTracker.Util.Checksums
import GpsTracker.Util.Pairs
import GpsTracker.Util.Dialing
import GpsTracker.Util.HexArrays
import GpsTracker.Library.Blocks
import GpsTracker.Library.Md5
import GpsTracker.Ios.Digest
import GpsTracker.Java.Dates
import GpsTracker.Upload.Timestamps
import GpsTracker.Work.Schedule
import GpsTracker.Tcp.KeepAlive
import GpsTracker.Tcp.Silence
import GpsTracker.Tcp.LastMoment
import GpsTracker.Tcp.Traffic
import GpsTracker.Tcp.Genuine
import GpsTracker.Tcp.Asked
import GpsTracker.Library.Ring
import GpsTracker.Ios.XXTEA
import GpsTracker.Ios.XXTEAData
import GpsTracker.Ios.Reports
import GpsTracker.Bluetooth.PhoneSession
import GpsTracker.Library.Bursts
import GpsTracker.Util.Detection
import GpsTracker.Java.Decimal
import GpsTracker.Tcp.AddressSettings
import GpsTracker.Library.Costs
import GpsTracker.Tcp.Effort
import GpsTracker.Work.Accounts
