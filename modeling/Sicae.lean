import Sicae.CString
import Sicae.Transition
import Sicae.KeyValue
import Sicae.History
import Sicae.Json
import Sicae.Nvs
import Sicae.Gpio
import Sicae.Globals
import Sicae.Routing
import Sicae.Webserver
import Sicae.DeviceTable
import Sicae.ResponseBuffer
import Sicae.Menu
import Sicae.MenuSelection
import Sicae.Tasks
import Sicae.SwitchCommand
import Sicae.Interleaving
import Sicae.Register
import Sicae.Polling
import Sicae.RelayState
import Sicae.StatusUpload
import Sicae.Acknowledge
import Sicae.Mailbox
import Sicae.Wakeup
import Sicae.MenuNavigation
import Sicae.MenuHighlight
import Sicae.FailedRefresh
import Sicae.SharedBuffer
import Sicae.SharedUrl
import Sicae.Provisioning
import Sicae.Credentials
import Sicae.WifiEvents
import Sicae.Startup
import Sicae.Buttons
import Sicae.HttpServer
import Sicae.DevicePins
import Sicae.UploadTarget
import Sicae.DeviceIndices
import Sicae.CurrentChannel
import Sicae.MenuMirror
import Sicae.PinStorage
import Sicae.CredentialPairs
import Sicae.BodyChunks
import Sicae.BuiltUrls
import Sicae.Ring
import Sicae.Lcd
import Sicae.MenuScroll
import Sicae.FileAnswer
import Sicae.RelayReadback
import Sicae.PinReport
import Sicae.NecFrame
import Sicae.Codec
import Sicae.Double
import Sicae.Strtod
import Sicae.FormatG
import Sicae.JsonText
import Sicae.JsonNumbers
import Sicae.JsonStrings
import Sicae.JsonParser
import Sicae.JsonRoundTrip
import Sicae.JsonAppend
import Sicae.JsonAnswers
import Sicae.Chunked
import Sicae.FileWire
import Sicae.UrlFields
import Sicae.QueryString
import Sicae.WebPages
import Sicae.RemoteSession
import Sicae.DrivenPins
import Sicae.PowerCut
import Sicae.NvsPage
import Sicae.NvsLayout
import Sicae.NvsIndex
import Sicae.NvsLoad
import Sicae.NvsStore
import Sicae.Simulation
import Sicae.NvsRuns
import Sicae.NvsMemory
