import Pspssh.Terminal.Safety
import Pspssh.Terminal.Reset
import Pspssh.Terminal.Layout
import Pspssh.Terminal.Params
import Pspssh.Terminal.Region
import Pspssh.Terminal.Surplus
import Pspssh.Terminal.Osc
import Pspssh.Terminal.Escapes
import Pspssh.Terminal.Erase
import Pspssh.Terminal.Background
import Pspssh.Card.Crash
import Pspssh.Card.Faults
import Pspssh.Card.Buffered
import Pspssh.Card.Missing
import Pspssh.Hosts.RoundTrip
import Pspssh.Hosts.Memory
import Pspssh.Hosts.Fields
import Pspssh.Hosts.Loaded
import Pspssh.Hosts.Legacy
import Pspssh.Known.HostKey
import Pspssh.Known.Edits
import Pspssh.Known.Loaded
import Pspssh.Entropy.Seed
import Pspssh.Unread
import Pspssh.Stores
import Pspssh.Parsers
import Pspssh.Session.Handshake
import Pspssh.Session.Send
import Pspssh.Terminal.Sgr
import Pspssh.Terminal.Editing
import Pspssh.Terminal.Scrolling
import Pspssh.Terminal.Bell
import Pspssh.Screen.Alike
import Pspssh.Screen.Cursor
import Pspssh.Menu.HostName
import Pspssh.Menu.HostList
import Pspssh.Menu.EditField
import Pspssh.Sfo.Read
import Pspssh.Screen.Reading
import Pspssh.Menu.Confirmed
import Pspssh.App.Shell
import Pspssh.App.Run
import Pspssh.App.Leaving
import Pspssh.App.Agreement
import Pspssh.Core.Agreement
import Pspssh.Pad.Presses
import Pspssh.Net.Joining
import Pspssh.Net.Stream
import Pspssh.At3.Looped
import Pspssh.Net.Dialling
