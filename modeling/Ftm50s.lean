import Ftm50s.Ssid.Layout
import Ftm50s.Ssid.Eviction
import Ftm50s.Ssid.Uniqueness
import Ftm50s.Profile.Reload
import Ftm50s.System.Firmware
import Ftm50s.System.Backup
import Ftm50s.Fwmng.Update
import Ftm50s.Fwmng.Progress
import Ftm50s.Syslog.Pages
import Ftm50s.Syslog.Lines
import Ftm50s.Syslog.Escaping
import Ftm50s.Syslog.Navigation
import Ftm50s.Page.Confinement
import Ftm50s.Serial.Replies
import Ftm50s.Ssl.Restart
import Ftm50s.Firewall.RoundTrip
import Ftm50s.Firewall.Inverse
import Ftm50s.Firewall.Reapply
import Ftm50s.Firewall.Policies
import Ftm50s.Firewall.Editor
import Ftm50s.Dhcp.RoundTrip
import Ftm50s.Dhcp.Rejected
import Ftm50s.Dhcp.Editor
import Ftm50s.Dhcp.LanChange
import Ftm50s.Dhcp.LanKept
import Ftm50s.Dhcp.Overrun
import Ftm50s.Network.Interfaces
import Ftm50s.Network.Status
import Ftm50s.Cgi.Access
import Ftm50s.Cgi.Directives
import Ftm50s.Cgi.Incomplete
import Ftm50s.Cgi.SessionId
import Ftm50s.Mmon.Supervision
import Ftm50s.Mmon.Config
import Ftm50s.Daemons.SingleDialler
import Ftm50s.Daemons.ModemLog
import Ftm50s.Daemons.ApnCommands
import Ftm50s.Daemons.FactoryReset
import Ftm50s.Usage.Accounting
import Ftm50s.Modem.Init
import Ftm50s.Modem.Xcom
import Ftm50s.Ftmbcc.Tx200k
import Ftm50s.Lib.BlockStream
import Ftm50s.Lib.Refine
import Ftm50s.Md5.Agreement
import Ftm50s.Profile.Account
import Ftm50s.Udhcpd.LeasesShown
import Ftm50s.Udhcpd.Served
import Ftm50s.Forms.Apply
