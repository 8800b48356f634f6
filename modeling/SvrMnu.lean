import SvrMnu.Exact
import SvrMnu.Schedule
import SvrMnu.Primary
import SvrMnu.Led
import SvrMnu.Nesting
import SvrMnu.Requests
import SvrMnu.LoginSync
import SvrMnu.Pulse
import SvrMnu.Upkeep
import SvrMnu.Accounts
import SvrMnu.Selection
import SvrMnu.Process
import SvrMnu.Address
import SvrMnu.Hid.Serials
