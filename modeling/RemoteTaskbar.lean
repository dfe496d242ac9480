import RemoteTaskbar.Lib.Word
import RemoteTaskbar.Lib.CBuffer
import RemoteTaskbar.Lib.Reader
import RemoteTaskbar.Server.Global
import RemoteTaskbar.Server.IconUtil
import RemoteTaskbar.Server.Frames
import RemoteTaskbar.Client.ClientThread
import RemoteTaskbar.System.Framing
import RemoteTaskbar.Client.TasksActivity
import RemoteTaskbar.Server.WindowManager
import RemoteTaskbar.System.Replica
import RemoteTaskbar.System.Icons
import RemoteTaskbar.Server.Receive
import RemoteTaskbar.System.Dispatch
import RemoteTaskbar.Server.MainLoop
import RemoteTaskbar.Lib.Trans
import RemoteTaskbar.System.Parts
import RemoteTaskbar.System.Taskbar
import RemoteTaskbar.System.Snapshot
import RemoteTaskbar.System.UiQueue
import RemoteTaskbar.Server.NetworkManager
import RemoteTaskbar.System.Connection
import RemoteTaskbar.System.Accept
import RemoteTaskbar.System.Teardown
import RemoteTaskbar.System.CarryOver
import RemoteTaskbar.Server.FrameBounds
import RemoteTaskbar.System.StaleBytes
import RemoteTaskbar.System.IconCache
import RemoteTaskbar.Server.HookDll
import RemoteTaskbar.System.Handles
import RemoteTaskbar.System.CutFrame
import RemoteTaskbar.System.HookOwner
import RemoteTaskbar.Lib.ForLoop
import RemoteTaskbar.Server.AlphaChannel
import RemoteTaskbar.Client.Grammar
import RemoteTaskbar.System.EveryFrame
import RemoteTaskbar.Lib.MadeFirst
import RemoteTaskbar.System.RowIcons
import RemoteTaskbar.System.EndToEnd
import RemoteTaskbar.Client.ListItemArrayAdapter
import RemoteTaskbar.System.ListItems
import RemoteTaskbar.Lib.CheckThenAct
import RemoteTaskbar.System.IconRace
import RemoteTaskbar.System.Reconnect
import RemoteTaskbar.System.ServerLife
import RemoteTaskbar.Lib.SetUpdate
import RemoteTaskbar.System.EventQueue
import RemoteTaskbar.System.CatchUp
import RemoteTaskbar.System.DesktopShown
import RemoteTaskbar.System.AllThreads
