import CncRemote.Machine
import CncRemote.Comms
import CncRemote.RemoteCall
import CncRemote.BlockingCall
import CncRemote.Client
import CncRemote.Session
import CncRemote.Polling
import CncRemote.Handshake
import CncRemote.Busy
import CncRemote.BusyCache
import CncRemote.Stdio
import CncRemote.Upload
import CncRemote.LoadFile
import CncRemote.Transfer
import CncRemote.Msgpack
import CncRemote.Dispatch
import CncRemote.Commands
import CncRemote.Alternation
import CncRemote.Disconnect
import CncRemote.Outcome
import CncRemote.Answers
import CncRemote.Wire
import CncRemote.Sockets
import CncRemote.Core
import CncRemote.Plant
import CncRemote.Delivery
import CncRemote.Restart
import CncRemote.FileCount
import CncRemote.TempFiles
import CncRemote.Mach
import CncRemote.MachLocks
import CncRemote.MachLoad
import CncRemote.Heap
import CncRemote.LinuxCnc
import CncRemote.MachDrives
import CncRemote.NmlPointers
import CncRemote.JogCache
import CncRemote.Position
import CncRemote.EdingCnc
import CncRemote.Modes
import CncRemote.EdingPreview
import CncRemote.Plugins
import CncRemote.LinuxPlugin
import CncRemote.EdingDll
import CncRemote.EdingLink
import CncRemote.Sim
import CncRemote.Offsets
import CncRemote.EdingJog
import CncRemote.EdingPause
import CncRemote.MachJog
import CncRemote.Lines
import CncRemote.Homing
import CncRemote.Retries
import CncRemote.EdingVersion
import CncRemote.JogSpeed
import CncRemote.NameHint
import CncRemote.PluginList
import CncRemote.TempPath
import CncRemote.Operator
import CncRemote.PluginStart
import CncRemote.SourceFile
import CncRemote.ActiveCodes
import CncRemote.Echo
import CncRemote.Links
import CncRemote.RemoteControl
import CncRemote.Stride
import CncRemote.SimStep
import CncRemote.EdingHeight
import CncRemote.Watchdog
import CncRemote.Heartbeat
import CncRemote.Transcript
import CncRemote.Motions
import CncRemote.MachModes
import CncRemote.PluginCalls
import CncRemote.EdingPlugin
import CncRemote.MainLoop
import CncRemote.Shared
import CncRemote.ThreadLock
import CncRemote.EdingDrives
import CncRemote.Mirror
import CncRemote.LeadsTo
import CncRemote.Refresh
