import RadsatLinux.Library.Crash
import RadsatLinux.Library.BlockDevice
import RadsatLinux.Library.LittleEndian
import RadsatLinux.Library.RingBuffer
import RadsatLinux.Library.Stateful
import RadsatLinux.Library.Bits
import RadsatLinux.Library.ShellText
import RadsatLinux.Fram.Record
import RadsatLinux.Fram.Memory
import RadsatLinux.UBoot.Hardware
import RadsatLinux.UBoot.FramMission
import RadsatLinux.UBoot.Layout
import RadsatLinux.UBoot.Overlay
import RadsatLinux.UBoot.OverlayEnv
import RadsatLinux.UBoot.Recovery
import RadsatLinux.UBoot.LayoutGate
import RadsatLinux.UBoot.RestoreSafety
import RadsatLinux.UBoot.BootChain
import RadsatLinux.Library.ShellNumber
import RadsatLinux.InstallOs.Commands
import RadsatLinux.InstallOs.Script
import RadsatLinux.InstallOs.Restore
import RadsatLinux.InstallOs.RecordService
import RadsatLinux.InstallOs.CopySafety
import RadsatLinux.InstallOs.Latch
import RadsatLinux.InstallOs.Shutdown
import RadsatLinux.InstallOs.EmmcToSd
import RadsatLinux.InstallOs.RootDisk
import RadsatLinux.Media.RestorePaths
import RadsatLinux.InstallOs.RootGuard
import RadsatLinux.Env.Mram
import RadsatLinux.Env.Relocate
import RadsatLinux.Env.History
import RadsatLinux.I2c.FrameQueue
import RadsatLinux.I2c.Omap
import RadsatLinux.I2c.Frames
import RadsatLinux.I2c.Quiet
import RadsatLinux.I2c.Storm
import RadsatLinux.I2c.Stall
import RadsatLinux.I2c.Arrivals
import RadsatLinux.I2c.SlaveLoop
import RadsatLinux.I2c.Framing
import RadsatLinux.Init.RcScripts
import RadsatLinux.Init.RootMedia
import RadsatLinux.Library.ShiftRegister
import RadsatLinux.Restart.Am33xx
import RadsatLinux.Fram.Burst
import RadsatLinux.UBoot.KeyFrames
import RadsatLinux.UBoot.Attempts
import RadsatLinux.UBoot.Episodes
import RadsatLinux.UBoot.SlotDamage
import RadsatLinux.UBoot.BootFails
import RadsatLinux.I2c.FrameReaders
import RadsatLinux.I2c.Listen
import RadsatLinux.Env.Chunks
import RadsatLinux.InstallOs.Backups
import RadsatLinux.UBoot.RecordCodec
import RadsatLinux.Watchdog.At91Isis
import RadsatLinux.InstallOs.SpanCopy
import RadsatLinux.Library.Calendar
import RadsatLinux.Rtc.Rv3028
import RadsatLinux.Rtc.SetTime
import RadsatLinux.Library.Directory
import RadsatLinux.Logs.Rotate
import RadsatLinux.Library.TickCounter
import RadsatLinux.Library.WaitQueue
import RadsatLinux.I2c.Blocking
import RadsatLinux.Watchdog.IsisPing
import RadsatLinux.I2c.Sharing
import RadsatLinux.I2c.Transfers
import RadsatLinux.Library.Tokens
import RadsatLinux.Services.Requests
import RadsatLinux.InstallOs.CommandLine
import RadsatLinux.Library.Fields
import RadsatLinux.Services.Replies
import RadsatLinux.Services.FlagWords
import RadsatLinux.Library.Schedule
import RadsatLinux.Restart.Reboot
import RadsatLinux.Restart.Controllers
