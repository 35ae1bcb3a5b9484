import AmlogicUpdate.Interaction
import AmlogicUpdate.CData
import AmlogicUpdate.Checksum
import AmlogicUpdate.Usb
import AmlogicUpdate.AmlLibusb
import AmlogicUpdate.Bl2
import AmlogicUpdate.UsbRomDrv
import AmlogicUpdate.Wire
import AmlogicUpdate.LargeMem
import AmlogicUpdate.Handles
import AmlogicUpdate.Update
import AmlogicUpdate.CtrlMem
import AmlogicUpdate.CtrlPaths
import AmlogicUpdate.Media
import AmlogicUpdate.Announce
import AmlogicUpdate.Download
import AmlogicUpdate.Session
import AmlogicUpdate.BulkCmd
import AmlogicUpdate.Mwrite
import AmlogicUpdate.Memory
import AmlogicUpdate.MemDevice
import AmlogicUpdate.MemFiles
import AmlogicUpdate.Bl2Test
import AmlogicUpdate.Scan
import AmlogicUpdate.Host
import AmlogicUpdate.Serial
import AmlogicUpdate.TextCommands
import AmlogicUpdate.ReadMedia
import AmlogicUpdate.DataCommands
import AmlogicUpdate.Burn
import AmlogicUpdate.Cmd4
import AmlogicUpdate.Bounds
import AmlogicUpdate.Arguments
import AmlogicUpdate.ChipCommands
import AmlogicUpdate.CommandLine
import AmlogicUpdate.Checksum16
import AmlogicUpdate.LargeMemEnds
import AmlogicUpdate.BulkVerdict
import AmlogicUpdate.DeviceChoice
import AmlogicUpdate.ChipPage
import AmlogicUpdate.ChipId
import AmlogicUpdate.DeviceArgs
import AmlogicUpdate.ScanCallers
import AmlogicUpdate.SerialReply
import AmlogicUpdate.SerialLeak
import AmlogicUpdate.ExitStatus
import AmlogicUpdate.LostSuccess
import AmlogicUpdate.LostRuns
import AmlogicUpdate.Horner
import AmlogicUpdate.StrtoulLoop
import AmlogicUpdate.Heap
import AmlogicUpdate.LinkedHeap
import AmlogicUpdate.Reconcile
import AmlogicUpdate.LinkedWalks
import AmlogicUpdate.DeepCopy
import AmlogicUpdate.Descriptors
import AmlogicUpdate.Busses
import AmlogicUpdate.UsbDevices
import AmlogicUpdate.Rescan
import AmlogicUpdate.Loader
import AmlogicUpdate.NoisyLine
import AmlogicUpdate.GivingUp
import AmlogicUpdate.Halting
import AmlogicUpdate.Privileges
