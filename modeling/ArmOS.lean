import ArmOS.KmallocRuns
import ArmOS.BuddyRuns
import ArmOS.Asid
import ArmOS.Protect
import ArmOS.Ranges
import ArmOS.CacheRuns
import ArmOS.Mounts
import ArmOS.TableRuns
import ArmOS.FutexRuns
import ArmOS.Family
import ArmOS.WaitRuns
import ArmOS.SearchRights
import ArmOS.QueueRuns
import ArmOS.Exec
import ArmOS.TcpRuns
import ArmOS.SignalWaits
import ArmOS.Timeouts
import ArmOS.NonBlocking
import ArmOS.LineDiscipline
import ArmOS.Ptys
import ArmOS.DirectoryMaps
import ArmOS.FirstUse
import ArmOS.Appends
import ArmOS.Barriers
import ArmOS.Rights
