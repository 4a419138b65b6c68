import SimpleInit.Fdisk.CString
import SimpleInit.Fdisk.Script
import SimpleInit.Fdisk.Header
import SimpleInit.Fdisk.Refcount
import SimpleInit.Fdisk.Token
import SimpleInit.Fdisk.Parse
import SimpleInit.Fdisk.Read
import SimpleInit.Fdisk.Write
import SimpleInit.Fdisk.Json
import SimpleInit.Fdisk.ReadScript
import SimpleInit.Fdisk.ReadTable
import SimpleInit.Fdisk.Roundtrip
import SimpleInit.Fdisk.TableRoundtrip
import SimpleInit.Fdisk.DumpRoundtrip
import SimpleInit.Fdisk.ReadContext
import SimpleInit.Fdisk.FromFile
import SimpleInit.Blkid.Zfs
import SimpleInit.Blkid.ZfsProbe
import SimpleInit.Gui.UefiKeyboard
import SimpleInit.Cmdline.Dpi
import SimpleInit.Linux.Config
