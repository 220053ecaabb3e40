import MamePlugins.Library.GreedyMatch
import MamePlugins.Library.WordBits
import MamePlugins.Ddrio.Header
import MamePlugins.Ddrio.Handshake
import MamePlugins.Ddrio.Jamma
import MamePlugins.Ddrio.MaskOwner
import MamePlugins.Ddrio.LampHistory
import MamePlugins.Ddrio.Independence
import MamePlugins.Ddrio.RestartExact
import MamePlugins.Iidxio.RegisterFile
import MamePlugins.Bracketing
import MamePlugins.Ddrio.Backend
import MamePlugins.Iidxio.Backend
import MamePlugins.Iidxio.InputMerge
import MamePlugins.Library.CString
import MamePlugins.Iidxio.LuaBind
import MamePlugins.Iidxio.DeckLights
import MamePlugins.Iidxio.DisplayText
import MamePlugins.Iidxio.SwitchOff
import MamePlugins.Util.Log
import MamePlugins.Util.Mem
import MamePlugins.Util.StrTrim
import MamePlugins.Iidxio.Restart
import MamePlugins.Iidxio.SentLights
import MamePlugins.Ddrio.PolledLights
import MamePlugins.Util.ThreadReturn
import MamePlugins.Util.LogHistory
import MamePlugins.Util.StrCompare
import MamePlugins.Util.MemNop
import MamePlugins.Ddrio.LuaBind
import MamePlugins.Iidxio.ObservedInputs
import MamePlugins.Iidxio.Invariant
import MamePlugins.Util.AllocHistory
import MamePlugins.Logging
