import BpCore.Engine
import BpCore.Taproot.LeafVer
import BpCore.Taproot.Hashes
import BpCore.Taproot.StrictCodec
import BpCore.Taproot.OutputKey
import BpCore.Seals.Revealed
import BpCore.Seals.Numerals
import BpCore.Seals.Text
import BpCore.Lockscript.Miniscript
import BpCore.Lockscript.Commit
import BpCore.Lockscript.Verify
import BpCore.Lockscript.Container
