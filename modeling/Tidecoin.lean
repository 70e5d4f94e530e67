import Tidecoin.KeyIO
import Tidecoin.Falcon
import Tidecoin.FeeFrac
import Tidecoin.CompactTarget
import Tidecoin.HeadersSync.Download
import Tidecoin.Script.ConditionStack
import Tidecoin.Script.Multisig
import Tidecoin.Script.Bip141
import Tidecoin.Script.SigHashCache
import Tidecoin.Script.Checksum
import Tidecoin.Script.DescriptorParser
import Tidecoin.Pqhd
import Tidecoin.Psbt.Merge
import Tidecoin.Coins.Stack
import Tidecoin.Mining.AuxpowMiner
import Tidecoin.Net.ProofOfWork
import Tidecoin.Net.GetHeaders
import Tidecoin.Net.Reconstruct
import Tidecoin.Net.CompactRing
import Tidecoin.Net.TxDownload
import Tidecoin.Wallet.Encryption
