import Rotshield.Lib.ByteField
import Rotshield.Recovery.Gf
import Rotshield.Recovery.Engine
import Rotshield.Lib.Syndrome
import Rotshield.Recovery.Reconstruct
import Rotshield.DiskArray.Config
import Rotshield.DiskArray.Parity
import Rotshield.DiskArray.Canary
import Rotshield.CraftCorrupt.RoundTrip
import Rotshield.Recovery.DoubleFault
import Rotshield.Recovery.Search
import Rotshield.Recovery.BakedIn
import Rotshield.BatchRecover.Flush
import Rotshield.Lib.Hoare
import Rotshield.Lib.Transition
import Rotshield.BatchRecover.Spec
import Rotshield.BatchRecover.Ledger
import Rotshield.BatchRecover.Pipeline
import Rotshield.BatchRecover.Conservation
import Rotshield.BatchRecover.WriteSafety
import Rotshield.BatchRecover.Repair
import Rotshield.Btrfs.Chunk
import Rotshield.Btrfs.CsumStrategy
import Rotshield.Btrfs.Node
import Rotshield.Btrfs.Reader
import Rotshield.Btrfs.Extent
import Rotshield.Btrfs.Copies
import Rotshield.Btrfs.Reconfirm
import Rotshield.Btrfs.HealthyTree
import Rotshield.Btrfs.ExtentTree
import Rotshield.Btrfs.CsumTree
import Rotshield.Btrfs.Exact
import Rotshield.Btrfs.Walk
import Rotshield.Btrfs.Csum
import Rotshield.Btrfs.LiveTree
import Rotshield.Btrfs.CsumRange
import Rotshield.Btrfs.LiveCsum
import Rotshield.Btrfs.RootRewrite
import Rotshield.Btrfs.Isolate
import Rotshield.Btrfs.Isolation
import Rotshield.Btrfs.ChunkLookup
import Rotshield.Btrfs.SysChunks
import Rotshield.Btrfs.Reconfirmer
import Rotshield.Btrfs.WalkEnds
import Rotshield.Btrfs.CsumAgree
import Rotshield.Btrfs.ScrubExactness
import Rotshield.Btrfs.Runs
import Rotshield.Btrfs.Fallback
import Rotshield.Main.FreezeSafety
import Rotshield.Main.CleanExit
import Rotshield.Main.SameVerdict
import Rotshield.RunLock
import Rotshield.Btrfs.Encode
import Rotshield.Btrfs.Craft
import Rotshield.Main.HealthyRun
import Rotshield.BatchRecover.Evidence
import Rotshield.Main.Restores
import Rotshield.Main.Refinement
