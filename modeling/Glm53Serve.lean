import Glm53Serve.BenchPower.Markers
import Glm53Serve.Watchdog.Observations
import Glm53Serve.Indexer.Workspace
import Glm53Serve.AdaptiveK.Capture
import Glm53Serve.AdaptiveK.Scheduler
import Glm53Serve.Launcher.IntList
import Glm53Serve.Launcher.CaptureSizes
import Glm53Serve.Ablit.FetchBytes
import Glm53Serve.Ablit.Resume
import Glm53Serve.Exl3.Agreement
import Glm53Serve.Ablit.Hook
import Glm53Serve.Scheduler.AlignFloor
import Glm53Serve.Scheduler.DecodeFloor
import Glm53Serve.PrefixHit.Coordinator
import Glm53Serve.KvPool.DraftGroup
import Glm53Serve.Grammar.Xgrammar
import Glm53Serve.Detokenizer.ReasoningGuard
import Glm53Serve.AdaptiveK.Override
import Glm53Serve.AdaptiveK.Recovery
import Glm53Serve.Indexer.Partition
import Glm53Serve.BenchAb.Provenance
import Glm53Serve.Sglang.Container
import Glm53Serve.Sglang.Ranks
import Glm53Serve.Overlay.NoStore
import Glm53Serve.Overlay.Installed
import Glm53Serve.Overlay.Commute
import Glm53Serve.BenchPower.Phase
import Glm53Serve.Watchdog.Analysis
import Glm53Serve.Watchdog.Tail
import Glm53Serve.Ablit.FetchEnds
import Glm53Serve.Indexer.Guard
import Glm53Serve.PrefixHit.Retention
import Glm53Serve.Launcher.CanonicalInt
import Glm53Serve.Ablit.Projection
import Glm53Serve.Dflash.Selector
import Glm53Serve.Dflash.GroupedConv
import Glm53Serve.Exl3.FatAgree
import Glm53Serve.Torch.Tensor
import Glm53Serve.Exl3.Loading
import Glm53Serve.Exl3.LoadPartition
import Glm53Serve.BenchAb.BootWarnings
import Glm53Serve.BenchAb.RunProcess
import Glm53Serve.BenchAb.Fairness
import Glm53Serve.Exl3.FatCounters
import Glm53Serve.Exl3.FatScratch
import Glm53Serve.Video.Placeholder
import Glm53Serve.Overlay.IndexerWorkspace
import Glm53Serve.Overlay.DrafterGroupRuns
import Glm53Serve.Dflash.Decoder
import Glm53Serve.Exl3.FatTier
import Glm53Serve.KvPool.TailRing
import Glm53Serve.BenchPower.Wrap
import Glm53Serve.BenchPower.Chart
import Glm53Serve.KvPool.NoStore
import Glm53Serve.Sglang.LongContext
import Glm53Serve.Watchdog.Report
import Glm53Serve.Sglang.BringUp
import Glm53Serve.Overlay.Spinwait
