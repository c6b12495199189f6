import Braidinfer.Bqnt.Checks
import Braidinfer.Bqnt.Format
import Braidinfer.Bqnt.Metadata
import Braidinfer.Bqnt.Reader
import Braidinfer.Bqnt.Reparse
import Braidinfer.Bqnt.Representable
import Braidinfer.Bqnt.RoundTrip
import Braidinfer.Bqnt.Soundness
import Braidinfer.Bqnt.Writer
import Braidinfer.Engine.Accounting
import Braidinfer.Engine.Broadcast
import Braidinfer.Engine.Calls
import Braidinfer.Engine.ConfigParse
import Braidinfer.Engine.FailedPrefill
import Braidinfer.Engine.HostTier
import Braidinfer.Engine.Lifecycle
import Braidinfer.Engine.MixedPrefill
import Braidinfer.Engine.Model
import Braidinfer.Engine.MultiGpu
import Braidinfer.Engine.PageTable
import Braidinfer.Engine.Positions
import Braidinfer.Engine.QuantPages
import Braidinfer.Engine.Sound
import Braidinfer.Engine.TraceDump
import Braidinfer.Generate.Draw
import Braidinfer.Generate.Feed
import Braidinfer.Generate.Filters
import Braidinfer.Generate.Sampling
import Braidinfer.Generate.TokenConfig
import Braidinfer.Lib.ArcHeap
import Braidinfer.Lib.Barrier
import Braidinfer.Lib.BarrierProgram
import Braidinfer.Lib.Bf16
import Braidinfer.Lib.BinaryFormat
import Braidinfer.Lib.ByteFile
import Braidinfer.Lib.ChunkWalk
import Braidinfer.Lib.Codebook
import Braidinfer.Lib.DeviceMem
import Braidinfer.Lib.ExactFloat
import Braidinfer.Lib.FirstMatch
import Braidinfer.Lib.Frames
import Braidinfer.Lib.FreePool
import Braidinfer.Lib.GatedRecurrence
import Braidinfer.Lib.OnlineSoftmax
import Braidinfer.Lib.Packing
import Braidinfer.Lib.ParallelFor
import Braidinfer.Lib.Patch
import Braidinfer.Lib.Program
import Braidinfer.Lib.Quantize
import Braidinfer.Lib.RowMajor
import Braidinfer.Lib.RowMem
import Braidinfer.Lib.Run
import Braidinfer.Lib.Scratch
import Braidinfer.Lib.Slots
import Braidinfer.Lib.Splice
import Braidinfer.Lib.Text
import Braidinfer.Lib.ThreadSum
import Braidinfer.Lib.TopK
import Braidinfer.Lib.Transducer
import Braidinfer.Lib.TreeReduce
import Braidinfer.Loader.Cache
import Braidinfer.Loader.Concat
import Braidinfer.Loader.Discovery
import Braidinfer.Loader.ExpertSlices
import Braidinfer.Loader.Layers
import Braidinfer.Loader.Load
import Braidinfer.Loader.Moe
import Braidinfer.Loader.Weights
import Braidinfer.Mailbox.Completion
import Braidinfer.Mailbox.Discipline
import Braidinfer.Mailbox.GridBarrier
import Braidinfer.Mailbox.P2p
import Braidinfer.Mailbox.Progress
import Braidinfer.Mailbox.Protocol
import Braidinfer.Mailbox.Recovery
import Braidinfer.Mailbox.Segments
import Braidinfer.Mailbox.SeqWrap
import Braidinfer.Mailbox.Slices
import Braidinfer.Mailbox.Stale
import Braidinfer.Mailbox.Watchdog
import Braidinfer.Mailbox.WorkerInv
import Braidinfer.Megakernel.Attention
import Braidinfer.Megakernel.AttnView
import Braidinfer.Megakernel.GdnPartition
import Braidinfer.Megakernel.HeadAgree
import Braidinfer.Megakernel.HeadParallel
import Braidinfer.Megakernel.Inst
import Braidinfer.Megakernel.KTransform
import Braidinfer.Megakernel.KvCopies
import Braidinfer.Megakernel.KvDecode
import Braidinfer.Megakernel.KvExec
import Braidinfer.Megakernel.KvLayout
import Braidinfer.Megakernel.KvQuantize
import Braidinfer.Megakernel.PositionTables
import Braidinfer.Megakernel.Prefill
import Braidinfer.Megakernel.Program
import Braidinfer.Megakernel.QuantAttention
import Braidinfer.Megakernel.QuantLayout
import Braidinfer.Megakernel.SoftmaxLoop
import Braidinfer.Megakernel.Update
import Braidinfer.Moe.ActHandoff
import Braidinfer.Moe.BackPressure
import Braidinfer.Moe.Compile
import Braidinfer.Moe.ExpertSum
import Braidinfer.Moe.ExpertWeights
import Braidinfer.Moe.Gate
import Braidinfer.Moe.Handoff
import Braidinfer.Moe.Inst
import Braidinfer.Moe.Layout
import Braidinfer.Moe.Reindex
import Braidinfer.Moe.Sharding
import Braidinfer.Moe.Step
import Braidinfer.PagedKv.Accounting
import Braidinfer.PagedKv.Alloc
import Braidinfer.PagedKv.Checkpoint
import Braidinfer.PagedKv.Handle
import Braidinfer.PagedKv.Ownership
import Braidinfer.PagedKv.PoolInv
import Braidinfer.PagedKv.Sequence
import Braidinfer.PagedKv.SequenceShape
import Braidinfer.PagedKv.TierCopies
import Braidinfer.PagedKv.View
import Braidinfer.Quant.ExpertGemv
import Braidinfer.Quant.Format
import Braidinfer.Quant.LinearProj
import Braidinfer.Quant.Nf4
import Braidinfer.Quant.PackedSizes
import Braidinfer.Quant.Quantizer
import Braidinfer.Quant.SmallFloats
import Braidinfer.Quant.SourceDirs
import Braidinfer.Quant.SourceTensors
import Braidinfer.Quant.TiledProj
import Braidinfer.Recurrent.Compile
import Braidinfer.Recurrent.Conv
import Braidinfer.Recurrent.Elementwise
import Braidinfer.Recurrent.Exec
import Braidinfer.Recurrent.Ffn
import Braidinfer.Recurrent.FfnLayer
import Braidinfer.Recurrent.GdnLayer
import Braidinfer.Recurrent.GdnPrefill
import Braidinfer.Recurrent.GdnRecur
import Braidinfer.Recurrent.GdnRule
import Braidinfer.Recurrent.Inst
import Braidinfer.Recurrent.Linear
import Braidinfer.Recurrent.Mamba2Layer
import Braidinfer.Recurrent.Norm
import Braidinfer.Recurrent.Prompt
import Braidinfer.Recurrent.Segment
import Braidinfer.Recurrent.Span
import Braidinfer.Recurrent.Ssm
import Braidinfer.Trace.Sink
import Braidinfer.Trace.Tracer
