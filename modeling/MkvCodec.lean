import MkvCodec.Backend.Av1
import MkvCodec.Backend.GpuPts
import MkvCodec.Backend.Vp9
import MkvCodec.Backend.VplSequence
import MkvCodec.Data.TimeBase
import MkvCodec.Decoder.Failure
import MkvCodec.Decoder.Refinement
import MkvCodec.Encoder.Barrier
import MkvCodec.Encoder.Failure
import MkvCodec.Encoder.Policy
import MkvCodec.Encoder.Refinement
import MkvCodec.Encoder.Slots
import MkvCodec.Encoder.Submissions
import MkvCodec.Gpu.Destruction
import MkvCodec.Gpu.Leases
import MkvCodec.Gpu.Release
import MkvCodec.Backend.Present
import MkvCodec.Backend.Live
import MkvCodec.Encoder.Closing
import MkvCodec.Container.Ebml
import MkvCodec.Container.Lemmas.Vint
import MkvCodec.Container.Grammar
import MkvCodec.Container.Parser
import MkvCodec.Container.Lemmas.WriteSize
import MkvCodec.Container.Format
import MkvCodec.Container.Lemmas.Rewrite
import MkvCodec.Container.Finalize
import MkvCodec.Container.Packets
import MkvCodec.Data.SlotPool
import MkvCodec.Gpu.Reservations
import MkvCodec.Concurrency.History
import MkvCodec.Gpu.NvdecRuntime
import MkvCodec.Gpu.Teardown
import MkvCodec.Data.Resources
import MkvCodec.Gpu.NvencSession
import MkvCodec.Gpu.NvencOwnership
import MkvCodec.Gpu.ImportedSurfaces
import MkvCodec.Gpu.SurfaceRelease
import MkvCodec.Backend.InputHolding
import MkvCodec.Backend.Lemmas.VplCalls
import MkvCodec.Gpu.FramePool
import MkvCodec.Gpu.SlotAccounting
import MkvCodec.Encoder.BufferRetention
import MkvCodec.Encoder.CpuFramePool
import MkvCodec.Gpu.NvdecOutput
import MkvCodec.Gpu.NvdecReads
import MkvCodec.Gpu.VplDecoderOutput
import MkvCodec.Gpu.VplReads
import MkvCodec.Container.FrameRate
import MkvCodec.Backend.CpuPixels
import MkvCodec.Backend.FrameReuse
import MkvCodec.Data.Block
import MkvCodec.Frame.Conversion
import MkvCodec.Frame.Stripes
import MkvCodec.Data.Raster
import MkvCodec.Data.Words
import MkvCodec.Frame.Processor
import MkvCodec.Frame.Lemmas.Tight
import MkvCodec.Frame.Geometry
import MkvCodec.Frame.Composition
import MkvCodec.Gpu.Completions
import MkvCodec.Concurrency.TaskPool
import MkvCodec.Frame.ConversionWorkers
import MkvCodec.Decoder.Av1
import MkvCodec.Decoder.Attribution
import MkvCodec.Encoder.Metrics
import MkvCodec.Gpu.Dlpack
import MkvCodec.Gpu.DlpackLeases
import MkvCodec.Backend.FrameLayout
import MkvCodec.Backend.RateParameters
import MkvCodec.Backend.AutomaticPts
import MkvCodec.Backend.NvencHandles
import MkvCodec.Backend.VplBitstream
import MkvCodec.Metrics.ComponentTimers
import MkvCodec.Metrics.Partition
import MkvCodec.Python.OutputLease
import MkvCodec.Python.GpuImage
import MkvCodec.Python.GpuProcessor
import MkvCodec.Python.UsmSlot
import MkvCodec.Python.ReadBatch
import MkvCodec.Python.DlpackModule
import MkvCodec.Python.DlpackBalance
import MkvCodec.Python.OpenClRuntime
import MkvCodec.Container.Sizes
import MkvCodec.Frame.PackedPixels
import MkvCodec.Python.OpenClProcessorRuns
import MkvCodec.Python.OpenClProcessorClose
import MkvCodec.Frame.PlanarCopy
import MkvCodec.Frame.Readback
import MkvCodec.Decoder.Metrics
import MkvCodec.Encoder.CopyEdges
import MkvCodec.Gpu.VplMixedReads
import MkvCodec.Encoder.CpuPoolMemory
import MkvCodec.Frame.Fitting
import MkvCodec.Python.FrameViews
import MkvCodec.Python.NativePlanes
